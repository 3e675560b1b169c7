import ChipEight.InPlace.Request

/-!
# Traces in place

Steps in place that write a log as they go. A word is traced by the name in its arm, behind what is
looked at to find the arm and before the work of the arm, which may fault; a word outside the tables
is not traced. The warning of a fault is left to the step that carries the word out.
-/
namespace ChipEight.InPlace

/-- Work that writes records. What was written before a fault or a crash stays. -/
structure Noted (α : Type) where
  run : State → List Log.Record × Result α

namespace Noted

open Work (state change raise)

variable {α β : Type}

/-- Goes on with the value of finished work and writes behind its records. -/
def andThen (written : List Log.Record × Result α) (next : α → Noted β) :
    List Log.Record × Result β :=
  match written with
  | (log, .done value s) => (log ++ ((next value).run s).1, ((next value).run s).2)
  | (log, .fault f s) => (log, .fault f s)
  | (log, .crash reason) => (log, .crash reason)

instance : Monad Noted where
  pure value := ⟨fun s => ([], .done value s)⟩
  bind work next := ⟨fun s => andThen (work.run s) next⟩

/-- Work that writes nothing. -/
def quietly (work : Work α) : Noted α := ⟨fun s => ([], work.run s)⟩

def write (records : List Log.Record) : Noted Unit := ⟨fun s => (records, .done () s)⟩

/-- The record of a word at an address, with the name and the operands of its instruction. -/
def traceRecord (pc : UInt16) (o : Opcode) (name : String) : Log.Record where
  level := .trace
  source := .machine
  text := Text.Hex.fixed 4 pc.toNat ++ ": " ++ o.text ++ " " ++ Text.column 6 name ++
    " x=" ++ Text.Hex.natural o.x ++ " y=" ++ Text.Hex.natural o.y ++
    " nnn=" ++ Text.Hex.fixed 3 o.nnn

def faultRecord (fault : Fault) : Log.Record := ⟨.warn, .machine, fault.message⟩

/-- Finds the arm of a word, traces its name if it has one, and carries it out. -/
def execute (pc : UInt16) (o : Opcode) : Noted Flow := do
  let arm ← quietly (arm pc o)
  write (arm.name.map (traceRecord pc o)).toList
  quietly arm.work

/-- Writes the warning of a fault and puts the program counter back. -/
def warned (pc : UInt16) (written : List Log.Record × Result α) : List Log.Record × Result α :=
  match written with
  | (log, .fault f s) => (log ++ [faultRecord f], .fault f { s with pc })
  | other => other

def carryOut (pc : UInt16) (o : Opcode) : Noted Flow := do
  quietly forward
  ⟨fun s => warned pc ((execute pc o).run s)⟩

def step (pad : Keypad) : Noted Flow := do
  quietly (change fun s => { s with keys := .ofKeypad pad })
  let s ← quietly state
  match fetch? s with
  | none => quietly (raise ⟨s.pc, .beyondMemory s.pc.toNat⟩)
  | some o => carryOut s.pc o

/-- Up to `n` more steps after one that ended with a flow. -/
def batch (pad : Keypad) (flow : Flow) : Nat → Noted Flow
  | 0 => return flow
  | n + 1 => do
    let flow ← step pad
    if flow = .awaitKey then return flow else batch pad flow n

end Noted

end ChipEight.InPlace

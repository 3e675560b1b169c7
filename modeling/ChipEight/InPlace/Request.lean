import ChipEight.InPlace.Step
import ChipEight.Machine.Request

/-!
# Requests in place

The requests of a host as work in place, and the states that they lead to. A request that faults is
served: its state is the one that the fault leaves behind.
-/
namespace ChipEight.InPlace

open Work
open Machine (Request Tone BuzzerCall)

/-- Back to power-on, the random stream kept. -/
def reset : Work Unit := do
  change fun s =>
    { s with
      memory := Vector.replicate 4096 0, stack := Vector.replicate 16 0
      display := Vector.replicate 2048 false, registers := Vector.replicate 16 0 }
  let s ← state
  let memory ← putItems s.memory Font.start Font.glyphs
  change fun s =>
    { s with
      memory, pc := UInt16.ofNat Memory.programStart, stackPointer := 0, index := 0, delay := 0
      sound := 0, keys := .empty, waiting := false, drawn := true }
  change fun s => { s with clock := s.clock.reset }

/-- Starts over with a program and tells whether it fits. -/
def load (program : List UInt8) : Work Bool := do
  reset
  if Memory.programCapacity < program.length then
    return false
  else
    let s ← state
    let memory ← putItems s.memory Memory.programStart program
    change fun s => { s with memory }
    return true

/-- Up to `n` more steps after one that ended with a flow. -/
def run (pad : Keypad) (flow : Flow) : Nat → Work Flow
  | 0 => return flow
  | n + 1 => do
    let flow ← step pad
    if flow = .awaitKey then return flow else run pad flow n

def countDown (timer : UInt8) : UInt8 := if timer = 0 then 0 else timer - 1

/-- One tick of both timers. The tone is that of the sound timer after the tick. -/
def tick : Work Tone := do
  change fun s => { s with delay := countDown s.delay }
  let s ← state
  if s.sound = 0 then
    return .silent
  else
    let sound := countDown s.sound
    change fun s => { s with sound }
    return if sound = 0 then .stop else .play

def ticks : Nat → Work (List BuzzerCall)
  | 0 => return []
  | n + 1 => do
    let tone ← tick
    let calls ← ticks n
    return tone.calls ++ calls

/-- Makes the ticks that are due. Too much time is a sum outside its word. -/
def advance (dt : Duration) : Work (List BuzzerCall) := do
  let s ← state
  match s.clock.advance dt with
  | .error .overflow => crash .overflow
  | .ok (due, clock) =>
    change fun s => { s with clock }
    ticks due.toNat

def takeDrawn : Work Bool := do
  let s ← state
  change fun s => { s with drawn := false }
  return s.drawn

/-- The state that finished or faulted work leaves behind. -/
def Result.state {α : Type} : Result α → Except Crash State
  | .done _ s | .fault _ s => .ok s
  | .crash reason => .error reason

def serve (s : State) : Request → Except Crash State
  | .load program => ((load program).run s).state
  | .reset => (reset.run s).state
  | .step pad => ((step pad).run s).state
  | .run count pad => ((run pad .next count).run s).state
  | .tick => (tick.run s).state
  | .advance dt => ((advance dt).run s).state
  | .takeDrawn => (takeDrawn.run s).state

/-- A machine before it is reset for the first time. Without a seed the random stream has the given
key. -/
def State.zero (config : Machine.Config) (entropy : Random.Key) : State where
  pc := 0
  index := 0
  registers := Vector.replicate 16 0
  stackPointer := 0
  stack := Vector.replicate 16 0
  delay := 0
  sound := 0
  keys := .empty
  waiting := false
  drawn := false
  memory := Vector.replicate 4096 0
  display := Vector.replicate 2048 false
  clock := .timers
  random := ⟨(config.seed.map Random.Key.ofSeed).getD entropy, 0⟩
  config := config

/-- The states that requests lead to from power-on. -/
inductive Reachable : State → Prop
  | new (config : Machine.Config) (entropy : Random.Key) {s : State}
      (h : reset.run (.zero config entropy) = .done () s) : Reachable s
  | serve {s t : State} (request : Request) (hs : Reachable s) (h : serve s request = .ok t) :
      Reachable t

end ChipEight.InPlace

import ChipEight.Machine.Basic

/-!
# Stepping

A step samples the keypad, fetches the word at the program counter, decodes it and carries it out.
A step that faults changes nothing but the sampled keys. A batch makes steps under one keypad until
one faults, one waits for a key, or their number is reached.
-/
namespace ChipEight.Machine

/-- A machine after some work, the result of the last step and the events of all of them. -/
structure Outcome where
  machine : Machine
  result : Except Fault Flow
  events : Array Event

def sample (m : Machine) (pad : Keypad) : Machine :=
  { m with processor := m.processor.withKeys (.ofKeypad pad) }

/-- A step that faults leaves the machine as it is. -/
def Outcome.faulted (m : Machine) (cause : Fault.Cause) (events : List Event) : Outcome :=
  let fault : Fault := ⟨m.processor.pc, cause⟩
  ⟨m, .error fault, (events ++ [Event.faulted fault]).toArray⟩

/-- Carries out a decoded instruction and moves the random stream past what it took. -/
def perform (m : Machine) (opcode : Opcode) (instruction : Instruction) : Outcome :=
  let decoded := Event.decoded m.processor.pc opcode instruction
  match m.processor.execute m.random instruction with
  | .error cause => .faulted m cause [decoded]
  | .ok (processor, flow) =>
    ⟨{ m with processor, random := m.random.skip instruction.draws }, .ok flow, #[decoded]⟩

/-- One step. A word that cannot be fetched is a fault without an event. -/
def step (m : Machine) (pad : Keypad) : Outcome :=
  let m := m.sample pad
  match m.processor.opcode? with
  | none =>
    let pc := m.processor.pc
    ⟨m, .error ⟨pc, .beyondMemory pc.toNat⟩, #[]⟩
  | some opcode =>
    match opcode.decode? with
    | none => .faulted m (.unknownOpcode opcode) []
    | some instruction => m.perform opcode instruction

namespace Outcome

/-- A batch ends with a fault or a wait for a key. -/
def stopped (o : Outcome) : Bool :=
  match o.result with
  | .error _ => true
  | .ok flow => flow = .awaitKey

/-- One more step, its events after the others. -/
def step (o : Outcome) (pad : Keypad) : Outcome :=
  let next := o.machine.step pad
  ⟨next.machine, next.result, o.events ++ next.events⟩

def steps (pad : Keypad) : Nat → Outcome → Outcome
  | 0, o => o
  | n + 1, o => if o.stopped then o else steps pad n (o.step pad)

end Outcome

def run (m : Machine) (n : Nat) (pad : Keypad) : Outcome := Outcome.steps pad n ⟨m, .ok .next, #[]⟩

end ChipEight.Machine

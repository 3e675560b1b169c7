import ChipEight.Machine.Step
import ChipEight.Machine.Timers

/-!
# Requests to a machine

All that a host can ask of a machine, the machines that requests lead to from power-on, and what the
host sees meanwhile: the reply to each request, the machine after it, and the dumps of memory and
screen. A request is served whether it succeeds, refuses or faults; only time that cannot be
accounted for is not, and ends a conversation.
-/
namespace ChipEight.Machine

/-- What a host can ask of a machine. -/
inductive Request
  | load (program : List UInt8)
  | reset
  | step (pad : Keypad)
  | run (count : Nat) (pad : Keypad)
  | tick
  | advance (dt : Duration)
  | takeDrawn

def serve (m : Machine) : Request → Except Clock.Error Machine
  | .load program => .ok (m.load program).machine
  | .reset => .ok m.reset
  | .step pad => .ok (m.step pad).machine
  | .run count pad => .ok (m.run count pad).machine
  | .tick => .ok m.tick.2
  | .advance dt => (m.advance dt).map Elapsed.machine
  | .takeDrawn => .ok m.takeDrawn.2

/-- The machines that requests lead to from power-on. -/
inductive Reachable : Machine → Prop
  | new (config : Config) (entropy : Random.Key) : Reachable (.new config entropy)
  | serve {m n : Machine} (request : Request) (hm : Reachable m) (h : m.serve request = .ok n) :
      Reachable n

/-- What a request gives back. A step and a batch give back how they ended. -/
inductive Reply
  | loaded (result : Except Error Unit)
  | reset
  | stepped (result : Except Fault Flow)
  | ticked (tone : Tone)
  | elapsed (ticks : UInt32) (calls : List BuzzerCall)
  | drawn (flag : Bool)

/-- What a host sees right after a request. The dump of memory depends on how much is asked for. -/
structure View where
  reply : Reply
  machine : Machine
  listing : Nat → List String
  screen : List String

def reply (m : Machine) : Request → Except Clock.Error Reply
  | .load program => .ok (.loaded (m.load program).result)
  | .reset => .ok .reset
  | .step pad => .ok (.stepped (m.step pad).result)
  | .run count pad => .ok (.stepped (m.run count pad).result)
  | .tick => .ok (.ticked m.tick.1)
  | .advance dt => (m.advance dt).map fun e => .elapsed e.ticks e.calls
  | .takeDrawn => .ok (.drawn m.takeDrawn.1)

def view (m : Machine) (request : Request) : Except Clock.Error View := do
  let reply ← m.reply request
  let after ← m.serve request
  return ⟨reply, after, after.processor.memory.listing, after.processor.screen.lines⟩

def converse (m : Machine) : List Request → List (Except Clock.Error View)
  | [] => []
  | request :: rest =>
    match m.view request with
    | .ok view => .ok view :: view.machine.converse rest
    | .error e => [.error e]

end ChipEight.Machine

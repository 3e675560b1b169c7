import ChipEight.Headless.Session

/-!
# The frame loop

A headless session as a loop that makes its steps and ticks one by one and writes down all that it
does. The clocks account for the time of a frame only if there is not too much of it.
-/
namespace ChipEight.InPlace

open Headless (Session)

/-- What the loop does. A look at the draw flag presents the screen if the flag is up. -/
inductive Action
  | playKeys (frame : Nat)
  | step (pad : Keypad) (result : Except Fault Flow)
  | tick (tone : Machine.Tone)
  | look (drawn : Bool)

namespace Action

def isStep : Action → Bool
  | .step .. => true
  | _ => false

/-- The action is a step that waits for a key. -/
def stalls : Action → Bool
  | .step _ (.ok .awaitKey) => true
  | _ => false

def isTick : Action → Bool
  | .tick _ => true
  | _ => false

end Action

namespace FrameLoop

/-- The session with the machine, the records and the fault of some work of its machine. -/
def after (s : Session) (o : Machine.Outcome) : Session :=
  let fault := match o.result with
    | .error fault => some fault
    | .ok _ => none
  { s with machine := o.machine, fault }.noteMachine o.events

/-- Up to a number of steps. A fault and a wait for a key end them. -/
def steps : Nat → Session → Session × List Action
  | 0, s => (s, [])
  | n + 1, s =>
    let outcome := s.machine.step s.script.keypad
    let action := Action.step s.script.keypad outcome.result
    if outcome.stopped then (after s outcome, [action])
    else
      let (last, later) := steps n (after s outcome)
      (last, action :: later)

/-- One tick of the timers, with its call to the buzzer. -/
def tick (s : Session) : Session × Action :=
  let (tone, machine) := s.machine.tick
  let (buzzer, events) := s.buzzer.calls tone.calls
  ({ s with machine, buzzer }.noteDevices events, .tick tone)

def ticks : Nat → Session → Session × List Action
  | 0, s => (s, [])
  | n + 1, s =>
    let (s, action) := tick s
    let (last, later) := ticks n s
    (last, action :: later)

/-- Takes the draw flag, and captures the screen if it was up. -/
def look (s : Session) : Session × Action :=
  let (drawn, machine) := s.machine.takeDrawn
  let capture := if drawn then s.capture.present machine.processor.screen else s.capture
  ({ s with machine, capture }, .look drawn)

/-- The ticks of a frame are those that its time completes on the clock of the machine. -/
def frame (s : Session) (number : Nat) : Except Clock.Error (Session × List Action) := do
  let s := s.playKeys number
  let (due, pace) ← s.pace.advance Session.frameTime
  let (s, made) := steps due.toNat { s with pace }
  if s.fault.isSome then
    return (s, .playKeys number :: made)
  else
    let (due, clock) ← s.machine.clock.advance Session.frameTime
    let (s, ticked) := ticks due.toNat { s with machine := { s.machine with clock } }
    let (s, looked) := look s
    return (s, .playKeys number :: made ++ ticked ++ [looked])

/-- A number of frames from a given one on, with what is done in each of them. -/
def frames : Nat → Nat → Session → Except Clock.Error (Session × List (List Action))
  | 0, _, s => .ok (s, [])
  | n + 1, next, s => do
    let (s, actions) ← frame s next
    if s.fault.isSome then
      return (s, [actions])
    else
      let (s, later) ← frames n (next + 1) s
      return (s, actions :: later)

end FrameLoop

end ChipEight.InPlace

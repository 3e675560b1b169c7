import ChipEight.InPlace.FrameLoop
import ChipEight.Proofs.Countdown

/-!
# Transcripts of the frame loop

What the actions in a transcript do to a machine and to the devices that it drives. A transcript
leaves nothing open: each of its actions fixes all that the machine, the buzzer and the capture are
after it.
-/
namespace ChipEight.InPlace

open Headless (Buzzer Capture Session)
open Machine (Tone)

/-- A machine with the devices that it drives. -/
structure Console where
  machine : Machine
  buzzer : Buzzer
  capture : Capture

/-- Whether a buzzer plays after a tone. -/
def playsAfter (playing : Bool) : Tone → Bool
  | .silent => playing
  | .play => true
  | .stop => false

/-- One tick: each timer is one lower unless it was at zero, and the sound timer before the tick
decides what the buzzer is told. -/
structure Ticked (c : Console) (tone : Tone) (d : Console) : Prop where
  delay : d.machine.processor.delay.toNat = c.machine.processor.delay.toNat - 1
  sound : d.machine.processor.sound.toNat = c.machine.processor.sound.toNat - 1
  rest : d.machine = { c.machine with
    processor := { c.machine.processor with
      delay := d.machine.processor.delay, sound := d.machine.processor.sound } }
  sounds : tone = if c.machine.processor.sound = 0 then .silent
    else if c.machine.processor.sound = 1 then .stop else .play
  buzzer : d.buzzer.playing = playsAfter c.buzzer.playing tone
  capture : d.capture = c.capture

/-- One look at the draw flag: it is taken down, and if it was up the screen is captured. -/
structure Looked (c : Console) (drawn : Bool) (d : Console) : Prop where
  found : drawn = c.machine.processor.drawn
  machine : d.machine =
    { c.machine with processor := { c.machine.processor with drawn := false } }
  buzzer : d.buzzer = c.buzzer
  capture : d.capture =
    if drawn then ⟨c.machine.processor.screen, c.capture.presented + 1⟩ else c.capture

/-- What an action does. -/
inductive Acts : Console → Action → Console → Prop
  | playKeys (c : Console) (frame : Nat) : Acts c (.playKeys frame) c
  | step (c : Console) (pad : Keypad) : Acts c (.step pad (c.machine.step pad).result)
      { c with machine := (c.machine.step pad).machine }
  | tick {c d : Console} {tone : Tone} (h : Ticked c tone d) : Acts c (.tick tone) d
  | look {c d : Console} {drawn : Bool} (h : Looked c drawn d) : Acts c (.look drawn) d

/-- What actions one after another do. -/
inductive Plays : Console → List Action → Console → Prop
  | nil (c : Console) : Plays c [] c
  | cons {c d e : Console} {action : Action} {later : List Action} (h : Acts c action d)
      (hlater : Plays d later e) : Plays c (action :: later) e

theorem Plays.append {c d e : Console} {actions later : List Action} (h : Plays c actions d)
    (hlater : Plays d later e) : Plays c (actions ++ later) e := by
  induction h with
  | nil => exact hlater
  | cons hact _ ih => exact .cons hact (ih hlater)

end ChipEight.InPlace

namespace ChipEight.Headless

/-- What of a session its actions are about. -/
def Session.console (s : Session) : InPlace.Console := ⟨s.machine, s.buzzer, s.capture⟩

theorem playing_calls (b : Buzzer) (tone : Machine.Tone) :
    (b.calls tone.calls).1.playing = InPlace.playsAfter b.playing tone := by
  cases tone with
  | silent => rfl
  | play => exact playing_turn b true
  | stop => exact playing_turn b false

end ChipEight.Headless

namespace ChipEight.InPlace.FrameLoop

open Headless (Session playing_calls)

theorem ticked_tick (s : Session) : Ticked s.console s.machine.tick.1 (tick s).1.console := by
  have hmachine : (tick s).1.console.machine = s.machine.countedDown 1 :=
    s.machine.tick_eq_countedDown
  refine ⟨?_, ?_, ?_, rfl, playing_calls s.buzzer _, rfl⟩
  · rw [hmachine]
    exact toNat_lowered s.machine.processor.delay 1
  · rw [hmachine]
    exact toNat_lowered s.machine.processor.sound 1
  · rw [hmachine]
    rfl

theorem looked_look (s : Session) :
    Looked s.console s.machine.processor.drawn (look s).1.console where
  found := rfl
  machine := rfl
  buzzer := rfl
  capture := rfl

theorem plays_steps (n : Nat) (s : Session) :
    Plays s.console (steps n s).2 (steps n s).1.console := by
  induction n generalizing s with
  | zero => exact .nil s.console
  | succ n ih =>
    have hstep : Acts s.console
        (.step s.script.keypad (s.machine.step s.script.keypad).result)
        (after s (s.machine.step s.script.keypad)).console := .step s.console s.script.keypad
    rw [steps]
    cases (s.machine.step s.script.keypad).stopped with
    | true => exact .cons hstep (.nil _)
    | false => exact .cons hstep (ih (after s (s.machine.step s.script.keypad)))

theorem plays_ticks (n : Nat) (s : Session) :
    Plays s.console (ticks n s).2 (ticks n s).1.console := by
  induction n generalizing s with
  | zero => exact .nil s.console
  | succ n ih => exact .cons (.tick (ticked_tick s)) (ih (tick s).1)

theorem plays_look (s : Session) : Plays s.console [(look s).2] (look s).1.console :=
  .cons (.look (looked_look s)) (.nil _)

end ChipEight.InPlace.FrameLoop

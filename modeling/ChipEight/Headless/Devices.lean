import ChipEight.Machine.Timers

/-!
# Stand-in devices

The devices of a machine that runs without a window: a buzzer that notes when it would start and
stop, the last screen that was presented, and a script that puts keys down and up at given frames.
Advancing a script to a frame applies every event that is due and was not yet applied, so a frame
may be skipped or come twice.
-/
namespace ChipEight.Headless

inductive Event
  | key (frame : Nat) (key : Key) (pressed : Bool)
  | buzzer (on : Bool)
deriving DecidableEq

namespace Event

def level : Event → Log.Level
  | .key .. => .debug
  | .buzzer _ => .info

def text : Event → String
  | .key frame k pressed =>
    "frame " ++ toString frame ++ ": " ++ k.text ++ (if pressed then " down" else " up")
  | .buzzer on => if on then "buzzer on" else "buzzer off"

def record (e : Event) : Log.Record := ⟨e.level, .headless, e.text⟩

end Event

structure Buzzer where
  playing : Bool
deriving DecidableEq

namespace Buzzer

def silent : Buzzer := ⟨false⟩

def turn (b : Buzzer) (on : Bool) : Buzzer × List Event :=
  if b.playing = on then (b, []) else (⟨on⟩, [.buzzer on])

def call (b : Buzzer) : Machine.BuzzerCall → Buzzer × List Event
  | .play => b.turn true
  | .stop => b.turn false

def calls (b : Buzzer) : List Machine.BuzzerCall → Buzzer × List Event
  | [] => (b, [])
  | c :: rest =>
    let (b, events) := b.call c
    let (b, later) := b.calls rest
    (b, events ++ later)

end Buzzer

/-- The last presented screen and the number of presented screens. -/
structure Capture where
  screen : Screen
  presented : Nat
deriving DecidableEq

namespace Capture

def empty : Capture := ⟨.blank, 0⟩

def present (c : Capture) (screen : Screen) : Capture := ⟨screen, c.presented + 1⟩

def lit (c : Capture) : Nat := c.screen.litCount

end Capture

structure KeyEvent where
  frame : Nat
  key : Key
  pressed : Bool
deriving DecidableEq

/-- The keys that are down and the events to come, in the order in which they apply. -/
structure Script where
  keys : KeySet
  pending : List KeyEvent
deriving DecidableEq

/-- Calls for one frame after another, in any order of the frames, and what they note. -/
def follow {α : Type} (advance : α → Nat → α × List Event) (script : α) :
    List Nat → α × List Event
  | [] => (script, [])
  | frame :: rest =>
    let (script, now) := advance script frame
    let (script, later) := follow advance script rest
    (script, now ++ later)

theorem follow_concat {α : Type} (advance : α → Nat → α × List Event) (script : α)
    (frames : List Nat) (frame : Nat) :
    (follow advance script (frames ++ [frame])).1 =
      (advance (follow advance script frames).1 frame).1 := by
  induction frames generalizing script with
  | nil => rfl
  | cons first rest ih => exact ih (advance script first).1

namespace Script

/-- All keys up and all events to come. Events are taken in the given order, which is to be that of
their frames. -/
def ofEvents (events : List KeyEvent) : Script := ⟨.empty, events⟩

def due (frame : Nat) (e : KeyEvent) : Bool := e.frame ≤ frame

def apply (keys : KeySet) (e : KeyEvent) : KeySet := keys.set e.key e.pressed

/-- Applies the events up to the first that is not due. -/
def advance (s : Script) (frame : Nat) : Script × List Event :=
  let now := s.pending.takeWhile (due frame)
  (⟨now.foldl apply s.keys, s.pending.dropWhile (due frame)⟩,
    now.map fun e => .key frame e.key e.pressed)

def keypad (s : Script) : Keypad := s.keys.contains

variable {keys : KeySet} {e : KeyEvent} {rest : List KeyEvent} {frame : Nat}

theorem advance_of_due (h : e.frame ≤ frame) :
    advance ⟨keys, e :: rest⟩ frame =
      ((advance ⟨apply keys e, rest⟩ frame).1,
        .key frame e.key e.pressed :: (advance ⟨apply keys e, rest⟩ frame).2) := by
  simp [advance, due, h]

theorem advance_of_later (h : frame < e.frame) :
    advance ⟨keys, e :: rest⟩ frame = (⟨keys, e :: rest⟩, []) := by
  simp [advance, due, h]

end Script

end ChipEight.Headless

import ChipEight.Headless.Devices

/-!
# Keys in place

Keys as the bits of a word: a key is looked up under a mask of its own, and the least one by
counting the zero bits below it. A script of keys keeps its list of events whole while a cursor
moves over it. A step can sample such a word, sixteen answers in a row or a script.
-/
namespace ChipEight.InPlace

open Headless (Event KeyEvent Script follow)

def pressed (keys : UInt16) (k : Key) : Bool := keys &&& k.bit != 0

/-- Whether the key with a number is down. A number above 15 is that of no key. -/
def numberPressed (keys : UInt16) (number : UInt8) : Bool :=
  match Key.ofNat number.toNat with
  | .ok k => pressed keys k
  | .error .outOfRange => false

/-- How many zero bits a word ends in: sixteen if it has no other. -/
def trailingZeros (word : UInt16) : Nat := word.toBitVec.ctz.toNat

/-- The key that has the number of the lowest set bit. No set bit or no such key is none. -/
def firstPressed (keys : UInt16) : Option Key :=
  if keys != 0 then (Key.ofNat (UInt8.ofNat (trailingZeros keys)).toNat).toOption else none

/-- Devices that say at once whether a key is down. -/
class Keyed (Device : Type) where
  isDown : Device → Keypad

instance : Keyed KeySet := ⟨fun keys => pressed keys.mask⟩

instance : Keyed (Vector Bool 16) := ⟨Vector.get⟩

instance : Keyed Script := ⟨fun script => pressed script.keys.mask⟩

/-- The state of every key of a device, set one after another. -/
def snapshot {Device : Type} [Keyed Device] (device : Device) : KeySet :=
  .ofKeypad (Keyed.isDown device)

/-- The keys that are down, all events and the place of the next one. -/
structure Playback where
  keys : KeySet
  events : List KeyEvent
  cursor : Nat

namespace Playback

def ofEvents (events : List KeyEvent) : Playback := ⟨.empty, events, 0⟩

def advance (p : Playback) (frame : Nat) : Playback × List Event :=
  match _h : p.events[p.cursor]? with
  | none => (p, [])
  | some e =>
    if frame < e.frame then (p, [])
    else
      let (after, later) :=
        advance { p with keys := p.keys.set e.key e.pressed, cursor := p.cursor + 1 } frame
      (after, .key frame e.key e.pressed :: later)
termination_by p.events.length - p.cursor
decreasing_by
  have hlt := (List.getElem?_eq_some_iff.mp _h).1
  omega

/-- The events from the cursor on are those to come. -/
def script (p : Playback) : Script := ⟨p.keys, p.events.drop p.cursor⟩

theorem script_of_getElem? {p : Playback} {e : KeyEvent} (h : p.events[p.cursor]? = some e) :
    p.script = ⟨p.keys, e :: p.events.drop (p.cursor + 1)⟩ := by
  obtain ⟨hlt, rfl⟩ := List.getElem?_eq_some_iff.mp h
  rw [script, List.drop_eq_getElem_cons hlt]

/-- Moving the cursor takes the events that are due off those to come. -/
theorem script_advance (p : Playback) (frame : Nat) :
    ((p.advance frame).1.script, (p.advance frame).2) = p.script.advance frame := by
  fun_induction advance p frame with
  | case1 p h =>
    have hpending : p.events.drop p.cursor = [] :=
      List.drop_eq_nil_of_le (List.getElem?_eq_none_iff.mp h)
    simp [script, Script.advance, hpending]
  | case2 p e h hlater => rw [script_of_getElem? h, Script.advance_of_later hlater]
  | case3 p e h hdue after later hrest ih =>
    rw [hrest] at ih
    rw [script_of_getElem? h, Script.advance_of_due (Nat.not_lt.mp hdue)]
    exact congrArg (fun played : Script × List Event => (played.1, _ :: played.2)) ih

/-- So it plays the same script, whatever the calls are. -/
theorem script_follow (p : Playback) (frames : List Nat) :
    ((follow advance p frames).1.script, (follow advance p frames).2) =
      follow Script.advance p.script frames := by
  induction frames generalizing p with
  | nil => rfl
  | cons frame rest ih =>
    have hafter := ih (p.advance frame).1
    simp only [follow, ← p.script_advance frame, ← hafter]

end Playback

end ChipEight.InPlace

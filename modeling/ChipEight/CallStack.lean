/-!
# Call stack

Sixteen slots for return addresses and the number of slots in use. Returning frees a slot without
erasing it; `CallStack.live` is what a program can still return to.
-/
namespace ChipEight

/-- Return addresses, the live ones first. -/
@[ext]
structure CallStack where
  slots : Vector UInt16 16
  depth : Fin 17
deriving DecidableEq

namespace CallStack

def capacity : Nat := 16

def empty : CallStack := ⟨Vector.replicate 16 0, 0⟩

/-- The live return addresses, bottom first. -/
def live (s : CallStack) : List UInt16 := s.slots.toList.take s.depth

/-- Adds a return address; a full stack refuses it. -/
def push? (s : CallStack) (address : UInt16) : Option CallStack :=
  if h : s.depth.val < 16 then
    some ⟨s.slots.set s.depth address h, ⟨s.depth + 1, Nat.succ_lt_succ h⟩⟩
  else none

/-- The last return address and the stack without it; an empty stack has none. -/
def pop? (s : CallStack) : Option (UInt16 × CallStack) :=
  match s with
  | ⟨_, 0, _⟩ => none
  | ⟨slots, d + 1, h⟩ =>
    some (slots.get ⟨d, Nat.lt_of_succ_lt_succ h⟩, ⟨slots, d, Nat.lt_of_succ_lt h⟩)

/-- Pushing fills the slot at the old depth and no other. -/
theorem slots_push? {s t : CallStack} {address : UInt16} (h : s.push? address = some t) :
    t.depth.val = s.depth.val + 1 ∧ ∀ i : Fin 16,
      t.slots.get i = if s.depth.val = i.val then address else s.slots.get i := by
  rw [push?] at h
  split at h
  case isTrue hroom =>
    cases h
    exact ⟨rfl, fun i => Vector.getElem_set hroom i.isLt⟩
  case isFalse => cases h

/-- Popping reads the slot below the depth and keeps all of them. -/
theorem slots_pop? {s t : CallStack} {address : UInt16} (h : s.pop? = some (address, t)) :
    s.depth.val = t.depth.val + 1 ∧ t.slots = s.slots ∧
      ∀ i : Fin 16, i.val = t.depth.val → s.slots.get i = address := by
  obtain ⟨slots, depth, hdepth⟩ := s
  cases depth with
  | zero => cases h
  | succ depth =>
    cases h
    exact ⟨rfl, rfl, fun i hi => congrArg slots.get (Fin.ext hi)⟩

/-- Pushing puts the address on top of the live ones. -/
theorem live_push? {s t : CallStack} {address : UInt16} (h : s.push? address = some t) :
    t.live = s.live ++ [address] := by
  unfold push? at h
  split at h
  · rename_i hd
    cases h
    simp [live, List.take_add_one, hd, Vector.toList_set, List.take_set_of_le]
  · cases h

/-- Popping gives the topmost live address and leaves the others. -/
theorem live_pop? {s t : CallStack} {address : UInt16} (h : s.pop? = some (address, t)) :
    s.live = t.live ++ [address] := by
  obtain ⟨slots, d, hd⟩ := s
  cases d with
  | zero => cases h
  | succ d =>
    cases h
    have hl : d < 16 := Nat.lt_of_succ_lt_succ hd
    simp [live, List.take_add_one, hl, Vector.get]

end CallStack

end ChipEight

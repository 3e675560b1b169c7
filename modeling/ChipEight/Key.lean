import ChipEight.Text.Hex

/-!
# Keys

The hexadecimal keypad has sixteen keys, numbered 0 to 15. A set of pressed keys is a mask with bit
`k` for key `k`. A keypad is anything that says whether a key is down; `KeySet.ofKeypad` samples it
once for all keys.
-/
namespace ChipEight

abbrev Key := Fin 16

namespace Key

def count : Nat := 16

def all : List Key := List.finRange count

/-- The refusal of a number that names no key. -/
inductive Error
  | outOfRange
deriving DecidableEq

def Error.message : Error → String
  | .outOfRange => "keycode must be in range 0 <= keycode < 16"

def ofNat (n : Nat) : Except Error Key :=
  if h : n < count then .ok ⟨n, h⟩ else .error .outOfRange

/-- The key as logs show it, as in `ka`. -/
def text (k : Key) : String := String.ofList ['k', Text.Hex.lowerDigit k]

/-- The name of the key, as in `KeyA`. -/
def name (k : Key) : String := String.ofList ['K', 'e', 'y', Text.Hex.digit k]

theorem mem_all (k : Key) : k ∈ all := List.mem_finRange k

theorem length_all : all.length = 16 := List.length_finRange

/-- Keys stand at the places of their numbers. -/
theorem val_getElem_all (i : Nat) (h : i < all.length) : all[i].val = i :=
  congrArg Fin.val (List.getElem_finRange h)

end Key

/-- Whatever answers whether a key is down. -/
abbrev Keypad := Key → Bool

/-- The keys that are down, key `k` at bit `k`. -/
@[ext]
structure KeySet where
  mask : UInt16
deriving DecidableEq

def Key.bit (k : Key) : UInt16 := 1 <<< UInt16.ofNat k

theorem Key.toBitVec_bit (k : Key) : (Key.bit k).toBitVec = BitVec.twoPow 16 k := by
  revert k
  decide

namespace KeySet

def empty : KeySet := ⟨0⟩

def contains (s : KeySet) (k : Key) : Bool := s.mask.toBitVec.getLsbD k

def set (s : KeySet) (k : Key) (pressed : Bool) : KeySet :=
  if pressed then ⟨s.mask ||| Key.bit k⟩ else ⟨s.mask &&& ~~~Key.bit k⟩

def any (s : KeySet) : Bool := s.mask != 0

def first? (s : KeySet) : Option Key := Key.all.find? s.contains

def ofKeypad (pad : Keypad) : KeySet := Key.all.foldl (fun s k => s.set k (pad k)) empty

theorem contains_empty (k : Key) : empty.contains k = false := by simp [contains, empty]

/-- Setting a key decides that key and no other. -/
theorem contains_set (s : KeySet) (k j : Key) (pressed : Bool) :
    (s.set k pressed).contains j = if j = k then pressed else s.contains j := by
  have hj := j.isLt
  by_cases h : j = k
  · subst h
    cases pressed <;> simp [set, contains, Key.toBitVec_bit]
  · have hv : ¬ (j : Nat) = k := fun e => h (Fin.ext e)
    cases pressed <;> simp [set, contains, Key.toBitVec_bit, h, hv]

/-- Two sets with the same keys are equal. -/
theorem eq_of_contains {s t : KeySet} (h : ∀ k, s.contains k = t.contains k) : s = t := by
  apply KeySet.ext
  apply UInt16.toBitVec_inj.mp
  exact BitVec.eq_of_getLsbD_eq fun i hi => h ⟨i, hi⟩

/-- Sampling keys decides each of them, and leaves what already agrees. -/
theorem contains_foldl (pad : Keypad) (keys : List Key) (s : KeySet) (j : Key)
    (h : j ∈ keys ∨ s.contains j = pad j) :
    (keys.foldl (fun s k => s.set k (pad k)) s).contains j = pad j := by
  induction keys generalizing s with
  | nil => exact h.resolve_left List.not_mem_nil
  | cons k rest ih =>
    rw [List.foldl_cons]
    apply ih
    rw [contains_set]
    by_cases hj : j = k
    · exact .inr (by rw [if_pos hj, hj])
    · rw [if_neg hj]
      exact h.imp_left fun hm => (List.mem_cons.mp hm).resolve_left hj

/-- A sampled keypad holds the keys that are down. -/
theorem contains_ofKeypad (pad : Keypad) (k : Key) : (ofKeypad pad).contains k = pad k := by
  exact contains_foldl pad Key.all empty k (.inl (Key.mem_all k))

/-- No first key is found where no key is down. -/
theorem first?_eq_none_iff (s : KeySet) : s.first? = none ↔ ∀ k, s.contains k = false := by
  rw [first?, List.find?_eq_none]
  constructor
  · intro h k
    exact Bool.eq_false_iff.mpr (h k (Key.mem_all k))
  · intro h k _
    rw [h k]
    exact Bool.false_ne_true

/-- The first key is the least one that is down. -/
theorem first?_eq_some_iff (s : KeySet) (k : Key) :
    s.first? = some k ↔ s.contains k = true ∧ ∀ j < k, s.contains j = false := by
  rw [first?, List.find?_eq_some_iff_getElem]
  apply and_congr_right
  intro _
  constructor
  · rintro ⟨i, hi, hk, hbefore⟩ j hj
    have hij : j.val < i := by
      rw [← Key.val_getElem_all i hi, hk]
      exact hj
    have hget : Key.all[j.val] = j := Fin.ext (Key.val_getElem_all j.val (by omega))
    have hnot := hbefore j.val hij
    rw [hget] at hnot
    simpa using hnot
  · intro hleast
    have hk : k.val < Key.all.length := by rw [Key.length_all]; exact k.isLt
    refine ⟨k.val, hk, Fin.ext (Key.val_getElem_all k.val hk), ?_⟩
    intro j hj
    have hjk : Key.all[j] < k := by
      rw [Fin.lt_def, Key.val_getElem_all]
      exact hj
    rw [hleast _ hjk]
    rfl

theorem first?_ofKeypad_eq_none_iff (pad : Keypad) :
    (ofKeypad pad).first? = none ↔ ∀ k, pad k = false := by
  simp only [first?_eq_none_iff, contains_ofKeypad]

theorem first?_ofKeypad_eq_some_iff (pad : Keypad) (k : Key) :
    (ofKeypad pad).first? = some k ↔ pad k = true ∧ ∀ j < k, pad j = false := by
  simp only [first?_eq_some_iff, contains_ofKeypad]

/-- No keypad without a key down is sampled to more than the empty set. -/
theorem ofKeypad_eq_empty {pad : Keypad} (h : ∀ k, pad k = false) : ofKeypad pad = empty := by
  apply eq_of_contains
  intro k
  rw [contains_ofKeypad, contains_empty, h k]

end KeySet

end ChipEight

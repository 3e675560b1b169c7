import ChipEight.InPlace.Keys
import ChipEight.Proofs.Course
import ChipEight.Proofs.KeyWait

/-!
# Keypads and words of keys

A step copies a keypad into one word before anything else. No end of the step touches that word, and
nothing else of the keypad is looked at, so all devices with the same sixteen answers are alike to
it. A word that is changed key by key holds each key as its last change left it, or as it stood at
the start, and what is asked of it by masks and by counting zero bits are the questions of the set.
-/
namespace ChipEight

namespace InPlace

variable {word : UInt16}

/-- The mask of a key meets a word where the word has its bit. -/
theorem pressed_eq_getLsbD (word : UInt16) (k : Key) :
    pressed word k = word.toBitVec.getLsbD k := by
  have hmeet : (word &&& k.bit).toBitVec =
      if word.toBitVec.getLsbD k = true then BitVec.twoPow 16 k else 0#16 := by
    rw [UInt16.toBitVec_and, Key.toBitVec_bit, BitVec.and_twoPow]
  unfold pressed
  cases hbit : word.toBitVec.getLsbD k with
  | true =>
    have hmask : ∀ j : Key, BitVec.twoPow 16 j ≠ 0#16 := by decide
    rw [hbit, if_pos rfl] at hmeet
    exact bne_iff_ne.mpr fun hzero => hmask k (hmeet.symm.trans (congrArg UInt16.toBitVec hzero))
  | false =>
    rw [hbit, if_neg Bool.false_ne_true] at hmeet
    have hzero : word &&& k.bit = 0 := UInt16.toBitVec_inj.mp hmeet
    rw [hzero]
    rfl

theorem numberPressed_iff {number : UInt8} :
    numberPressed word number = true ↔
      ∃ h : number.toNat < 16, pressed word ⟨number.toNat, h⟩ = true := by
  unfold numberPressed Key.ofNat
  by_cases h : number.toNat < Key.count
  · rw [dif_pos h]
    exact ⟨fun hdown => ⟨h, hdown⟩, fun hdown => hdown.2⟩
  · rw [dif_neg h]
    exact iff_of_false Bool.false_ne_true fun hdown => h hdown.1

theorem toBitVec_ne_zero (h : word ≠ 0) : word.toBitVec ≠ 0#16 :=
  fun hzero => h (UInt16.toBitVec_inj.mp hzero)

theorem trailingZeros_lt (h : word ≠ 0) : trailingZeros word < 16 :=
  BitVec.ctz_lt_iff_ne_zero.mpr (toBitVec_ne_zero h)

/-- The number of the lowest set bit is that of a key. -/
theorem firstPressed_of_ne_zero (h : word ≠ 0) :
    firstPressed word = some ⟨trailingZeros word, trailingZeros_lt h⟩ := by
  have hlt := trailingZeros_lt h
  have hnumber : (UInt8.ofNat (trailingZeros word)).toNat = trailingZeros word := by
    rw [UInt8.toNat_ofNat']
    exact Nat.mod_eq_of_lt (by omega)
  have hkey : Key.ofNat (trailingZeros word) = .ok ⟨trailingZeros word, hlt⟩ := dif_pos hlt
  rw [firstPressed, if_pos (bne_iff_ne.mpr h), hnumber, hkey]
  rfl

/-- The key of the lowest set bit is the least one in the set. -/
theorem firstPressed_eq_first? (keys : KeySet) : firstPressed keys.mask = keys.first? := by
  by_cases h : keys.mask = 0
  · have hnone : keys.first? = none := by
      rw [KeySet.first?_eq_none_iff]
      intro k
      rw [KeySet.contains, h]
      exact BitVec.getLsbD_zero
    rw [hnone, h]
    rfl
  · have hsome : keys.first? = some ⟨trailingZeros keys.mask, trailingZeros_lt h⟩ := by
      rw [KeySet.first?_eq_some_iff]
      refine ⟨BitVec.getLsbD_true_ctz_of_ne_zero (toBitVec_ne_zero h), ?_⟩
      intro j hj
      exact BitVec.getLsbD_false_of_lt_ctz hj
    rw [hsome, firstPressed_of_ne_zero h]

/-- The word of a device has the answer for each key at its bit. -/
theorem pressed_snapshot {Device : Type} [Keyed Device] (device : Device) (k : Key) :
    pressed (snapshot device).mask k = Keyed.isDown device k := by
  rw [pressed_eq_getLsbD]
  exact KeySet.contains_ofKeypad (Keyed.isDown device) k

end InPlace

namespace Machine

open Headless (Script)
open InPlace

variable {m : Machine} {pad : Keypad} {o : Opcode}

/-- However a step ends, it leaves the keys as it sampled them. -/
theorem keys_step (m : Machine) (pad : Keypad) :
    (m.step pad).machine.processor.keys = .ofKeypad pad := by
  have hs := m.stepped pad
  generalize (m.step pad).result = result at hs
  generalize (m.step pad).machine = n at hs ⊢
  cases hs with
  | unfetched | unknown | refused => rfl
  | executed _ _ hexecute => exact (Processor.leaves_execute hexecute).keys

/-- How a step on the word `o` reads the keys. -/
structure ReadsKeys (m : Machine) (pad : Keypad) (o : Opcode) : Prop where
  skipIfDown : o.family.val = 0xE → o.nn.toNat = 0x9E →
    (m.step pad).result = .ok .next ∧
      (m.processor.KeyDown pad o.x → m.MovesBy pad 4) ∧
      (¬ m.processor.KeyDown pad o.x → m.MovesBy pad 2)
  skipIfUp : o.family.val = 0xE → o.nn.toNat = 0xA1 →
    (m.step pad).result = .ok .next ∧
      (m.processor.KeyDown pad o.x → m.MovesBy pad 2) ∧
      (¬ m.processor.KeyDown pad o.x → m.MovesBy pad 4)
  /-- A number that names no key is that of a key that is up. -/
  skipBeyond : o.family.val = 0xE → o.nn.toNat = 0xA1 → 16 ≤ (m.processor.v o.x).toNat →
    m.MovesBy pad 4
  awaitKey : o.Transfers 0x0A →
    (∃ k, pad k = true ∧ (∀ j < k, pad j = false) ∧
        (m.step pad).result = .ok .next ∧ (m.step pad).machine = m.receive pad o.x k) ∨
      ((∀ k, pad k = false) ∧
        (m.step pad).result = .ok .awaitKey ∧ (m.step pad).machine = m.stall pad)

theorem not_keyDown_of_le {p : Processor} {x : Register} (h : 16 ≤ (p.v x).toNat) :
    ¬ p.KeyDown pad x := by
  intro hdown
  obtain ⟨key, hnumber, -⟩ := hdown
  have := key.isLt
  omega

/-- A skip on a key, of either polarity. -/
theorem moves_of_keySkip (wanted : Bool) (hfetch : m.processor.opcode? = some o)
    (hstands : o.StandsFor (.skip (.keyDown o.x) wanted)) (pad : Keypad) :
    (m.step pad).result = .ok .next ∧
      (m.processor.KeyDown pad o.x → m.MovesBy pad (if wanted then 4 else 2)) ∧
      (¬ m.processor.KeyDown pad o.x → m.MovesBy pad (if wanted then 2 else 4)) := by
  obtain ⟨hresult, hmoves⟩ := moves_of_skip hfetch hstands pad
  have hholds : (m.sample pad).processor.holds (.keyDown o.x) = true ↔
      m.processor.KeyDown pad o.x := Processor.holds_keyDown_iff
  refine ⟨hresult, ?_, ?_⟩
  · intro hdown
    rw [hholds.mpr hdown] at hmoves
    cases wanted <;> exact hmoves
  · intro hup
    rw [Bool.eq_false_iff.mpr (mt hholds.mp hup)] at hmoves
    cases wanted <;> exact hmoves

theorem readsKeys (hfetch : m.processor.opcode? = some o) (pad : Keypad) :
    m.ReadsKeys pad o where
  skipIfDown hfamily hbyte := moves_of_keySkip true hfetch ⟨hfamily, hbyte, rfl⟩ pad
  skipIfUp hfamily hbyte := moves_of_keySkip false hfetch ⟨hfamily, hbyte, rfl⟩ pad
  skipBeyond hfamily hbyte hbeyond := by
    have hskip := moves_of_keySkip false hfetch ⟨hfamily, hbyte, rfl⟩ pad
    exact hskip.2.2 (not_keyDown_of_le hbeyond)
  awaitKey hword := by
    have hdecode := Opcode.decode?_eq_awaitKey_iff.mpr ⟨hword.1, hword.2, rfl⟩
    exact step_at_awaitKey_cases hfetch hdecode pad

theorem step_snapshot {Device : Type} [Keyed Device] (m : Machine) (device : Device) :
    m.step (Keyed.isDown (snapshot device)) = m.step (Keyed.isDown device) :=
  congrArg m.step (funext (pressed_snapshot device))

/-- However a step ends, each bit of the word that it leaves is what the device answers for that
key. Nothing else of the device counts: the step is the same for the word itself, for an array or a
script that holds the answers, and for every device that gives them. On this word a skip on a key
goes by the key that the register numbers, which is up if the number is above 15, and a wait for a
key ends with the least key that is down, or goes on if there is none. -/
theorem step_reads_snapshot {Device : Type} [Keyed Device] (m : Machine) (device : Device) :
    (m.step (Keyed.isDown device)).machine.processor.keys = snapshot device ∧
    (∀ k, pressed (snapshot device).mask k = Keyed.isDown device k) ∧
    (∀ number, numberPressed (snapshot device).mask number = true ↔
      ∃ h : number.toNat < 16, Keyed.isDown device ⟨number.toNat, h⟩ = true) ∧
    (∀ k, firstPressed (snapshot device).mask = some k ↔
      Keyed.isDown device k = true ∧ ∀ j < k, Keyed.isDown device j = false) ∧
    (firstPressed (snapshot device).mask = none ↔ ∀ k, Keyed.isDown device k = false) ∧
    m.step (Keyed.isDown (snapshot device)) = m.step (Keyed.isDown device) ∧
    m.step (Keyed.isDown (Vector.ofFn (Keyed.isDown device))) = m.step (Keyed.isDown device) ∧
    (∀ pending, m.step (Keyed.isDown (Script.mk (snapshot device) pending)) =
      m.step (Keyed.isDown device)) ∧
    (∀ (Other : Type) [Keyed Other] (other : Other),
      (∀ k, Keyed.isDown other k = Keyed.isDown device k) →
        snapshot other = snapshot device ∧
          m.step (Keyed.isDown other) = m.step (Keyed.isDown device)) ∧
    ∀ o, m.processor.opcode? = some o → m.ReadsKeys (Keyed.isDown device) o := by
  have hfirst := firstPressed_eq_first? (snapshot device)
  have harray : Keyed.isDown (Vector.ofFn (Keyed.isDown device)) = Keyed.isDown device :=
    funext fun k => Vector.getElem_ofFn k.isLt
  refine ⟨keys_step m _, pressed_snapshot device, ?_, ?_, ?_, step_snapshot m device,
    congrArg m.step harray, fun _ => step_snapshot m device, ?_, ?_⟩
  · intro number
    simp only [numberPressed_iff, pressed_snapshot]
  · intro k
    rw [hfirst]
    exact KeySet.first?_ofKeypad_eq_some_iff _ k
  · rw [hfirst]
    exact KeySet.first?_ofKeypad_eq_none_iff _
  · intro Other _ other hsame
    have hanswers : Keyed.isDown other = Keyed.isDown device := funext hsame
    exact ⟨congrArg KeySet.ofKeypad hanswers, congrArg m.step hanswers⟩
  · intro o hfetch
    exact readsKeys hfetch _

/-- The keys 5 and 9 as an array and as a word. At an instruction that waits for a key, both lead to
the same machine, with the number 5 in the register. -/
theorem array_and_word_alike :
    let array : Vector Bool 16 := .ofFn fun k => decide (k = 5 ∨ k = 9)
    let word : KeySet := ⟨0x0220⟩
    (∀ k, Keyed.isDown word k = Keyed.isDown array k) ∧
    (loaded [0xF3, 0x0A]).step (Keyed.isDown word) =
      (loaded [0xF3, 0x0A]).step (Keyed.isDown array) ∧
    ((loaded [0xF3, 0x0A]).step (Keyed.isDown array)).machine =
      (loaded [0xF3, 0x0A]).receive (Keyed.isDown array) 3 5 := by
  intro array word
  have hanswers : ∀ k, Keyed.isDown word k = Keyed.isDown array k := by decide
  have hfetch := first_opcode?_loaded [0xF3, 0x0A] (by decide) (by decide)
  obtain ⟨-, -, -, -, -, -, -, -, hother, hreads⟩ := step_reads_snapshot (loaded [0xF3, 0x0A]) array
  refine ⟨hanswers, (hother KeySet word hanswers).2, ?_⟩
  obtain ⟨k, hdown, hleast, -, hmachine⟩ | ⟨hup, -⟩ :=
    (hreads _ hfetch).awaitKey ⟨by decide, by decide⟩
  · have hfive : ∀ k, Keyed.isDown array k = true →
        (∀ j < k, Keyed.isDown array j = false) → k = 5 := by decide
    rw [hmachine, hfive k hdown hleast]
    rfl
  · exact absurd (hup 5) (by decide)

end Machine

namespace KeySet

open InPlace

/-- A key and whether it goes down. -/
abbrev Change := Key × Bool

/-- Changes one after another. -/
def changeAll (s : KeySet) (changes : List Change) : KeySet :=
  changes.foldl (fun s c => s.set c.1 c.2) s

variable {s : KeySet} {k : Key}

theorem changeAll_append (s : KeySet) (before after : List Change) :
    s.changeAll (before ++ after) = (s.changeAll before).changeAll after :=
  List.foldl_append

/-- Keys without a change stay as they are. -/
theorem contains_changeAll_of_unchanged {changes : List Change} (h : ∀ c ∈ changes, c.1 ≠ k) :
    (s.changeAll changes).contains k = s.contains k := by
  induction changes generalizing s with
  | nil => rfl
  | cons c rest ih =>
    obtain ⟨hne, hrest⟩ := List.forall_mem_cons.mp h
    calc (s.changeAll (c :: rest)).contains k
        = (s.set c.1 c.2).contains k := ih hrest
      _ = s.contains k := by rw [contains_set, if_neg hne.symm]

/-- The last change of a key decides it. -/
theorem contains_changeAll_of_last (s : KeySet) (before : List Change) {after : List Change}
    (down : Bool) (h : ∀ c ∈ after, c.1 ≠ k) :
    (s.changeAll (before ++ (k, down) :: after)).contains k = down := by
  rw [changeAll_append]
  calc ((s.changeAll before).changeAll ((k, down) :: after)).contains k
      = ((s.changeAll before).set k down).contains k := contains_changeAll_of_unchanged h
    _ = down := by rw [contains_set, if_pos rfl]

theorem pressed_mask (s : KeySet) (k : Key) : pressed s.mask k = s.contains k :=
  pressed_eq_getLsbD s.mask k

theorem any_eq_false_iff (s : KeySet) : s.any = false ↔ ∀ k, s.contains k = false := by
  have hzero : s.any = false ↔ s.mask = 0 := by
    unfold any
    rw [bne_eq_false_iff_eq]
  rw [hzero]
  constructor
  · intro hmask k
    have hempty : s = empty := KeySet.ext hmask
    rw [hempty, contains_empty]
  · intro hup
    have hempty : s = empty := eq_of_contains fun k => by rw [hup k, contains_empty]
    exact congrArg mask hempty

/-- How a word answers after changes of the word `start`. -/
structure Follows (start : UInt16) (changes : List Change) (s : KeySet) : Prop where
  changed : ∀ before k down after, changes = before ++ (k, down) :: after →
    (∀ c ∈ after, c.1 ≠ k) → pressed s.mask k = down
  kept : ∀ k, (∀ c ∈ changes, c.1 ≠ k) → pressed s.mask k = start.toNat.testBit k
  /-- As a keypad the word gives the same answers. -/
  isDown : ∀ k, Keyed.isDown s k = pressed s.mask k
  any : s.any = true ↔ ∃ k, pressed s.mask k = true
  first : ∀ k, firstPressed s.mask = some k ↔
    pressed s.mask k = true ∧ ∀ j < k, pressed s.mask j = false
  noFirst : firstPressed s.mask = none ↔ s.any = false
  /-- The number of the lowest bit is always that of a key. -/
  numbered : s.any = true → ∃ k, Key.ofNat (UInt8.ofNat (trailingZeros s.mask)).toNat = .ok k
  snapshot : snapshot s = s

theorem snapshot_self (s : KeySet) : InPlace.snapshot s = s := by
  apply eq_of_contains
  intro k
  rw [← pressed_mask, pressed_snapshot]
  exact pressed_mask s k

/-- The lowest set bit of a word that is not zero has the number of a key. -/
theorem exists_ofNat_trailingZeros (h : s.any = true) :
    ∃ k, Key.ofNat (UInt8.ofNat (trailingZeros s.mask)).toNat = .ok k := by
  have hmask : s.mask ≠ 0 := bne_iff_ne.mp h
  have hfirst := firstPressed_of_ne_zero hmask
  rw [firstPressed, if_pos (bne_iff_ne.mpr hmask)] at hfirst
  cases hkey : Key.ofNat (UInt8.ofNat (trailingZeros s.mask)).toNat with
  | ok k => exact ⟨k, rfl⟩
  | error cause =>
    rw [hkey] at hfirst
    cases hfirst

/-- Whatever word it starts with and whatever changes are made, a word of keys is a set of keys:
each key is as its last change left it, or as its bit stood at the start; there is any key exactly
where some key is down, and the first one is the least of these, found by its number without fail;
sampled as a keypad, the word is the same again. -/
theorem follows_changeAll (start : UInt16) (changes : List Change) :
    Follows start changes (KeySet.changeAll ⟨start⟩ changes) := by
  generalize hs : KeySet.changeAll ⟨start⟩ changes = s
  have hnone : firstPressed s.mask = none ↔ s.any = false := by
    rw [firstPressed_eq_first?, first?_eq_none_iff, any_eq_false_iff]
  constructor
  case changed =>
    rintro before k down after rfl hlast
    rw [pressed_mask, ← hs]
    exact contains_changeAll_of_last _ before down hlast
  case kept =>
    intro k hkept
    rw [pressed_mask, ← hs]
    exact contains_changeAll_of_unchanged hkept
  case isDown => exact fun k => rfl
  case any =>
    simp only [pressed_mask]
    rw [← Bool.not_eq_false, any_eq_false_iff, Classical.not_forall]
    simp only [Bool.not_eq_false]
  case first =>
    intro k
    simp only [pressed_mask]
    rw [firstPressed_eq_first?]
    exact first?_eq_some_iff s k
  case noFirst => exact hnone
  case numbered => exact exists_ofNat_trailingZeros
  case snapshot => exact snapshot_self s

/-- The top key goes up and down, and one that is up already goes up again. -/
example : (KeySet.changeAll ⟨0x8001⟩ [(15, false), (3, false), (15, true), (0, false)]).mask =
    0x8000 := by decide

end KeySet

end ChipEight

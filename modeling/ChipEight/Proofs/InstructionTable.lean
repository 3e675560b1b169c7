import ChipEight.Proofs.Refusal
import ChipEight.Proofs.Request
import ChipEight.Proofs.Step

/-!
# The instruction table

The words of the machine's instruction set, as digits that are fixed and digits that are operands.
The decoder accepts them and, in family 5, all words that differ from one of them in the last digit.
-/
namespace ChipEight

namespace Opcode

/-- The digits of a word: a fixed one, or none for an operand. -/
structure Pattern where
  family : Nat
  x : Option Nat
  y : Option Nat
  n : Option Nat

def Fits (fixed : Option Nat) (digit : Fin 16) : Prop := ∀ d ∈ fixed, digit.val = d

@[simp] theorem fits_none (digit : Fin 16) : Fits none digit ↔ True := by
  simp [Fits]

@[simp] theorem fits_some (d : Nat) (digit : Fin 16) : Fits (some d) digit ↔ digit.val = d := by
  simp [Fits]

def Pattern.Matches (p : Pattern) (o : Opcode) : Prop :=
  o.family.val = p.family ∧ Fits p.x o.x ∧ Fits p.y o.y ∧ Fits p.n o.n

instance (fixed : Option Nat) (digit : Fin 16) : Decidable (Fits fixed digit) :=
  inferInstanceAs (Decidable (∀ d ∈ fixed, digit.val = d))

instance (p : Pattern) (o : Opcode) : Decidable (p.Matches o) :=
  inferInstanceAs (Decidable (o.family.val = p.family ∧ _ ∧ _ ∧ _))

def table : List Pattern := [
  ⟨0x0, some 0x0, some 0xE, some 0x0⟩,
  ⟨0x0, some 0x0, some 0xE, some 0xE⟩,
  ⟨0x1, none, none, none⟩,
  ⟨0x2, none, none, none⟩,
  ⟨0x3, none, none, none⟩,
  ⟨0x4, none, none, none⟩,
  ⟨0x5, none, none, some 0x0⟩,
  ⟨0x6, none, none, none⟩,
  ⟨0x7, none, none, none⟩,
  ⟨0x8, none, none, some 0x0⟩,
  ⟨0x8, none, none, some 0x1⟩,
  ⟨0x8, none, none, some 0x2⟩,
  ⟨0x8, none, none, some 0x3⟩,
  ⟨0x8, none, none, some 0x4⟩,
  ⟨0x8, none, none, some 0x5⟩,
  ⟨0x8, none, none, some 0x6⟩,
  ⟨0x8, none, none, some 0x7⟩,
  ⟨0x8, none, none, some 0xE⟩,
  ⟨0x9, none, none, some 0x0⟩,
  ⟨0xA, none, none, none⟩,
  ⟨0xB, none, none, none⟩,
  ⟨0xC, none, none, none⟩,
  ⟨0xD, none, none, none⟩,
  ⟨0xE, none, some 0x9, some 0xE⟩,
  ⟨0xE, none, some 0xA, some 0x1⟩,
  ⟨0xF, none, some 0x0, some 0x7⟩,
  ⟨0xF, none, some 0x0, some 0xA⟩,
  ⟨0xF, none, some 0x1, some 0x5⟩,
  ⟨0xF, none, some 0x1, some 0x8⟩,
  ⟨0xF, none, some 0x1, some 0xE⟩,
  ⟨0xF, none, some 0x2, some 0x9⟩,
  ⟨0xF, none, some 0x3, some 0x3⟩,
  ⟨0xF, none, some 0x5, some 0x5⟩,
  ⟨0xF, none, some 0x6, some 0x5⟩]

def InTable (o : Opcode) : Prop := ∃ p ∈ table, p.Matches o

instance (o : Opcode) : Decidable o.InTable :=
  inferInstanceAs (Decidable (∃ p ∈ table, p.Matches o))

/-- A word of family 5 whose last digit is not that of its pattern. -/
def Unchecked (o : Opcode) : Prop := o.family.val = 0x5 ∧ o.n.val ≠ 0x0

instance (o : Opcode) : Decidable o.Unchecked :=
  inferInstanceAs (Decidable (o.family.val = 0x5 ∧ _))

/-- The last three digits of the patterns of a family. -/
def operands (f : Nat) : List (Option Nat × Option Nat × Option Nat) :=
  (table.filter fun p => p.family = f).map fun p => (p.x, p.y, p.n)

variable {o : Opcode}

/-- Only the patterns of its own family can match a word. -/
theorem inTable_iff {f : Nat} (hf : o.family.val = f) :
    o.InTable ↔ ∃ d ∈ operands f, Fits d.1 o.x ∧ Fits d.2.1 o.y ∧ Fits d.2.2 o.n := by
  constructor
  · rintro ⟨p, hp, hfamily, hdigits⟩
    have hfamily : p.family = f := by rw [← hfamily, hf]
    refine ⟨(p.x, p.y, p.n), ?_, hdigits⟩
    exact List.mem_map.mpr ⟨p, List.mem_filter.mpr ⟨hp, by simpa using hfamily⟩, rfl⟩
  · rintro ⟨d, hd, hdigits⟩
    obtain ⟨p, hp, rfl⟩ := List.mem_map.mp hd
    obtain ⟨hp, hfamily⟩ := List.mem_filter.mp hp
    refine ⟨p, hp, ?_, hdigits⟩
    rw [hf]
    simpa using (of_decide_eq_true hfamily).symm

section Families

theorem digits_nn (o : Opcode) : o.y.val = o.nn.toNat / 16 ∧ o.n.val = o.nn.toNat % 16 := by
  have hnn := o.toNat_nn
  have hn := o.n.isLt
  constructor
  · omega
  · omega

theorem isSome_system?_iff (hf : o.family.val = 0x0) : o.system?.isSome = true ↔ o.InTable := by
  have hoperands : operands 0x0 =
      [(some 0x0, some 0xE, some 0x0), (some 0x0, some 0xE, some 0xE)] := rfl
  have hdigits := o.toNat_eq_digits
  have hclear : o.word = 0x00E0 ↔ o.toNat = 0xE0 := UInt16.toNat_inj.symm
  have hret : o.word = 0x00EE ↔ o.toNat = 0xEE := UInt16.toNat_inj.symm
  have hy := o.y.isLt
  have hn := o.n.isLt
  rw [inTable_iff hf, hoperands]
  fun_cases system? o with
  | case1 h =>
    have h := hclear.mp h
    simp
    omega
  | case2 _ h =>
    have h := hret.mp h
    simp
    omega
  | case3 hnotClear hnotRet =>
    rw [hclear] at hnotClear
    rw [hret] at hnotRet
    simp
    omega

theorem isSome_operation?_iff (hf : o.family.val = 0x8) :
    o.operation?.isSome = true ↔ o.InTable := by
  have hoperands : operands 0x8 = [0x0, 0x1, 0x2, 0x3, 0x4, 0x5, 0x6, 0x7, 0xE].map
      fun n => (none, none, some n) := rfl
  rw [inTable_iff hf, hoperands]
  fun_cases operation? o with
  | case10 =>
    simp only [imp_false] at *
    simp
    and_intros <;> omega
  | _ h => simp [h]

theorem isSome_keySkip?_iff (hf : o.family.val = 0xE) : o.keySkip?.isSome = true ↔ o.InTable := by
  have hoperands : operands 0xE =
      [(none, some 0x9, some 0xE), (none, some 0xA, some 0x1)] := rfl
  obtain ⟨hy, hn⟩ := o.digits_nn
  rw [inTable_iff hf, hoperands]
  fun_cases keySkip? o with
  | case3 =>
    simp only [imp_false] at *
    simp
    omega
  | _ h => simp [hy, hn, h]

theorem isSome_transfer?_iff (hf : o.family.val = 0xF) : o.transfer?.isSome = true ↔ o.InTable := by
  have hoperands : operands 0xF =
      [(none, some 0x0, some 0x7), (none, some 0x0, some 0xA), (none, some 0x1, some 0x5),
        (none, some 0x1, some 0x8), (none, some 0x1, some 0xE), (none, some 0x2, some 0x9),
        (none, some 0x3, some 0x3), (none, some 0x5, some 0x5), (none, some 0x6, some 0x5)] := rfl
  obtain ⟨hy, hn⟩ := o.digits_nn
  rw [inTable_iff hf, hoperands]
  fun_cases transfer? o with
  | case10 =>
    simp only [imp_false] at *
    simp
    and_intros <;> omega
  | _ h => simp [hy, hn, h]

theorem inTable_of_free {f : Nat} (hf : o.family.val = f)
    (h : operands f = [(none, none, none)]) : o.InTable := by
  rw [inTable_iff hf, h]
  simp

theorem inTable_iff_last {f d : Nat} (hf : o.family.val = f)
    (h : operands f = [(none, none, some d)]) : o.InTable ↔ o.n.val = d := by
  rw [inTable_iff hf, h]
  simp

end Families

/-- The words that decode: the instruction table, and what family 5 does not check. -/
theorem isSome_decode?_iff (o : Opcode) :
    o.decode?.isSome = true ↔ o.InTable ∨ o.Unchecked := by
  have hchecked : ∀ {f : Nat}, o.family.val = f → f ≠ 0x5 → ¬ o.Unchecked := by
    rintro f hf hne ⟨h, _⟩
    omega
  fun_cases decode? o with
  | case1 h => rw [isSome_system?_iff h, or_iff_left (hchecked h (by decide))]
  | case6 h =>
    have htable := inTable_iff_last h rfl
    rw [htable, Unchecked]
    simp only [h, Option.isSome_some, true_iff, true_and]
    exact Decidable.em _
  | case9 h =>
    rw [Option.isSome_map, isSome_operation?_iff h, or_iff_left (hchecked h (by decide))]
  | case10 h hn =>
    have htable := (inTable_iff_last h rfl).mpr hn
    simp [htable]
  | case11 h hn =>
    have htable := inTable_iff_last h rfl
    rw [htable, or_iff_left (hchecked h (by decide))]
    simp [hn]
  | case16 h => rw [isSome_keySkip?_iff h, or_iff_left (hchecked h (by decide))]
  | case17 =>
    have hf : o.family.val = 0xF := by
      have hlt := o.family.isLt
      simp only [imp_false] at *
      omega
    rw [isSome_transfer?_iff hf, or_iff_left (hchecked hf (by decide))]
  | _ h =>
    have htable := inTable_of_free h rfl
    simp [htable]

end Opcode

namespace Machine

/-- A step finds no word unknown but the one that it fetched and could not decode. -/
theorem unknown_iff_decode? {m : Machine} {pad : Keypad} {w : Opcode}
    (hfetch : m.processor.opcode? = some w) (a : UInt16) (o : Opcode) :
    (m.step pad).result = .error ⟨a, .unknownOpcode o⟩ ↔
      a = m.processor.pc ∧ o = w ∧ w.decode? = none := by
  cases hdecode : w.decode? with
  | none =>
    rw [(Stepped.unknown hfetch hdecode).eq.1]
    constructor
    · intro h
      cases h
      exact ⟨rfl, rfl, rfl⟩
    · rintro ⟨rfl, rfl, -⟩
      rfl
  | some i =>
    rw [step_eq_error_iff_execute hfetch hdecode]
    refine iff_of_false ?_ fun h => nomatch h.2.2
    rintro ⟨-, hexecute⟩
    exact absurd rfl ((Processor.refusal_execute hexecute).ne_unknownOpcode o)

/-- What family 5 does not check is carried out as the comparison that it differs from. -/
theorem step_of_unchecked {m : Machine} (pad : Keypad) {w : Opcode}
    (hfetch : m.processor.opcode? = some w) (hw : w.Unchecked) :
    (m.step pad).result = .ok .next := by
  have hdecode : w.decode? = some (.skip (.sameByte w.x w.y) true) := by
    simp only [Opcode.decode?, hw.1]
  exact (step_of_execute hfetch hdecode rfl).2

/-- A word is found unknown if and only if it is outside the instruction table, unless it is a word
of family 5 that differs from the table in the last digit: such a word is carried out. -/
theorem step_unknown_iff {m : Machine} (hpc : m.processor.pc.toNat ≤ 0xFFE) (pad : Keypad) :
    ∃ w, m.processor.opcode? = some w ∧
      (∀ a o, (m.step pad).result = .error ⟨a, .unknownOpcode o⟩ → a = m.processor.pc ∧ o = w) ∧
      (((m.step pad).result = .error ⟨m.processor.pc, .unknownOpcode w⟩ ↔ ¬ w.InTable) ↔
        ¬ w.Unchecked) ∧
      (w.Unchecked → (m.step pad).result = .ok .next) := by
  obtain ⟨w, hfetch⟩ : ∃ w, m.processor.opcode? = some w :=
    ⟨_, Memory.opcode?_of_le _ (by omega)⟩
  have hunknown : (m.step pad).result = .error ⟨m.processor.pc, .unknownOpcode w⟩ ↔
      ¬ (w.InTable ∨ w.Unchecked) := by
    rw [unknown_iff_decode? hfetch, ← w.isSome_decode?_iff]
    simp
  have hnotBoth : w.Unchecked → ¬ w.InTable := by
    rintro ⟨hf, hn⟩
    rw [Opcode.inTable_iff_last hf rfl]
    exact hn
  refine ⟨w, hfetch, ?_, ?_, step_of_unchecked pad hfetch⟩
  · intro a o h
    obtain ⟨ha, ho, _⟩ := (unknown_iff_decode? hfetch a o).mp h
    exact ⟨ha, ho⟩
  · rw [hunknown, not_or]
    constructor
    · intro hlaw hw
      exact (hlaw.mpr (hnotBoth hw)).2 hw
    · intro hw
      exact and_iff_left hw

theorem loaded_word_unknown :
    ((loaded [0x90, 0x01]).step fun _ => false).result =
      .error ⟨0x200, .unknownOpcode ⟨0x9001⟩⟩ := by
  have hpc : (loaded [0x90, 0x01]).processor.pc = 0x200 := pc_loaded (by decide)
  have hword : (loaded [0x90, 0x01]).processor.opcode? = some ⟨0x9001⟩ := by
    rw [Processor.opcode?, hpc]
    exact opcode?_loaded (i := 0) (by decide) (by decide)
  obtain ⟨w, hfetch, _, hlaw, _⟩ :=
    step_unknown_iff (m := loaded [0x90, 0x01]) (by rw [hpc]; decide) fun _ => false
  rw [hword] at hfetch
  cases hfetch
  rw [hpc] at hlaw
  exact (hlaw.mpr (by decide)).mpr (by decide)

/-- The law fails at a comparison whose last digit is 1. -/
theorem unchecked_word_accepted :
    (loaded [0x50, 0x11]).Reachable ∧ (loaded [0x50, 0x11]).processor.pc = 0x200 ∧
      (loaded [0x50, 0x11]).processor.opcode? = some ⟨0x5011⟩ ∧
      ¬ (((loaded [0x50, 0x11]).step fun _ => false).result =
        .error ⟨0x200, .unknownOpcode ⟨0x5011⟩⟩ ↔ ¬ Opcode.InTable ⟨0x5011⟩) := by
  have hpc : (loaded [0x50, 0x11]).processor.pc = 0x200 := pc_loaded (by decide)
  have hword : (loaded [0x50, 0x11]).processor.opcode? = some ⟨0x5011⟩ := by
    rw [Processor.opcode?, hpc]
    exact opcode?_loaded (i := 0) (by decide) (by decide)
  refine ⟨reachable_loaded _, hpc, hword, ?_⟩
  rw [step_of_unchecked _ hword (by decide)]
  intro h
  cases h.mpr (by decide)

end Machine

end ChipEight

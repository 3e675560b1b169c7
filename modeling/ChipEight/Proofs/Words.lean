import ChipEight.Instruction.Decode

/-!
# Words of an instruction

Which words stand for an instruction, where the decoder is read backwards: from the instruction to
the digits of its word.
-/
namespace ChipEight

/-- The last digit of the words of an operation. -/
def Operation.digit : Operation → Nat
  | .copy => 0x0
  | .or => 0x1
  | .and => 0x2
  | .xor => 0x3
  | .add => 0x4
  | .subtract => 0x5
  | .shiftRight => 0x6
  | .subtractFrom => 0x7
  | .shiftLeft => 0xE

namespace Opcode

/-- The word is one of family F with the given low byte. -/
def Transfers (o : Opcode) (byte : Nat) : Prop := o.family.val = 0xF ∧ o.nn.toNat = byte

/-- The digits by which a word stands for an instruction. In family 5 the last digit is free. -/
def StandsFor (o : Opcode) : Instruction → Prop
  | .clear => o.word = 0x00E0
  | .ret => o.word = 0x00EE
  | .jump target => o.family.val = 0x1 ∧ o.nnn = target
  | .call target => o.family.val = 0x2 ∧ o.nnn = target
  | .skip (.holdsByte x byte) true => o.family.val = 0x3 ∧ o.x = x ∧ o.nn = byte
  | .skip (.holdsByte x byte) false => o.family.val = 0x4 ∧ o.x = x ∧ o.nn = byte
  | .skip (.sameByte x y) true => o.family.val = 0x5 ∧ o.x = x ∧ o.y = y
  | .skip (.sameByte x y) false => o.family.val = 0x9 ∧ o.n.val = 0x0 ∧ o.x = x ∧ o.y = y
  | .skip (.keyDown x) true => o.family.val = 0xE ∧ o.nn.toNat = 0x9E ∧ o.x = x
  | .skip (.keyDown x) false => o.family.val = 0xE ∧ o.nn.toNat = 0xA1 ∧ o.x = x
  | .setByte x byte => o.family.val = 0x6 ∧ o.x = x ∧ o.nn = byte
  | .addByte x byte => o.family.val = 0x7 ∧ o.x = x ∧ o.nn = byte
  | .operate operation x y =>
    o.family.val = 0x8 ∧ o.n.val = operation.digit ∧ o.x = x ∧ o.y = y
  | .setIndex target => o.family.val = 0xA ∧ o.nnn = target
  | .jumpFrom target => o.family.val = 0xB ∧ o.nnn = target
  | .random x mask => o.family.val = 0xC ∧ o.x = x ∧ o.nn = mask
  | .draw x y rows => o.family.val = 0xD ∧ o.x = x ∧ o.y = y ∧ o.n = rows
  | .readDelay x => o.Transfers 0x07 ∧ o.x = x
  | .awaitKey x => o.Transfers 0x0A ∧ o.x = x
  | .setDelay x => o.Transfers 0x15 ∧ o.x = x
  | .setSound x => o.Transfers 0x18 ∧ o.x = x
  | .addIndex x => o.Transfers 0x1E ∧ o.x = x
  | .glyph x => o.Transfers 0x29 ∧ o.x = x
  | .decimal x => o.Transfers 0x33 ∧ o.x = x
  | .store x => o.Transfers 0x55 ∧ o.x = x
  | .load x => o.Transfers 0x65 ∧ o.x = x

variable {o : Opcode} {i : Instruction}

theorem operation?_eq_some_iff {operation : Operation} :
    o.operation? = some operation ↔ o.n.val = operation.digit := by
  constructor
  · fun_cases operation? o with
    | case10 => exact fun h => nomatch h
    | _ hdigit =>
      intro h
      cases h
      exact hdigit
  · intro hdigit
    cases operation <;> simp only [operation?, hdigit, Operation.digit]

theorem standsFor_of_system? (h : o.system? = some i) : o.StandsFor i := by
  revert h
  fun_cases system? o with
  | case3 => exact fun h => nomatch h
  | _ =>
    intro h
    cases h
    assumption

theorem standsFor_of_keySkip? (hfamily : o.family.val = 0xE) (h : o.keySkip? = some i) :
    o.StandsFor i := by
  revert h
  fun_cases keySkip? o with
  | case3 => exact fun h => nomatch h
  | _ hbyte =>
    intro h
    cases h
    exact ⟨hfamily, hbyte, rfl⟩

theorem standsFor_of_transfer? (hfamily : o.family.val = 0xF) (h : o.transfer? = some i) :
    o.StandsFor i := by
  revert h
  fun_cases transfer? o with
  | case10 => exact fun h => nomatch h
  | _ hbyte =>
    intro h
    cases h
    exact ⟨⟨hfamily, hbyte⟩, rfl⟩

theorem standsFor_of_decode? (h : o.decode? = some i) : o.StandsFor i := by
  revert h
  fun_cases decode? o with
  | case1 => exact standsFor_of_system?
  | case9 hfamily =>
    intro h
    obtain ⟨operation, hoperation, rfl⟩ := Option.map_eq_some_iff.mp h
    exact ⟨hfamily, operation?_eq_some_iff.mp hoperation, rfl, rfl⟩
  | case10 hfamily hlast =>
    intro h
    cases h
    exact ⟨hfamily, hlast, rfl, rfl⟩
  | case11 => exact fun h => nomatch h
  | case16 hfamily => exact standsFor_of_keySkip? hfamily
  | case17 =>
    have hlt := o.family.isLt
    have hfamily : o.family.val = 0xF := by
      simp only [imp_false] at *
      omega
    exact standsFor_of_transfer? hfamily
  | _ hfamily =>
    intro h
    cases h
    simp only [StandsFor, hfamily, and_self]

theorem decode?_of_standsFor (h : o.StandsFor i) : o.decode? = some i := by
  cases i with
  | clear =>
    rw [show o = ⟨0x00E0⟩ from Opcode.ext h]
    rfl
  | ret =>
    rw [show o = ⟨0x00EE⟩ from Opcode.ext h]
    rfl
  | skip condition wanted =>
    cases condition with
    | holdsByte =>
      cases wanted
      all_goals
        obtain ⟨hfamily, rfl, rfl⟩ := h
        simp only [decode?, hfamily]
    | sameByte =>
      cases wanted
      · obtain ⟨hfamily, hlast, rfl, rfl⟩ := h
        simp only [decode?, hfamily, hlast, if_true]
      · obtain ⟨hfamily, rfl, rfl⟩ := h
        simp only [decode?, hfamily]
    | keyDown =>
      cases wanted
      all_goals
        obtain ⟨hfamily, hbyte, rfl⟩ := h
        simp only [decode?, hfamily, keySkip?, hbyte]
  | jump | call | setIndex | jumpFrom =>
    obtain ⟨hfamily, rfl⟩ := h
    simp only [decode?, hfamily]
  | setByte | addByte | random =>
    obtain ⟨hfamily, rfl, rfl⟩ := h
    simp only [decode?, hfamily]
  | draw =>
    obtain ⟨hfamily, rfl, rfl, rfl⟩ := h
    simp only [decode?, hfamily]
  | operate =>
    obtain ⟨hfamily, hdigit, rfl, rfl⟩ := h
    simp only [decode?, hfamily, operation?_eq_some_iff.mpr hdigit, Option.map_some]
  | readDelay | awaitKey | setDelay | setSound | addIndex | glyph | decimal | store | load =>
    obtain ⟨⟨hfamily, hbyte⟩, rfl⟩ := h
    simp only [decode?, hfamily, transfer?, hbyte]

/-- A word decodes to the instruction that it stands for, and to no other. -/
theorem decode?_eq_some_iff : o.decode? = some i ↔ o.StandsFor i :=
  ⟨standsFor_of_decode?, decode?_of_standsFor⟩

/-- No word stands for two instructions. -/
theorem eq_of_standsFor {j : Instruction} (hi : o.StandsFor i) (hj : o.StandsFor j) : i = j :=
  Option.some.inj ((decode?_of_standsFor hi).symm.trans (decode?_of_standsFor hj))

theorem decode?_eq_awaitKey_iff {x : Register} :
    o.decode? = some (.awaitKey x) ↔ o.family.val = 0xF ∧ o.nn.toNat = 0x0A ∧ o.x = x :=
  decode?_eq_some_iff.trans and_assoc

theorem decode?_of_ret (h : o.decode? = some .ret) : o.word = 0x00EE := decode?_eq_some_iff.mp h

theorem decode?_of_call_family (h : o.family.val = 0x2) : o.decode? = some (.call o.nnn) :=
  decode?_eq_some_iff.mpr ⟨h, rfl⟩

end Opcode

end ChipEight

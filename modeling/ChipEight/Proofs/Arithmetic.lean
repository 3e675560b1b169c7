import ChipEight.Proofs.Bounds
import ChipEight.Proofs.Frame
import ChipEight.Proofs.Request

/-!
# Arithmetic with a flag

Results and flags of the operations on two registers as equations between numbers, and what a step
on such a word leaves. Both operands are read before anything is written, and the flag is written
last: where result and flag go to the same register, the flag is what stays.
-/
namespace ChipEight

/-- Result `r` and flag of the operation with a given last digit on the operands `a` and `b`. A
carry counts 256, a flag of 1 after a difference says that nothing was borrowed, and a shift keeps
the bit that it drops. The first four operations have no flag. -/
def Operation.Computes (a b r : Nat) : Nat → Option Nat → Prop
  | 0x0, none => r = b
  | 0x1, none => r = a ||| b
  | 0x2, none => r = a &&& b
  | 0x3, none => r = a ^^^ b
  | 0x4, some f => 256 * f + r = a + b
  | 0x5, some f => (r : Int) = a - b + 256 * (1 - f) ∧ (f = 1 ↔ b ≤ a)
  | 0x6, some f => 2 * r + f = a
  | 0x7, some f => (r : Int) = b - a + 256 * (1 - f) ∧ (f = 1 ↔ a ≤ b)
  | 0xE, some f => 256 * f + r = 2 * a
  | _, _ => False

namespace Operation

theorem carry_add (a b : UInt8) :
    256 * (decide (256 ≤ a.toNat + b.toNat)).toNat + (a + b).toNat = a.toNat + b.toNat := by
  have ha := a.toNat_lt
  have hb := b.toNat_lt
  rw [UInt8.toNat_add]
  by_cases hcarry : 256 ≤ a.toNat + b.toNat
  · rw [decide_eq_true hcarry, Bool.toNat_true]
    omega
  · rw [decide_eq_false hcarry, Bool.toNat_false]
    omega

theorem borrow_sub (a b : UInt8) :
    ((a - b).toNat : Int) = a.toNat - b.toNat + 256 * (1 - (decide (b ≤ a)).toNat) ∧
      ((decide (b ≤ a)).toNat = 1 ↔ b.toNat ≤ a.toNat) := by
  have ha := a.toNat_lt
  have hb := b.toNat_lt
  rw [UInt8.toNat_sub]
  by_cases hle : b ≤ a
  · have hle' := UInt8.le_iff_toNat_le.mp hle
    rw [decide_eq_true hle, Bool.toNat_true]
    omega
  · have hlt := mt UInt8.le_iff_toNat_le.mpr hle
    rw [decide_eq_false hle, Bool.toNat_false]
    omega

theorem dropped_half (a : UInt8) :
    2 * (a / 2).toNat + (decide (a % 2 = 1)).toNat = a.toNat := by
  have hodd : a % 2 = 1 ↔ a.toNat % 2 = 1 := UInt8.toNat_inj.symm
  rw [UInt8.toNat_div, show (2 : UInt8).toNat = 2 from rfl]
  by_cases h : a.toNat % 2 = 1
  · rw [decide_eq_true (hodd.mpr h), Bool.toNat_true]
    omega
  · rw [decide_eq_false (mt hodd.mp h), Bool.toNat_false]
    omega

theorem dropped_double (a : UInt8) :
    256 * (decide (128 ≤ a)).toNat + (a + a).toNat = 2 * a.toNat := by
  have hhigh : 128 ≤ a ↔ 256 ≤ a.toNat + a.toNat := by
    rw [UInt8.le_iff_toNat_le, show (128 : UInt8).toNat = 128 from rfl]
    omega
  rw [decide_eq_decide.mpr hhigh, carry_add]
  omega

/-- Every operation computes what its equation says, for all pairs of bytes. -/
theorem computes_apply (operation : Operation) (a b : UInt8) :
    Computes a.toNat b.toNat (operation.apply a b).1.toNat operation.digit
      ((operation.apply a b).2.map Bool.toNat) := by
  cases operation with
  | copy => exact rfl
  | or => exact UInt8.toNat_or a b
  | and => exact UInt8.toNat_and a b
  | xor => exact UInt8.toNat_xor a b
  | add => exact carry_add a b
  | subtract => exact borrow_sub a b
  | shiftRight => exact dropped_half a
  | subtractFrom => exact borrow_sub b a
  | shiftLeft => exact dropped_double a

end Operation

theorem Opcode.exists_operation {o : Opcode} (hdigit : o.n.val ≤ 0x7 ∨ o.n.val = 0xE) :
    ∃ operation : Operation, o.n.val = operation.digit := by
  have hsome : o.operation? ≠ none := by
    fun_cases operation? o with
    | case10 =>
      simp only [imp_false] at *
      omega
    | _ => exact Option.some_ne_none _
  obtain ⟨operation, hoperation⟩ := Option.ne_none_iff_exists'.mp hsome
  exact ⟨operation, operation?_eq_some_iff.mp hoperation⟩

namespace Processor

variable {p : Processor} {r : UInt8 × Option Bool} {x : Register}

/-- The flag stays also where the result was written to the same register. -/
theorem v_flag_writeResult {flag : Bool} (h : r.2 = some flag) :
    (p.writeResult x r).v Register.flag = flag.toUInt8 := by
  obtain ⟨result, _⟩ := r
  cases h
  show ((p.registers.write x result).setFlag flag).get Register.flag = _
  rw [Registers.get_setFlag, if_pos rfl]

theorem v_writeResult_self (h : r.2 = none ∨ x ≠ Register.flag) :
    (p.writeResult x r).v x = r.1 := by
  obtain ⟨result, flag⟩ := r
  cases flag with
  | none =>
    show (p.registers.write x result).get x = _
    rw [Registers.get_write, if_pos rfl]
  | some flag =>
    show ((p.registers.write x result).setFlag flag).get x = _
    rw [Registers.get_setFlag, if_neg (h.resolve_left nofun), Registers.get_write, if_pos rfl]

end Processor

namespace Machine

/-- What an operation with result `r` and flag `f` makes of `m`: register `x` holds the result and
the flag register the flag, which stays where both are the same. No other register changes, and
besides only the program counter moves on and the keys are sampled. -/
structure Calculation (m : Machine) (o : Opcode) (pad : Keypad) (r : UInt8) (f : Option Nat)
    (n : Machine) : Prop where
  computes : Operation.Computes (m.processor.v o.x).toNat (m.processor.v o.y).toNat r.toNat o.n f
  flag : ∀ b ∈ f, b ≤ 1 ∧ (n.processor.v Register.flag).toNat = b
  result : f = none ∨ o.x ≠ Register.flag → n.processor.v o.x = r
  registers : ∀ i, i ≠ o.x → f = none ∨ i ≠ Register.flag → n.processor.v i = m.processor.v i
  pc : n.processor.pc.toNat = m.processor.pc.toNat + 2
  rest : n = { m with
    processor := { m.processor with
      keys := .ofKeypad pad, pc := n.processor.pc, registers := n.processor.registers } }

variable {m : Machine} {o : Opcode} {pad : Keypad}

/-- A step on a word of the arithmetic family is carried out for all operands, wherever they stand,
also when they share a register or use the flag register. -/
theorem arithmetic_is_exact (hfetch : m.processor.opcode? = some o) (hfamily : o.family.val = 0x8)
    (hdigit : o.n.val ≤ 0x7 ∨ o.n.val = 0xE) (pad : Keypad) :
    ∃ r f, (m.step pad).result = .ok .next ∧ m.Calculation o pad r f (m.step pad).machine := by
  obtain ⟨operation, hoperation⟩ := Opcode.exists_operation hdigit
  have hdecode : o.decode? = some (.operate operation o.x o.y) :=
    Opcode.decode?_eq_some_iff.mpr ⟨hfamily, hoperation, rfl, rfl⟩
  have hcomputes := operation.computes_apply (m.processor.v o.x) (m.processor.v o.y)
  have hstep : (m.step pad).machine = { m with
      processor := (m.sample pad).processor.advance.writeResult o.x
        (operation.apply (m.processor.v o.x) (m.processor.v o.y)) } ∧
      (m.step pad).result = .ok .next := step_of_execute hfetch hdecode rfl
  obtain ⟨hmachine, hresult⟩ := hstep
  generalize operation.apply (m.processor.v o.x) (m.processor.v o.y) = r at hcomputes hmachine
  refine ⟨r.1, r.2.map Bool.toNat, hresult, ?_⟩
  rw [hmachine]
  constructor
  case computes => rwa [hoperation]
  case flag =>
    intro b hb
    obtain ⟨flag, hflag, rfl⟩ := Option.map_eq_some_iff.mp hb
    rw [Processor.v_flag_writeResult hflag]
    cases flag <;> decide
  case result =>
    intro hfree
    exact Processor.v_writeResult_self (hfree.imp_left Option.map_eq_none_iff.mp)
  case registers =>
    intro i hi hfree
    exact Processor.v_writeResult_of_ne hi (hfree.imp_left Option.map_eq_none_iff.mp)
  case pc =>
    rw [(Processor.control_writeResult o.x r).1]
    exact Processor.toNat_add_two (Memory.le_of_opcode? hfetch)
  case rest =>
    obtain ⟨result, flag⟩ := r
    cases flag <;> rfl

/-- A machine about to add register 3, which holds 3, to the flag register, which holds 255. -/
def aboutToAdd : Machine :=
  (((loaded [0x6F, 0xFF, 0x63, 0x03, 0x8F, 0x34]).step fun _ => false).machine.step
    fun _ => false).machine

/-- The sum modulo 256 is 2, but the carry is what the flag register keeps. -/
theorem carry_replaces_sum :
    (aboutToAdd.step fun _ => true).result = .ok .next ∧
    (aboutToAdd.step fun _ => true).machine.processor.v Register.flag = 1 ∧
    (aboutToAdd.step fun _ => true).machine.processor.v 3 = 3 ∧
    (aboutToAdd.step fun _ => true).machine.processor.memory = aboutToAdd.processor.memory := by
  have hstate : aboutToAdd.processor.opcode? = some ⟨0x8F34⟩ ∧
      aboutToAdd.processor.v 15 = 255 ∧ aboutToAdd.processor.v 3 = 3 := by
    decide +kernel
  generalize aboutToAdd = m at hstate ⊢
  obtain ⟨hfetch, hsum, hadded⟩ := hstate
  obtain ⟨r, f, hresult, hcalculation⟩ :=
    arithmetic_is_exact hfetch (by decide) (by decide) fun _ => true
  have hcomputes := hcalculation.computes
  rw [show Opcode.x ⟨0x8F34⟩ = 15 by decide, show Opcode.y ⟨0x8F34⟩ = 3 by decide, hsum, hadded,
    show (Opcode.n ⟨0x8F34⟩).val = 4 by decide] at hcomputes
  cases f with
  | none => exact hcomputes.elim
  | some b =>
    have hsum : 256 * b + r.toNat = 258 := hcomputes
    have hr := r.toNat_lt
    obtain ⟨hb, hflag⟩ := hcalculation.flag b rfl
    have hcarry : b = 1 := by omega
    refine ⟨hresult, UInt8.toNat_inj.mp (hflag.trans hcarry), ?_, ?_⟩
    · rw [hcalculation.registers 3 (by decide) (.inr (by decide)), hadded]
    · rw [hcalculation.rest]

end Machine

end ChipEight

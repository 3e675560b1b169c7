import ChipEight.Processor.Execute

/-!
# Refused instructions

Why an instruction cannot be carried out. `Refusal` holds one case for each check that an
instruction can fail: the two ends of the call stack, memory through the index register, and the
first pixel of a sprite off the screen.
-/
namespace ChipEight

/-- How many bytes from the index register on an instruction needs. -/
def Instruction.reach? : Instruction → Option Nat
  | .draw _ _ rows => some rows
  | .decimal _ => some 3
  | .store x | .load x => some (x + 1)
  | _ => none

namespace Processor

inductive Refusal (p : Processor) : Instruction → Fault.Cause → Prop
  | underflow (h : p.stack.pop? = none) : Refusal p .ret .stackUnderflow
  | overflow (target : Target) (h : p.stack.push? (p.pc + 2) = none) :
      Refusal p (.call target) .stackOverflow
  | beyondMemory {i : Instruction} {length : Nat} (hreach : i.reach? = some length)
      (h : p.reaches length = false) : Refusal p i p.beyondMemory
  | offScreen {x y : Register} {rows : Fin 16} {q : Pixel} (hreach : p.reaches rows = true)
      (h : p.screen.draw (p.sprite x y rows) = .error q) :
      Refusal p (.draw x y rows) (.displayOutOfBounds q.x q.y)

variable {p : Processor} {cause : Fault.Cause}

theorem refusal_drawSprite {x y : Register} {rows : Fin 16}
    (h : p.drawSprite x y rows = .error cause) : p.Refusal (.draw x y rows) cause := by
  rw [drawSprite] at h
  split at h
  case isTrue hreach =>
    split at h
    case h_1 q hdraw =>
      cases h
      exact .offScreen hreach hdraw
    case h_2 => cases h
  case isFalse hreach =>
    cases h
    exact .beyondMemory rfl (Bool.eq_false_iff.mpr hreach)

theorem refusal_of_reaches {i : Instruction} {length : Nat} (hreach : i.reach? = some length)
    {carried : Processor × Flow}
    (h : (if p.reaches length then Except.ok carried else .error p.beyondMemory) = .error cause) :
    p.Refusal i cause := by
  split at h
  case isTrue => cases h
  case isFalse hbeyond =>
    cases h
    exact .beyondMemory hreach (Bool.eq_false_iff.mpr hbeyond)

theorem refusal_enter {target : Target} (h : p.enter target = .error cause) :
    p.Refusal (.call target) cause := by
  rw [enter] at h
  split at h
  case h_1 => cases h
  case h_2 hpush =>
    cases h
    exact .overflow target hpush

theorem refusal_leave (h : p.leave = .error cause) : p.Refusal .ret cause := by
  rw [leave] at h
  split at h
  case h_1 => cases h
  case h_2 hpop =>
    cases h
    exact .underflow hpop

/-- Every instruction that is not carried out fails one of the checks of `Refusal`. -/
theorem refusal_execute {random : Random.Stream} {i : Instruction}
    (h : p.execute random i = .error cause) : p.Refusal i cause := by
  cases i with
  | ret => exact refusal_leave h
  | call target => exact refusal_enter h
  | draw x y rows => exact refusal_drawSprite h
  | decimal x | store x | load x => exact refusal_of_reaches rfl h
  | _ => cases h

theorem execute_of_beyondMemory {i : Instruction} {length : Nat} (hreach : i.reach? = some length)
    (h : p.reaches length = false) (random : Random.Stream) :
    p.execute random i = .error p.beyondMemory := by
  have hnot : ¬ p.reaches length = true := Bool.eq_false_iff.mp h
  cases i with
  | draw | decimal | store | load =>
    cases hreach
    exact if_neg hnot
  | _ => cases hreach

/-- An instruction that fails a check is not carried out, for just that cause. -/
theorem Refusal.execute {i : Instruction} (h : p.Refusal i cause) (random : Random.Stream) :
    p.execute random i = .error cause := by
  cases h with
  | underflow h =>
    show p.leave = _
    rw [leave, h]
  | overflow target h =>
    show p.enter target = _
    rw [enter, h]
  | beyondMemory hreach h => exact execute_of_beyondMemory hreach h random
  | @offScreen x y rows q hreach h =>
    show p.drawSprite x y rows = _
    rw [drawSprite, if_pos hreach, h]

theorem Refusal.ne_unknownOpcode {i : Instruction} (h : p.Refusal i cause) (o : Opcode) :
    cause ≠ .unknownOpcode o := by
  cases h <;> exact Fault.Cause.noConfusion

end Processor

end ChipEight

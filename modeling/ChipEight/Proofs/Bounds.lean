import ChipEight.Machine.Request
import ChipEight.Proofs.Step

/-!
# Bounds of program counter and call stack

No request takes the program counter past the largest target plus the largest register, nor a slot
of the call stack past the end of memory. A live slot holds an address behind a fetched call.

The bounds need each other. Returning jumps to a live slot, whose bound was set when the call that
filled it was fetched; the word of a call lies in memory whatever the program counter was before.
-/
namespace ChipEight

/-- No slot is past the end of memory, and no live slot lies before the first word's end. -/
structure CallStack.Bounded (s : CallStack) : Prop where
  slots : ∀ i : Fin 16, (s.slots.get i).toNat ≤ 0x1000
  live : ∀ i : Fin 16, i.val < s.depth.val → 2 ≤ (s.slots.get i).toNat

structure Processor.Bounded (p : Processor) : Prop where
  pc : p.pc.toNat ≤ 0x10FE
  stack : p.stack.Bounded

namespace CallStack

theorem bounded_empty : empty.Bounded := by
  constructor
  · intro i
    have hget : empty.slots.get i = 0 := by simp [empty, Vector.get]
    rw [hget]
    decide
  · intro i hi
    exact absurd hi (Nat.not_lt_zero _)

theorem Bounded.push? {s t : CallStack} (hs : s.Bounded) {address : UInt16}
    (hlow : 2 ≤ address.toNat) (hhigh : address.toNat ≤ 0x1000)
    (h : s.push? address = some t) : t.Bounded := by
  obtain ⟨hdepth, hget⟩ := slots_push? h
  constructor
  · intro i
    rw [hget]
    split
    · exact hhigh
    · exact hs.slots i
  · intro i hi
    rw [hget]
    split
    · exact hlow
    · exact hs.live i (by omega)

/-- Returning gives a live slot and leaves fewer of them. -/
theorem Bounded.pop? {s t : CallStack} (hs : s.Bounded) {address : UInt16}
    (h : s.pop? = some (address, t)) :
    t.Bounded ∧ 2 ≤ address.toNat ∧ address.toNat ≤ 0x1000 := by
  obtain ⟨hdepth, hslots, htop⟩ := slots_pop? h
  have hlt := s.depth.isLt
  have hget : s.slots.get ⟨t.depth, by omega⟩ = address := htop _ rfl
  refine ⟨⟨?_, ?_⟩, ?_, ?_⟩
  · rw [hslots]
    exact hs.slots
  · intro i hi
    rw [hslots]
    exact hs.live i (by omega)
  · rw [← hget]
    exact hs.live _ (by simp only; omega)
  · rw [← hget]
    exact hs.slots _

end CallStack

namespace Processor

theorem bounded_initial : initial.Bounded := ⟨by decide, CallStack.bounded_empty⟩

theorem toNat_add_two {pc : UInt16} (h : pc.toNat + 2 ≤ 4096) : (pc + 2).toNat = pc.toNat + 2 := by
  rw [UInt16.toNat_add]
  show (pc.toNat + 2) % 65536 = pc.toNat + 2
  omega

theorem toNat_target (target : Target) : (UInt16.ofNat target).toNat = target := by
  have hlt := target.isLt
  rw [UInt16.toNat_ofNat']
  show target.val % 65536 = target.val
  omega

theorem toNat_skipIf {p : Processor} (h : p.pc.toNat + 2 ≤ 4096) (skipped : Bool) :
    (p.skipIf skipped).pc.toNat = p.pc.toNat + if skipped then 4 else 2 := by
  cases skipped with
  | false => exact toNat_add_two h
  | true =>
    show (p.pc + 4).toNat = p.pc.toNat + 4
    rw [UInt16.toNat_add]
    show (p.pc.toNat + 4) % 65536 = p.pc.toNat + 4
    omega

/-- The step lemma: an instruction fetched from memory keeps the bounds. -/
theorem Bounded.control {p : Processor} (hp : p.Bounded) (hpc : p.pc.toNat + 2 ≤ 4096)
    {i : Instruction} {flow : Flow} {pc : UInt16} {stack : CallStack}
    (h : p.Control i flow pc stack) : pc.toNat ≤ 0x10FE ∧ stack.Bounded := by
  have hnext := toNat_add_two hpc
  cases h with
  | straight _ | key => exact ⟨by omega, hp.stack⟩
  | skip condition wanted =>
    have hskip := toNat_skipIf hpc (p.holds condition = wanted)
    refine ⟨?_, hp.stack⟩
    rw [hskip]
    split <;> omega
  | jump target =>
    have htarget := target.isLt
    exact ⟨by rw [toNat_target]; omega, hp.stack⟩
  | jumpFrom target =>
    have htarget := target.isLt
    have hoffset := (p.v Register.offset).toNat_lt
    refine ⟨?_, hp.stack⟩
    rw [UInt16.toNat_ofNat']
    show (target + (p.v Register.offset).toNat) % 65536 ≤ 0x10FE
    omega
  | call target hpush =>
    have htarget := target.isLt
    exact ⟨by rw [toNat_target]; omega, hp.stack.push? (by omega) (by omega) hpush⟩
  | ret hpop =>
    obtain ⟨hstack, _, hhigh⟩ := hp.stack.pop? hpop
    exact ⟨by omega, hstack⟩
  | wait => exact ⟨hp.pc, hp.stack⟩

end Processor

namespace Machine

open Processor (Bounded)

theorem bounded_step {m : Machine} (hm : m.processor.Bounded) (pad : Keypad) :
    (m.step pad).machine.processor.Bounded := by
  have hsampled : (m.sample pad).processor.Bounded := ⟨hm.pc, hm.stack⟩
  have hs := m.stepped pad
  generalize (m.step pad).result = r at hs
  generalize (m.step pad).machine = n at hs ⊢
  cases hs with
  | unfetched | unknown | refused => exact hsampled
  | executed hfetch _ hexecute =>
    have hpc : m.processor.pc.toNat + 2 ≤ 4096 := Memory.le_of_opcode? hfetch
    obtain ⟨hbound, hstack⟩ := hsampled.control hpc (Processor.control_execute hexecute)
    exact ⟨hbound, hstack⟩

theorem bounded_steps (pad : Keypad) (n : Nat) {o : Outcome} (ho : o.machine.processor.Bounded) :
    (o.steps pad n).machine.processor.Bounded := by
  induction n generalizing o with
  | zero => exact ho
  | succ n ih =>
    rw [Outcome.steps]
    split
    · exact ho
    · exact ih (bounded_step ho pad)

/-- Ticks touch neither program counter nor call stack. -/
theorem bounded_ticks (n : Nat) {m : Machine} (hm : m.processor.Bounded) :
    (m.ticks n).2.processor.Bounded := by
  induction n generalizing m with
  | zero => exact hm
  | succ n ih =>
    rw [ticks_succ]
    exact ih ⟨hm.pc, hm.stack⟩

theorem bounded_load (m : Machine) (program : List UInt8) :
    (m.load program).machine.processor.Bounded := by
  have hreset : m.reset.processor.Bounded := Processor.bounded_initial
  rw [load, Processor.load?]
  by_cases h : program.length ≤ Memory.programCapacity
  · rw [if_pos h]
    exact ⟨hreset.pc, hreset.stack⟩
  · rw [if_neg h]
    exact hreset

theorem bounded_serve {m n : Machine} (hm : m.processor.Bounded) {request : Request}
    (h : m.serve request = .ok n) : n.processor.Bounded := by
  cases request with
  | load program =>
    cases h
    exact bounded_load m program
  | reset =>
    cases h
    exact Processor.bounded_initial
  | step pad =>
    cases h
    exact bounded_step hm pad
  | run count pad =>
    cases h
    exact bounded_steps pad count hm
  | tick =>
    cases h
    exact ⟨hm.pc, hm.stack⟩
  | advance dt =>
    rw [serve, advance] at h
    cases hclock : m.clock.advance dt with
    | ok due =>
      rw [hclock] at h
      cases h
      exact bounded_ticks _ (m := { m with clock := (m.clock.elapse dt).2 }) ⟨hm.pc, hm.stack⟩
    | error e =>
      rw [hclock] at h
      cases h
  | takeDrawn =>
    cases h
    exact ⟨hm.pc, hm.stack⟩

/-- The run lemma: the bounds hold wherever requests lead. -/
theorem Reachable.bounded {m : Machine} (h : m.Reachable) : m.processor.Bounded := by
  induction h with
  | new config entropy => exact Processor.bounded_initial
  | serve request _ h ih => exact bounded_serve ih h

end Machine

end ChipEight

import ChipEight.Machine.History
import ChipEight.Proofs.Step

/-!
# Batches of steps

Batches under one keypad compose by adding their lengths, although each of them may end early. What
ends a batch early is a step that comes out the same when it is made again: a fault leaves nothing
but the sampled keys, and a wait for a key leaves the instruction that waits. What steps keep,
batches keep; what ticks keep, elapsed time keeps.
-/
namespace ChipEight

namespace Processor

variable {p q : Processor} {i : Instruction}

theorem Control.of_awaitKey {pc : UInt16} {stack : CallStack}
    (h : p.Control i .awaitKey pc stack) : ∃ x, i = .awaitKey x ∧ p.keys.first? = none := by
  generalize hflow : Flow.awaitKey = flow at h
  cases h with
  | wait x hnone => exact ⟨x, rfl, hnone⟩
  | straight hstraight =>
    subst hflow
    cases i <;> cases hstraight
  | skip | jump | jumpFrom | call | ret | key => cases hflow

/-- Only an instruction that finds no key down waits, and it stays where it is. -/
theorem eq_of_execute_awaitKey {random : Random.Stream}
    (h : p.execute random i = .ok (q, .awaitKey)) :
    ∃ x, i = .awaitKey x ∧ p.keys.first? = none ∧ q = { p with waiting := true } := by
  obtain ⟨x, rfl, hnone⟩ := (control_execute h).of_awaitKey
  refine ⟨x, rfl, hnone, ?_⟩
  have hawait : p.awaitKey x = (q, .awaitKey) := Except.ok.inj h
  rw [awaitKey, hnone] at hawait
  exact (congrArg Prod.fst hawait).symm

end Processor

namespace Machine

namespace Outcome

/-- Outcomes that differ in their events at most. -/
structure Agrees (o o' : Outcome) : Prop where
  machine : o.machine = o'.machine
  result : o.result = o'.result

/-- A batch before its first step. -/
def start (m : Machine) : Outcome := ⟨m, .ok .next, #[]⟩

variable {o o' : Outcome} {pad : Keypad}

theorem stopped_iff (o : Outcome) :
    o.stopped = true ↔ (∃ fault, o.result = .error fault) ∨ o.result = .ok .awaitKey := by
  rw [stopped]
  cases o.result with
  | error fault => simp
  | ok flow => simp

theorem Agrees.stopped (h : o.Agrees o') : o.stopped = o'.stopped := by
  rw [Outcome.stopped, Outcome.stopped, h.result]

theorem Agrees.step (h : o.Agrees o') (pad : Keypad) : (o.step pad).Agrees (o'.step pad) :=
  ⟨congrArg (fun m => (m.step pad).machine) h.machine,
    congrArg (fun m => (m.step pad).result) h.machine⟩

theorem Agrees.steps (h : o.Agrees o') (pad : Keypad) (n : Nat) :
    (o.steps pad n).Agrees (o'.steps pad n) := by
  induction n generalizing o o' with
  | zero => exact h
  | succ n ih =>
    rw [Outcome.steps, Outcome.steps, h.stopped]
    split
    · exact h
    · exact ih (h.step pad)

theorem steps_of_stopped (pad : Keypad) (n : Nat) (h : o.stopped = true) : o.steps pad n = o := by
  cases n with
  | zero => rfl
  | succ n => rw [steps, if_pos h]

theorem steps_succ (pad : Keypad) (n : Nat) (h : o.stopped = false) :
    o.steps pad (n + 1) = (o.step pad).steps pad n := by
  rw [steps, if_neg (Bool.eq_false_iff.mp h)]

theorem steps_add (pad : Keypad) (a b : Nat) (o : Outcome) :
    o.steps pad (a + b) = (o.steps pad a).steps pad b := by
  induction a generalizing o with
  | zero => rw [Nat.zero_add, steps]
  | succ a ih =>
    rw [Nat.succ_add]
    cases h : o.stopped with
    | true => rw [steps_of_stopped pad _ h, steps_of_stopped pad _ h, steps_of_stopped pad _ h]
    | false => rw [steps_succ pad _ h, steps_succ pad _ h, ih]

/-- More steps do nothing or end with a last one. -/
theorem last_steps (pad : Keypad) (n : Nat) (o : Outcome) :
    o.steps pad n = o ∨
      ∃ m : Machine, (o.steps pad n).machine = (m.step pad).machine ∧
        (o.steps pad n).result = (m.step pad).result := by
  induction n generalizing o with
  | zero => exact .inl rfl
  | succ n ih =>
    cases h : o.stopped with
    | true => exact .inl (steps_of_stopped pad _ h)
    | false =>
      rw [steps_succ pad n h]
      rcases ih (o.step pad) with hsame | hlast
      · rw [hsame]
        exact .inr ⟨o.machine, rfl, rfl⟩
      · exact .inr hlast

end Outcome

open Outcome (Agrees start)

variable {m : Machine} {pad : Keypad}

/-- A wait for a key leaves the sampled keys and the wait. -/
theorem step_of_awaitKey (h : (m.step pad).result = .ok .awaitKey) :
    ∃ o x, m.processor.opcode? = some o ∧ o.decode? = some (.awaitKey x) ∧
      (KeySet.ofKeypad pad).first? = none ∧
      (m.step pad).machine =
        { m with processor := { m.processor with keys := .ofKeypad pad, waiting := true } } := by
  have hs := m.stepped pad
  rw [h] at hs
  generalize (m.step pad).machine = n at hs ⊢
  cases hs with
  | @executed o _ _ _ hfetch hdecode hexecute =>
    obtain ⟨x, rfl, hnone, rfl⟩ := Processor.eq_of_execute_awaitKey hexecute
    exact ⟨o, x, hfetch, hdecode, hnone, rfl⟩

/-- A step that ends a batch comes out the same when it is made again. -/
theorem agrees_step_of_stopped (h : (m.step pad).stopped = true) :
    ((m.step pad).machine.step pad).Agrees (m.step pad) := by
  rcases (Outcome.stopped_iff _).mp h with ⟨fault, hfault⟩ | hwait
  · rw [(step_of_fault hfault).1]
    exact ⟨rfl, rfl⟩
  · obtain ⟨o, x, hfetch, hdecode, hnone, hmachine⟩ := step_of_awaitKey hwait
    have hexecute : ((m.step pad).machine.sample pad).processor.execute (m.step pad).machine.random
        (.awaitKey x) = .ok ((m.step pad).machine.processor, .awaitKey) := by
      rw [hmachine]
      show Except.ok (Processor.awaitKey _ x) = _
      simp only [Processor.awaitKey, sample, Processor.withKeys, hnone]
    have hfetched : (m.step pad).machine.processor.opcode? = some o := by
      rw [hmachine]
      exact hfetch
    obtain ⟨hagain, hresult⟩ := step_of_execute hfetched hdecode hexecute
    exact ⟨hagain, hresult.trans hwait.symm⟩

/-- A batch whose first step stops it ends with that step. -/
theorem agrees_run_of_stopped {n : Nat} (h : (m.step pad).stopped = true) :
    (m.run (n + 1) pad).Agrees (m.step pad) := by
  have hfirst : m.run (n + 1) pad = ((start m).step pad).steps pad n := rfl
  have hstopped : ((start m).step pad).stopped = true := h
  rw [hfirst, Outcome.steps_of_stopped pad n hstopped]
  exact ⟨rfl, rfl⟩

/-- A batch that goes on from another one goes on as a batch of its own. -/
theorem agrees_steps_run (m : Machine) (pad : Keypad) (a n : Nat) :
    ((m.run a pad).steps pad (n + 1)).Agrees ((m.run a pad).machine.run (n + 1) pad) := by
  have hfirst : (m.run a pad).machine.run (n + 1) pad =
      ((start (m.run a pad).machine).step pad).steps pad n := rfl
  rw [hfirst]
  cases h : (m.run a pad).stopped with
  | false =>
    rw [Outcome.steps_succ pad n h]
    have hnext : ((m.run a pad).step pad).Agrees ((start (m.run a pad).machine).step pad) :=
      ⟨rfl, rfl⟩
    exact hnext.steps pad n
  | true =>
    -- the step that stopped the first batch is the only one that the second makes
    rw [Outcome.steps_of_stopped pad _ h]
    rcases Outcome.last_steps pad a (start m) with hsame | ⟨k, hmachine, hresult⟩
    · have hrun : m.run a pad = start m := hsame
      rw [hrun] at h
      cases h
    · have hlast : (m.run a pad).Agrees (k.step pad) := ⟨hmachine, hresult⟩
      have hk := agrees_step_of_stopped (hlast.stopped.symm.trans h)
      rw [← hlast.machine] at hk
      have hagain : ((start (m.run a pad).machine).step pad).Agrees (m.run a pad) :=
        ⟨hk.machine.trans hlast.machine.symm, hk.result.trans hlast.result.symm⟩
      rw [Outcome.steps_of_stopped pad n (hagain.stopped.trans h)]
      exact ⟨hagain.machine.symm, hagain.result.symm⟩

/-- Batches compose, whatever ended the first one. -/
theorem machine_run_add (m : Machine) (pad : Keypad) (a b : Nat) :
    (m.run (a + b) pad).machine = ((m.run a pad).machine.run b pad).machine := by
  have hadd : m.run (a + b) pad = (m.run a pad).steps pad b := Outcome.steps_add pad a b _
  rw [hadd]
  cases b with
  | zero => rfl
  | succ n => exact (agrees_steps_run m pad a n).machine

/-- A second batch that makes a step ends as both batches together. -/
theorem result_run_add (m : Machine) (pad : Keypad) (a : Nat) {b : Nat} (hb : 1 ≤ b) :
    (m.run (a + b) pad).result = ((m.run a pad).machine.run b pad).result := by
  have hadd : m.run (a + b) pad = (m.run a pad).steps pad b := Outcome.steps_add pad a b _
  obtain ⟨n, rfl⟩ : ∃ n, b = n + 1 := ⟨b - 1, by omega⟩
  rw [hadd]
  exact (agrees_steps_run m pad a n).result

theorem machine_run_succ (m : Machine) (pad : Keypad) (n : Nat) :
    (m.run (n + 1) pad).machine = ((m.step pad).machine.run n pad).machine := by
  rw [Nat.add_comm, machine_run_add]
  rfl

/-- What a batch reports is the last of the results that it adds to the history. -/
theorem getLast?_batchResults (m : Machine) (pad : Keypad) (n : Nat) :
    (batchResults pad (n + 1) m).getLast? = some (m.run (n + 1) pad).result := by
  induction n generalizing m with
  | zero =>
    rw [batchResults, batchResults, ite_self]
    rfl
  | succ n ih =>
    rw [batchResults]
    cases h : (m.step pad).stopped with
    | true =>
      rw [(agrees_run_of_stopped h).result]
      rfl
    | false =>
      have hrest : (m.run (n + 1 + 1) pad).result =
          ((m.step pad).machine.run (n + 1) pad).result := by
        rw [Nat.add_comm, result_run_add m pad 1 (Nat.le_add_left 1 n)]
        rfl
      rw [hrest, if_neg Bool.false_ne_true, List.getLast?_cons, ih, Option.getD_some]

variable {P : Machine → Prop} {m : Machine}

theorem run_induction {pad : Keypad} (hstep : ∀ n, P n → P (n.step pad).machine) (hm : P m)
    (count : Nat) : P (m.run count pad).machine := by
  induction count generalizing m with
  | zero => exact hm
  | succ count ih =>
    rw [machine_run_succ]
    exact ih (hstep m hm)

theorem ticks_induction (htick : ∀ n, P n → P n.tick.2) (hm : P m) (count : Nat) :
    P (m.ticks count).2 := by
  induction count generalizing m with
  | zero => exact hm
  | succ count ih =>
    rw [ticks_succ]
    exact ih (htick m hm)

theorem elapse_induction (htick : ∀ n, P n → P n.tick.2) {dt : Duration}
    (hclock : P { m with clock := (m.clock.elapse dt).2 }) : P (m.elapse dt).machine :=
  ticks_induction htick hclock _

theorem eq_elapse_of_serve {n : Machine} {dt : Duration} (h : m.serve (.advance dt) = .ok n) :
    n = (m.elapse dt).machine := by
  rw [serve, advance] at h
  cases hclock : m.clock.advance dt with
  | ok due =>
    rw [hclock] at h
    exact (Except.ok.inj h).symm
  | error e =>
    rw [hclock] at h
    cases h

end Machine

end ChipEight

import ChipEight.Proofs.Batch
import ChipEight.Proofs.Refusal
import ChipEight.Proofs.Request

/-!
# Faults are permanent

A machine whose step faults makes no more progress until it starts over. The checks of an
instruction look at its word, the call stack, the registers and memory; keys, timers, clock and draw
flag, which may still change, are in none of them. So the next step fails the same check, whatever
keys are down, and it leaves what it found.
-/
namespace ChipEight.Machine

/-- The request starts over, with a program or without. -/
def Request.StartsOver : Request → Prop
  | .load _ | .reset => True
  | .step _ | .run .. | .tick | .advance _ | .takeDrawn => False

/-- The machines that requests lead to without starting over. -/
inductive Continued (m : Machine) : Machine → Prop
  | refl : Continued m m
  | serve {n k : Machine} (request : Request) (hn : Continued m n)
      (hgoes : ¬ request.StartsOver) (h : n.serve request = .ok k) : Continued m k

/-- The machines that differ from `m` in keys, timers, draw flag and clock at most. -/
inductive Standing (m : Machine) : Machine → Prop
  | intro (clock : Clock) (keys : KeySet) (delay sound : UInt8) (drawn : Bool) :
      Standing m { m with clock, processor := { m.processor with keys, delay, sound, drawn } }

variable {m n k : Machine} {pad : Keypad} {fault : Fault}

theorem Standing.refl (m : Machine) : m.Standing m :=
  .intro m.clock m.processor.keys m.processor.delay m.processor.sound m.processor.drawn

theorem Standing.sample (h : m.Standing n) (pad next : Keypad) :
    (m.sample pad).Standing (n.sample next) := by
  obtain ⟨clock, _, delay, sound, drawn⟩ := h
  exact .intro clock (.ofKeypad next) delay sound drawn

theorem Standing.sampled (h : m.Standing n) (next : Keypad) : m.Standing (n.sample next) := by
  obtain ⟨clock, _, delay, sound, drawn⟩ := h
  exact .intro clock (.ofKeypad next) delay sound drawn

theorem Standing.paused (h : m.Standing n) (hpaused : n.Paused k) : m.Standing k := by
  obtain ⟨_, keys, _, _, _⟩ := h
  obtain ⟨clock, delay, sound, drawn⟩ := hpaused
  exact .intro clock keys delay sound drawn

theorem Standing.pc (h : m.Standing n) : n.processor.pc = m.processor.pc := by
  obtain ⟨_, _, _, _, _⟩ := h
  rfl

theorem Standing.opcode? (h : m.Standing n) : n.processor.opcode? = m.processor.opcode? := by
  obtain ⟨_, _, _, _, _⟩ := h
  rfl

/-- A check that fails goes on failing. -/
theorem Standing.refusal {i : Instruction} {cause : Fault.Cause} (h : m.Standing n)
    (hrefusal : m.processor.Refusal i cause) : n.processor.Refusal i cause := by
  obtain ⟨_, _, _, _, _⟩ := h
  cases hrefusal with
  | underflow h => exact .underflow h
  | overflow target h => exact .overflow target h
  | beyondMemory hreach h => exact .beyondMemory hreach h
  | offScreen hreach h => exact .offScreen hreach h

/-- The fault comes again under every keypad, and leaves the machine with its keys sampled. -/
theorem Standing.step (h : m.Standing n) (hfault : (m.step pad).result = .error fault)
    (next : Keypad) :
    (n.step next).result = .error fault ∧ (n.step next).machine = n.sample next := by
  have hm := m.stepped pad
  rw [hfault] at hm
  generalize (m.step pad).machine = stopped at hm
  apply Stepped.eq
  cases hm with
  | unfetched hfetch =>
    rw [← h.pc]
    exact .unfetched (h.opcode?.trans hfetch)
  | unknown hfetch hdecode =>
    rw [← h.pc]
    exact .unknown (h.opcode?.trans hfetch) hdecode
  | refused hfetch hdecode hexecute =>
    have hrefusal := (h.sample pad next).refusal (Processor.refusal_execute hexecute)
    rw [← h.pc]
    exact .refused (h.opcode?.trans hfetch) hdecode (hrefusal.execute n.random)

theorem Standing.run (h : m.Standing n) (hfault : (m.step pad).result = .error fault)
    (next : Keypad) (count : Nat) :
    (n.run (count + 1) next).result = .error fault ∧
      (n.run (count + 1) next).machine = n.sample next := by
  obtain ⟨hresult, hmachine⟩ := h.step hfault next
  have hstopped : (n.step next).stopped = true :=
    (Outcome.stopped_iff _).mpr (.inl ⟨fault, hresult⟩)
  have hagrees := agrees_run_of_stopped (n := count) hstopped
  exact ⟨hagrees.result.trans hresult, hagrees.machine.trans hmachine⟩

/-- The step lemma: only starting over gets a machine on that has faulted. -/
theorem Standing.serve (h : m.Standing n) (hfault : (m.step pad).result = .error fault)
    {request : Request} (hgoes : ¬ request.StartsOver) (hserve : n.serve request = .ok k) :
    m.Standing k := by
  cases request with
  | load | reset => exact (hgoes trivial).elim
  | step next =>
    cases hserve
    rw [(h.step hfault next).2]
    exact h.sampled next
  | run count next =>
    cases hserve
    cases count with
    | zero => exact h
    | succ count =>
      rw [(h.run hfault next count).2]
      exact h.sampled next
  | tick | advance | takeDrawn => exact h.paused (paused_serve hserve trivial)

/-- The run lemma. -/
theorem Continued.standing (hn : m.Continued n) (hfault : (m.step pad).result = .error fault) :
    m.Standing n := by
  induction hn with
  | refl => exact .refl m
  | serve _ _ hgoes h ih => exact ih.serve hfault hgoes h

/-- A return on an empty stack is refused. -/
theorem step_of_underflow {o : Opcode} (hfetch : m.processor.opcode? = some o)
    (hret : o.decode? = some .ret) (hempty : m.processor.stack.pop? = none) (pad : Keypad) :
    (m.step pad).result = .error ⟨m.processor.pc, .stackUnderflow⟩ := by
  have hrefusal : (m.sample pad).processor.Refusal .ret .stackUnderflow := .underflow hempty
  exact (Stepped.refused hfetch hret (hrefusal.execute m.random)).eq.1

/-- Once a step has faulted, then wherever requests lead without starting over: every step under
every keypad fails with the same fault, so does every batch that makes a step, and the machine
differs from the one before the fault in keys, timers, draw flag and clock at most. -/
theorem fault_is_permanent (hfault : (m.step pad).result = .error fault) (hn : m.Continued n) :
    (∀ next, (n.step next).result = .error fault) ∧
    (∀ next count, 1 ≤ count → (n.run count next).result = .error fault) ∧
    n.processor.memory = m.processor.memory ∧ n.processor.registers = m.processor.registers ∧
    n.processor.index = m.processor.index ∧ n.processor.pc = m.processor.pc ∧
    n.processor.stack = m.processor.stack ∧ n.processor.screen = m.processor.screen ∧
    n.processor.waiting = m.processor.waiting ∧ n.random = m.random := by
  have hstanding := hn.standing hfault
  refine ⟨fun next => (hstanding.step hfault next).1, ?_, ?_⟩
  · intro next count hcount
    obtain ⟨count, rfl⟩ := Nat.exists_eq_add_one.mpr hcount
    exact (hstanding.run hfault next count).1
  · obtain ⟨_, _, _, _, _⟩ := hstanding
    exact ⟨rfl, rfl, rfl, rfl, rfl, rfl, rfl, rfl⟩

/-- A program that returns without a call: the draw flag is taken after the fault, then keys go
down. -/
theorem return_without_call_is_permanent :
    ∃ n, Continued (loaded [0x00, 0xEE]) n ∧ n.processor.drawn = false ∧
      ((loaded [0x00, 0xEE]).step fun _ => false).result = .error ⟨512, .stackUnderflow⟩ ∧
      (n.step fun key => key = 5).result = .error ⟨512, .stackUnderflow⟩ ∧
      (n.run 3 fun _ => true).result = .error ⟨512, .stackUnderflow⟩ ∧
      n.processor.pc = (loaded [0x00, 0xEE]).processor.pc := by
  have hempty : (loaded [0x00, 0xEE]).processor.stack.pop? = none := by
    rw [loaded_of_fits (by decide)]
    rfl
  have hfault := step_of_underflow (first_opcode?_loaded [0x00, 0xEE] (by decide) (by decide)) rfl
    hempty fun _ => false
  rw [pc_loaded (by decide)] at hfault
  have hstepped : Continued (loaded [0x00, 0xEE]) _ :=
    .serve (.step fun _ => false) .refl id rfl
  have htaken := hstepped.serve .takeDrawn id rfl
  obtain ⟨hstep, hrun, _, _, _, hpc, _⟩ := fault_is_permanent hfault htaken
  exact ⟨_, htaken, rfl, hfault, hstep _, hrun _ 3 (by decide), hpc⟩

end ChipEight.Machine

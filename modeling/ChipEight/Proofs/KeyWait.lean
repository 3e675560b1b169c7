import ChipEight.Proofs.Batch
import ChipEight.Proofs.Frame
import ChipEight.Proofs.Request

/-!
# Waiting for a key

A machine is marked as waiting exactly as long as its last step waited for a key. Only one
instruction sets the mark and clears it, so the mark can be right only because a waiting machine
stays where it is: its program counter is at that instruction, and no request but a step or a start
over moves it or writes memory. `AwaitsKey` is what a waiting machine keeps; it is
enough to know how its next step ends.
-/
namespace ChipEight

namespace Machine

/-- The machine stands at an instruction that waits for a key for register `x`, and the last sample
found no key down. -/
structure AwaitsKey (m : Machine) (x : Register) : Prop where
  pc : m.processor.pc.toNat ≤ 0xFFE
  word : ∃ o, m.processor.opcode? = some o ∧ o.family.val = 0xF ∧ o.x = x ∧ o.nn.toNat = 0x0A
  keys : m.processor.keys = .empty

/-- The machine after a step that found `key` down. -/
def receive (m : Machine) (pad : Keypad) (x : Register) (key : Key) : Machine :=
  { m with
    processor :=
      { m.processor with
        pc := m.processor.pc + 2
        registers := m.processor.registers.write x (UInt8.ofNat key)
        keys := .ofKeypad pad
        waiting := false } }

/-- The machine after a step that found no key down and waits for one. -/
def stall (m : Machine) (pad : Keypad) : Machine :=
  { m with processor := { m.processor with keys := .ofKeypad pad, waiting := true } }

variable {m n : Machine} {x : Register} {pad : Keypad}

theorem AwaitsKey.paused (h : m.AwaitsKey x) (hpaused : m.Paused n) : n.AwaitsKey x := by
  obtain ⟨_, _, _, _⟩ := hpaused
  exact ⟨h.pc, h.word, h.keys⟩

/-- A step that waits leaves a machine that awaits a key. -/
theorem awaitsKey_of_step (h : (m.step pad).result = .ok .awaitKey) :
    ∃ x, (m.step pad).machine.AwaitsKey x ∧ (m.step pad).machine.processor.waiting = true := by
  obtain ⟨o, x, hfetch, hdecode, hnone, hmachine⟩ := step_of_awaitKey h
  obtain ⟨hfamily, hbyte, hx⟩ := Opcode.decode?_eq_awaitKey_iff.mp hdecode
  have hpc := Memory.le_of_opcode? hfetch
  rw [hmachine]
  refine ⟨x, ⟨?_, ⟨o, hfetch, hfamily, hx, hbyte⟩, ?_⟩, rfl⟩
  · show m.processor.pc.toNat ≤ 0xFFE
    omega
  · exact KeySet.ofKeypad_eq_empty ((KeySet.first?_ofKeypad_eq_none_iff pad).mp hnone)

/-- A step at an instruction that waits for a key ends by the keys of its sample alone. -/
theorem step_at_awaitKey {o : Opcode} (hfetch : m.processor.opcode? = some o)
    (hdecode : o.decode? = some (.awaitKey x)) (pad : Keypad) :
    (m.step pad).machine = { m with processor := ((m.sample pad).processor.awaitKey x).1 } ∧
      (m.step pad).result = .ok ((m.sample pad).processor.awaitKey x).2 :=
  step_of_execute hfetch hdecode rfl

/-- So it receives the least key that is down, or stalls. -/
theorem step_at_awaitKey_cases {o : Opcode} (hfetch : m.processor.opcode? = some o)
    (hdecode : o.decode? = some (.awaitKey x)) (pad : Keypad) :
    (∃ key, pad key = true ∧ (∀ j < key, pad j = false) ∧
        (m.step pad).result = .ok .next ∧ (m.step pad).machine = m.receive pad x key) ∨
      ((∀ key, pad key = false) ∧
        (m.step pad).result = .ok .awaitKey ∧ (m.step pad).machine = m.stall pad) := by
  obtain ⟨hmachine, hresult⟩ := step_at_awaitKey hfetch hdecode pad
  simp only [Processor.awaitKey, sample, Processor.withKeys] at hmachine hresult
  cases hfirst : (KeySet.ofKeypad pad).first? with
  | some key =>
    obtain ⟨hdown, hleast⟩ := (KeySet.first?_ofKeypad_eq_some_iff pad key).mp hfirst
    rw [hfirst] at hmachine hresult
    exact .inl ⟨key, hdown, hleast, hresult, hmachine⟩
  | none =>
    have hup := (KeySet.first?_ofKeypad_eq_none_iff pad).mp hfirst
    rw [hfirst] at hmachine hresult
    exact .inr ⟨hup, hresult, hmachine⟩

/-- A machine that waits does so for one more step and stays as it is, or receives the least key
that is down. -/
theorem AwaitsKey.step_cases (h : m.AwaitsKey x) (hwaiting : m.processor.waiting = true)
    (pad : Keypad) :
    ((∀ key, pad key = false) ∧ (m.step pad).result = .ok .awaitKey ∧
        (m.step pad).machine = m) ∨
      ∃ key, pad key = true ∧ (∀ j < key, pad j = false) ∧
        (m.step pad).result = .ok .next ∧ (m.step pad).machine = m.receive pad x key := by
  obtain ⟨o, hfetch, hfamily, hx, hbyte⟩ := h.word
  have hdecode := Opcode.decode?_eq_awaitKey_iff.mpr ⟨hfamily, hbyte, hx⟩
  rcases step_at_awaitKey_cases hfetch hdecode pad with hreceived | ⟨hup, hresult, hmachine⟩
  · exact .inr hreceived
  · have hsame : m.stall pad = m := by
      rw [stall, KeySet.ofKeypad_eq_empty hup, ← h.keys, ← hwaiting]
    exact .inl ⟨hup, hresult, hmachine.trans hsame⟩

theorem AwaitsKey.step_of_no_key (h : m.AwaitsKey x) (hwaiting : m.processor.waiting = true)
    (hpad : ∀ key, pad key = false) :
    (m.step pad).machine = m ∧ (m.step pad).result = .ok .awaitKey := by
  rcases h.step_cases hwaiting pad with ⟨-, hresult, hmachine⟩ | ⟨key, hdown, -⟩
  · exact ⟨hmachine, hresult⟩
  · rw [hpad key] at hdown
    cases hdown

/-- What the history says about the mark, and what a marked machine keeps. -/
structure Marked (m : Machine) (past : History) : Prop where
  mark : m.processor.waiting = true ↔ past.getLast? = some (.ok .awaitKey)
  awaits : m.processor.waiting = true → ∃ x, m.AwaitsKey x

/-- A machine that was not marked is marked by a step that waits only. -/
theorem awaitKey_of_waiting_step (h : m.processor.waiting = false)
    (hwaiting : (m.step pad).machine.processor.waiting = true) :
    (m.step pad).result = .ok .awaitKey := by
  have hfalse : (m.sample pad).processor.waiting = false := h
  have hs := m.stepped pad
  generalize (m.step pad).result = r at hs ⊢
  generalize (m.step pad).machine = n at hs hwaiting
  cases hs with
  | unfetched | unknown | refused =>
    rw [hfalse] at hwaiting
    cases hwaiting
  | @executed _ i p flow _ _ hexecute =>
    have hmark : p.waiting = true := hwaiting
    by_cases hi : ∃ x, i = .awaitKey x
    · obtain ⟨x, rfl⟩ := hi
      have hawait : (m.sample pad).processor.awaitKey x = (p, flow) := Except.ok.inj hexecute
      rw [Processor.awaitKey] at hawait
      split at hawait
      · cases hawait
        cases hmark
      · cases hawait
        rfl
    · rw [(Processor.leaves_execute hexecute).waiting fun x hx => hi ⟨x, hx⟩, hfalse] at hmark
      cases hmark

/-- The step lemma. -/
theorem Marked.step {past : History} (hm : m.Marked past) (pad : Keypad) :
    (m.step pad).machine.Marked (past ++ [(m.step pad).result]) := by
  have hresult : (m.step pad).machine.processor.waiting = true →
      (m.step pad).result = .ok .awaitKey := by
    intro hwaiting
    cases hmark : m.processor.waiting with
    | false => exact awaitKey_of_waiting_step hmark hwaiting
    | true =>
      obtain ⟨x, hx⟩ := hm.awaits hmark
      rcases hx.step_cases hmark pad with ⟨_, hresult, _⟩ | ⟨key, _, _, _, hmachine⟩
      · exact hresult
      · -- receiving a key clears the mark
        rw [hmachine] at hwaiting
        cases hwaiting
  have hwaits : (m.step pad).result = .ok .awaitKey →
      (m.step pad).machine.processor.waiting = true := by
    intro h
    obtain ⟨_, _, hwaiting⟩ := awaitsKey_of_step h
    exact hwaiting
  constructor
  · rw [List.getLast?_concat, Option.some.injEq]
    exact ⟨hresult, hwaits⟩
  · intro hwaiting
    obtain ⟨x, hx, _⟩ := awaitsKey_of_step (hresult hwaiting)
    exact ⟨x, hx⟩

theorem Marked.run {past : History} (hm : m.Marked past) (pad : Keypad) (count : Nat) :
    (m.run count pad).machine.Marked (past ++ batchResults pad count m) := by
  induction count generalizing m past with
  | zero =>
    rw [batchResults, List.append_nil]
    exact hm
  | succ count ih =>
    have hstep := hm.step pad
    rw [batchResults]
    cases hstopped : (m.step pad).stopped with
    | true =>
      rw [(agrees_run_of_stopped hstopped).machine]
      exact hstep
    | false =>
      have hrest := ih hstep
      rw [List.append_assoc] at hrest
      rw [machine_run_succ]
      exact hrest

theorem Marked.paused {past : History} (hm : m.Marked past) (hpaused : m.Paused n) :
    n.Marked past := by
  constructor
  · rw [hpaused.waiting]
    exact hm.mark
  · intro hwaiting
    obtain ⟨x, hx⟩ := hm.awaits (hpaused.waiting.symm.trans hwaiting)
    exact ⟨x, hx.paused hpaused⟩

theorem marked_of_not_waiting (h : m.processor.waiting = false) : m.Marked [] := by
  constructor
  · rw [h]
    simp
  · intro hwaiting
    rw [h] at hwaiting
    cases hwaiting

theorem waiting_load (m : Machine) (program : List UInt8) :
    (m.load program).machine.processor.waiting = false := by
  obtain ⟨memory, hload⟩ := m.exists_memory_load program
  rw [hload]
  rfl

theorem Marked.serve {past : History} (hm : m.Marked past) {request : Request}
    (h : m.serve request = .ok n) : n.Marked (request.record m past) := by
  cases request with
  | load program =>
    cases h
    exact marked_of_not_waiting (waiting_load m program)
  | reset =>
    cases h
    exact marked_of_not_waiting rfl
  | step pad =>
    cases h
    exact hm.step pad
  | run count pad =>
    cases h
    exact hm.run pad count
  | tick | advance | takeDrawn => exact hm.paused (paused_serve h trivial)

/-- The run lemma. -/
theorem Traced.marked {past : History} (h : Traced m past) : m.Marked past := by
  induction h with
  | new config entropy => exact marked_of_not_waiting rfl
  | serve request _ h ih => exact ih.serve h

/-- A batch that makes a step leaves its machine marked if and only if it reports a wait. -/
theorem Reachable.waiting_run_iff (hm : m.Reachable) (pad : Keypad) (n : Nat) :
    (m.run (n + 1) pad).machine.processor.waiting = true ↔
      (m.run (n + 1) pad).result = .ok .awaitKey := by
  obtain ⟨past, hpast⟩ := hm.exists_traced
  rw [(hpast.marked.run pad (n + 1)).mark, List.getLast?_append, getLast?_batchResults,
    Option.some_or, Option.some.injEq]

/-- Wherever requests lead, a machine is marked as waiting if and only if its last step since it
started over waited for a key. A marked machine stands at an instruction `Fx0A` inside memory and
has no key sampled; after any ticks, its next step waits again and changes nothing if no key is
down, and otherwise stores the least key that is down and goes on. It never faults. -/
theorem Reachable.waiting_iff (hm : m.Reachable) :
    (∃ past, Traced m past) ∧
    (∀ past, Traced m past →
      (m.processor.waiting = true ↔ past.getLast? = some (.ok .awaitKey))) ∧
    (m.processor.waiting = true →
      ∃ x, m.AwaitsKey x ∧ ∀ (count : Nat) (pad : Keypad),
        ((∀ key, pad key = false) →
          ((m.ticks count).2.step pad).result = .ok .awaitKey ∧
            ((m.ticks count).2.step pad).machine = (m.ticks count).2) ∧
        ((∃ key, pad key = true) →
          ∃ key, pad key = true ∧ (∀ j < key, pad j = false) ∧
            ((m.ticks count).2.step pad).result = .ok .next ∧
            ((m.ticks count).2.step pad).machine = (m.ticks count).2.receive pad x key) ∧
        ∀ fault, ((m.ticks count).2.step pad).result ≠ .error fault) := by
  obtain ⟨past, hpast⟩ := hm.exists_traced
  refine ⟨⟨past, hpast⟩, fun past hpast => hpast.marked.mark, ?_⟩
  intro hwaiting
  obtain ⟨x, hx⟩ := hpast.marked.awaits hwaiting
  refine ⟨x, hx, ?_⟩
  intro count pad
  have hpaused := m.paused_ticks count
  have hawaits := hx.paused hpaused
  have hticked : (m.ticks count).2.processor.waiting = true := hpaused.waiting.trans hwaiting
  refine ⟨?_, ?_, ?_⟩
  · intro hnone
    obtain ⟨hmachine, hresult⟩ := hawaits.step_of_no_key hticked hnone
    exact ⟨hresult, hmachine⟩
  · rintro ⟨down, hdown⟩
    rcases hawaits.step_cases hticked pad with ⟨hnone, _⟩ | hreceived
    · rw [hnone down] at hdown
      cases hdown
    · exact hreceived
  · intro fault hfault
    rcases hawaits.step_cases hticked pad with ⟨_, hresult, _⟩ | ⟨_, _, _, hresult, _⟩
    · rw [hresult] at hfault
      cases hfault
    · rw [hresult] at hfault
      cases hfault

/-- A program that waits for a key, with no key down for a step. -/
theorem loaded_waits :
    ∃ m x, Traced m [.ok .awaitKey] ∧ m.processor.waiting = true ∧ m.AwaitsKey x ∧
      ((m.ticks 3).2.step fun key => key = 5 ∨ key = 9).machine =
        (m.ticks 3).2.receive (fun key => key = 5 ∨ key = 9) x 5 := by
  have hword := first_opcode?_loaded [0xF3, 0x0A] (by decide) (by decide)
  have hresult : ((loaded [0xF3, 0x0A]).step fun _ => false).result = .ok .awaitKey :=
    (step_at_awaitKey hword rfl fun _ => false).2
  have hloaded : Traced (loaded [0xF3, 0x0A]) [] :=
    .serve (.load [0xF3, 0x0A]) (.new .default (.ofSeed 0)) rfl
  have htraced : Traced ((loaded [0xF3, 0x0A]).step fun _ => false).machine [.ok .awaitKey] := by
    rw [← hresult]
    exact .serve (.step fun _ => false) hloaded rfl
  obtain ⟨_, hmark, hwaits⟩ := htraced.reachable.waiting_iff
  have hwaiting := (hmark _ htraced).mpr rfl
  obtain ⟨x, hx, hnext⟩ := hwaits hwaiting
  obtain ⟨_, hpressed, _⟩ := hnext 3 fun key => key = 5 ∨ key = 9
  obtain ⟨key, hkey, hleast, _, hmachine⟩ := hpressed ⟨9, by decide⟩
  have hfive : ∀ key : Key, decide (key = 5 ∨ key = 9) = true →
      (∀ j < key, decide (j = 5 ∨ j = 9) = false) → key = 5 := by decide
  rw [hfive key hkey hleast] at hmachine
  exact ⟨_, x, htraced, hwaiting, hx, hmachine⟩

end Machine

end ChipEight

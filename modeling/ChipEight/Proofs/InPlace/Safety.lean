import ChipEight.Proofs.Bounds
import ChipEight.Proofs.InPlace.Request
import ChipEight.Proofs.KeyWait

/-!
# Safety and batches in place

What the simulation says about the states that requests lead to. Their bounds are those of the
machines behind them, a step from them never crashes, and a fault undoes all that was done before
it. Two batches under one keypad are the batch of both lengths, whether the first one ran to its
end, waited for a key or faulted.
-/
namespace ChipEight.InPlace

/-- The bounds on program counter and call stack, with the stack pointer as a byte. -/
structure State.Bounded (s : State) : Prop where
  pc : s.pc.toNat ≤ 0x10FE
  stackPointer : s.stackPointer.toNat ≤ 16
  slots : ∀ i : Fin 16, (s.stack.get i).toNat ≤ 0x1000
  live : ∀ i : Fin 16, i.val < s.stackPointer.toNat → 2 ≤ (s.stack.get i).toNat

theorem bounded_inPlace {m : Machine} (hm : m.processor.Bounded) : m.inPlace.Bounded := by
  have hsp : m.inPlace.stackPointer.toNat = m.processor.stack.depth := toNat_depth _
  have hdepth := m.processor.stack.depth.isLt
  constructor
  · exact hm.pc
  · omega
  · exact hm.stack.slots
  · intro i hi
    exact hm.stack.live i (by omega)

theorem step_inPlace_ne_crash (m : Machine) (pad : Keypad) (reason : Crash) :
    (step pad).run m.inPlace ≠ .crash reason := by
  rw [step_inPlace, Machine.Outcome.inPlace]
  intro h
  cases hr : (m.step pad).result with
  | ok flow =>
    rw [hr] at h
    cases h
  | error fault =>
    rw [hr] at h
    cases h

theorem step_inPlace_eq_fault {m : Machine} {pad : Keypad} {fault : Fault} {t : State}
    (h : (step pad).run m.inPlace = .fault fault t) :
    (m.step pad).result = .error fault ∧ (m.step pad).machine.inPlace = t := by
  rw [step_inPlace, Machine.Outcome.inPlace] at h
  cases hr : (m.step pad).result with
  | ok flow =>
    rw [hr] at h
    cases h
  | error other =>
    rw [hr] at h
    cases h
    exact ⟨rfl, rfl⟩

/-- A step that faults changes nothing but the sampled keys, and its fault names the program counter
before it. So it is in place and for the machine behind the state. -/
theorem fault_keeps_state {s t : State} (hs : Reachable s) {pad : Keypad} {fault : Fault}
    (h : (step pad).run s = .fault fault t) :
    t = { s with keys := .ofKeypad pad } ∧ fault.pc = s.pc ∧
      ∃ m : Machine, m.Reachable ∧ s = m.inPlace ∧ (m.step pad).result = .error fault ∧
        (m.step pad).machine = m.sample pad := by
  obtain ⟨m, hm, rfl⟩ := reachable_iff.mp hs
  obtain ⟨hresult, hafter⟩ := step_inPlace_eq_fault h
  obtain ⟨hmachine, hpc⟩ := Machine.step_of_fault hresult
  refine ⟨?_, hpc, m, hm, rfl, hresult, hmachine⟩
  rw [← hafter, hmachine]
  rfl

/-- A glyph two pixels from the right edge is refused at its third pixel, and the two before it are
not drawn. -/
theorem refused_glyph_keeps_state :
    ∃ s t, Reachable s ∧ s.pc = 0x202 ∧ s.registers.get 0 = 62 ∧
      (step fun _ => true).run s = .fault ⟨0x202, .displayOutOfBounds 64 0⟩ t ∧
      t = { s with keys := .ofKeypad fun _ => true } := by
  let loaded := ((Machine.new .default (.ofSeed 0)).load [0x60, 0x3E, 0xD0, 0x15]).machine
  let placed := (loaded.step fun _ => false).machine
  have hplaced : placed.Reachable := .serve (.step _) (.serve (.load _) (.new _ _) rfl) rfl
  have hs : Reachable placed.inPlace := reachable_iff.mpr ⟨placed, hplaced, rfl⟩
  have hresult : (placed.step fun _ => true).result =
      .error ⟨0x202, .displayOutOfBounds 64 0⟩ := by decide +kernel
  have hrun : (step fun _ => true).run placed.inPlace =
      .fault ⟨0x202, .displayOutOfBounds 64 0⟩ (placed.step fun _ => true).machine.inPlace := by
    rw [step_inPlace, Machine.Outcome.inPlace, hresult]
  obtain ⟨hkeys, hpc, -⟩ := fault_keeps_state hs hrun
  exact ⟨_, _, hs, hpc.symm, by decide +kernel, hrun, hkeys⟩

/-- Wherever requests lead, the bounds hold and no step crashes: no index is outside its array and
no sum outside its word. The step in place is then that of the machine behind the state. -/
theorem reachable_safe {s : State} (hs : Reachable s) :
    s.Bounded ∧ (∀ pad reason, (step pad).run s ≠ .crash reason) ∧
      ∃ m : Machine, m.Reachable ∧ s = m.inPlace ∧
        ∀ pad, (step pad).run s = (m.step pad).inPlace := by
  obtain ⟨m, hm, rfl⟩ := reachable_iff.mp hs
  exact ⟨bounded_inPlace hm.bounded, step_inPlace_ne_crash m, m, hm, rfl, step_inPlace m⟩

theorem loaded_safe :
    ∃ s, serve (Machine.new .default (.ofSeed 0)).inPlace (.load [0x22, 0x00]) = .ok s ∧
      Reachable s ∧ s.Bounded ∧ ∀ pad reason, (step pad).run s ≠ .crash reason := by
  have hstart : Reachable (Machine.new .default (.ofSeed 0)).inPlace :=
    reachable_iff.mpr ⟨_, .new _ _, rfl⟩
  have hload := serve_inPlace (Machine.new .default (.ofSeed 0)) (.load [0x22, 0x00])
  have hs := Reachable.serve _ hstart hload
  obtain ⟨hbounds, hcrash, _⟩ := reachable_safe hs
  exact ⟨_, hload, hs, hbounds, hcrash⟩

theorem run_batch_inPlace (m : Machine) (pad : Keypad) (n : Nat) :
    (run pad .next n).run m.inPlace = (m.run n pad).inPlace :=
  run_inPlace pad n (o := .start m) rfl (by decide)

theorem inPlace_congr {o o' : Machine.Outcome} (h : o.Agrees o') : o.inPlace = o'.inPlace := by
  rw [Machine.Outcome.inPlace, Machine.Outcome.inPlace, h.machine, h.result]

/-- Two batches leave the state that one batch of both lengths leaves, and if the second one makes a
step they end alike: with the same flow or the same fault. So it is for the machine behind. -/
theorem run_composes {s : State} (hs : Reachable s) (pad : Keypad) (a b : Nat) :
    ∃ t, ((run pad .next a).run s).state = .ok t ∧
      ((run pad .next (a + b)).run s).state = ((run pad .next b).run t).state ∧
      (1 ≤ b → (run pad .next (a + b)).run s = (run pad .next b).run t) ∧
      ∃ m : Machine, m.Reachable ∧ s = m.inPlace ∧ t = (m.run a pad).machine.inPlace ∧
        (m.run (a + b) pad).machine = ((m.run a pad).machine.run b pad).machine ∧
        (1 ≤ b → (m.run (a + b) pad).result = ((m.run a pad).machine.run b pad).result) := by
  obtain ⟨m, hm, rfl⟩ := reachable_iff.mp hs
  have hmachine := m.machine_run_add pad a b
  have hresult := fun hb : 1 ≤ b => m.result_run_add pad a hb
  simp only [run_batch_inPlace, state_inPlace]
  refine ⟨_, rfl, ?_, ?_, m, hm, rfl, rfl, hmachine, hresult⟩
  · rw [run_batch_inPlace, state_inPlace, hmachine]
  · intro hb
    rw [run_batch_inPlace]
    exact inPlace_congr ⟨hmachine, hresult hb⟩

/-- Two batches of a program that waits for a key, the first of a single step. -/
theorem waiting_batch_composes :
    ∃ t, ((run (fun _ => false) .next 1).run (loaded [0xF3, 0x0A]).inPlace).state = .ok t ∧
      t.waiting = true ∧
      (run (fun _ => false) .next 3).run (loaded [0xF3, 0x0A]).inPlace =
        (run (fun _ => false) .next 2).run t := by
  have hs : Reachable (loaded [0xF3, 0x0A]).inPlace :=
    reachable_iff.mpr ⟨_, reachable_loaded _, rfl⟩
  obtain ⟨t, hfirst, _, hboth, _⟩ := run_composes hs (fun _ => false) 1 2
  refine ⟨t, hfirst, ?_, hboth (by decide)⟩
  rw [run_batch_inPlace, state_inPlace] at hfirst
  have hword := first_opcode?_loaded [0xF3, 0x0A] (by decide) (by decide)
  have hwaits : ((loaded [0xF3, 0x0A]).step fun _ => false).machine.processor.waiting = true := by
    rw [(Machine.step_at_awaitKey hword rfl fun _ => false).1]
    rfl
  generalize loaded [0xF3, 0x0A] = m at hfirst hwaits
  cases hfirst
  exact hwaits

end ChipEight.InPlace

import ChipEight.Proofs.Batch
import ChipEight.Proofs.InPlace.Step

/-!
# Requests in place

Every request takes the image of a machine to the image of the machine that the request gives, so
the states in place that requests lead to from power-on are the images of the machines that they
lead to. Only time that cannot be accounted for crashes.
-/
namespace ChipEight.InPlace

open Work
open Machine (Request)

/-- A reset forgets all but clock, random stream and configuration. -/
theorem run_reset (s : State) :
    reset.run s = .done () (Machine.mk .initial s.clock.reset s.random s.config).inPlace := by
  have hfont : Font.start + Font.glyphs.length ≤ 4096 := by decide
  rw [reset, run_bind, run_change, andThen_done, run_bind, run_state, andThen_done, run_bind]
  change ((putItems Memory.zero.cells Font.start Font.glyphs).run _).andThen _ = _
  rw [putItems_memory _ hfont]
  rfl

theorem reset_inPlace (m : Machine) : reset.run m.inPlace = .done () m.reset.inPlace :=
  run_reset m.inPlace

theorem load_inPlace (m : Machine) (program : List UInt8) :
    ((load program).run m.inPlace).state = .ok (m.load program).machine.inPlace := by
  rw [load, run_bind, reset_inPlace, andThen_done, Machine.load, Processor.load?]
  by_cases h : program.length ≤ Memory.programCapacity
  · have hfits : Memory.programStart + program.length ≤ 4096 := by
      change 512 + program.length ≤ 4096
      change program.length ≤ 3584 at h
      omega
    rw [if_neg (Nat.not_lt.mpr h), if_pos h, run_bind, run_state, andThen_done, run_bind]
    change (((putItems m.reset.processor.memory.cells _ program).run _).andThen _).state = _
    rw [putItems_memory _ hfits]
    rfl
  · rw [if_pos (Nat.not_le.mp h), if_neg h]
    rfl

theorem state_inPlace (o : Machine.Outcome) : o.inPlace.state = .ok o.machine.inPlace := by
  rw [Machine.Outcome.inPlace]
  cases o.result with
  | ok flow => rfl
  | error fault => rfl

/-- A batch goes on from its last step, whatever events came before. -/
theorem run_inPlace (pad : Keypad) (n : Nat) {o : Machine.Outcome} {flow : Flow}
    (h : o.result = .ok flow) (hgo : flow ≠ .awaitKey) :
    (run pad flow n).run o.machine.inPlace = (o.steps pad n).inPlace := by
  induction n generalizing o flow with
  | zero => rw [run, run_pure, Machine.Outcome.steps, Machine.Outcome.inPlace, h]
  | succ n ih =>
    have hstopped : ¬ o.stopped = true := by
      simp [Machine.Outcome.stopped, h, hgo]
    have hmachine : (o.step pad).machine = (o.machine.step pad).machine := rfl
    have hresult : (o.step pad).result = (o.machine.step pad).result := rfl
    rw [run, run_bind, step_inPlace, Machine.Outcome.steps, if_neg hstopped,
      Machine.Outcome.inPlace, ← hmachine, ← hresult]
    cases hr : (o.step pad).result with
    | error fault =>
      have hend : (o.step pad).stopped = true := by simp [Machine.Outcome.stopped, hr]
      rw [Machine.Outcome.steps_of_stopped pad n hend, Machine.Outcome.inPlace, hr]
      rfl
    | ok flow =>
      rw [andThen_done]
      by_cases hwait : flow = .awaitKey
      · have hend : (o.step pad).stopped = true := by simp [Machine.Outcome.stopped, hr, hwait]
        rw [if_pos hwait, run_pure, Machine.Outcome.steps_of_stopped pad n hend,
          Machine.Outcome.inPlace, hr]
      · rw [if_neg hwait]
        exact ih hr hwait

/-- The tone in place looks at the sound timer after the tick, that of the machine before it. -/
theorem run_tick (s : State) :
    tick.run s =
      .done (.ofSound s.sound)
        { s with delay := countDown s.delay, sound := countDown s.sound } := by
  rw [tick, run_bind, run_change, andThen_done, run_bind, run_state, andThen_done]
  dsimp only
  by_cases h : s.sound = 0
  · have hzero : countDown s.sound = s.sound := by rw [countDown, if_pos h, h]
    rw [if_pos h, run_pure, Machine.Tone.ofSound, if_pos h, hzero]
  · have hdown : countDown s.sound = s.sound - 1 := if_neg h
    rw [if_neg h, run_bind, run_change, andThen_done, run_pure, Machine.Tone.ofSound, if_neg h,
      hdown]
    simp only [Machine.sub_one_eq_zero_iff]

theorem tick_inPlace (m : Machine) : tick.run m.inPlace = .done m.tick.1 m.tick.2.inPlace :=
  run_tick m.inPlace

theorem ticks_inPlace (m : Machine) (n : Nat) :
    (ticks n).run m.inPlace = .done (m.ticks n).1 (m.ticks n).2.inPlace := by
  induction n generalizing m with
  | zero => rfl
  | succ n ih =>
    rw [ticks, run_bind, tick_inPlace, andThen_done, run_bind, ih, m.ticks_succ]
    rfl

theorem advance_inPlace (m : Machine) (dt : Duration) :
    ((advance dt).run m.inPlace).state =
      match m.advance dt with
      | .ok e => .ok e.machine.inPlace
      | .error .overflow => .error .overflow := by
  have hclock : m.inPlace.clock = m.clock := rfl
  rw [advance, run_bind, run_state, andThen_done, hclock, Machine.advance, Clock.advance]
  by_cases h : m.clock.period ≠ .zero ∧
      Duration.longest.nanos < m.clock.elapsed.nanos + dt.nanos
  · rw [if_pos h]
    rfl
  · rw [if_neg h]
    change (((ticks (m.clock.elapse dt).1.toNat).run
      { m with clock := (m.clock.elapse dt).2 : Machine }.inPlace)).state = _
    rw [ticks_inPlace]
    rfl

/-- The simulation of requests. -/
theorem serve_inPlace (m : Machine) (request : Request) :
    serve m.inPlace request =
      match m.serve request with
      | .ok n => .ok n.inPlace
      | .error .overflow => .error .overflow := by
  cases request with
  | load program => exact load_inPlace m program
  | reset =>
    rw [serve, reset_inPlace]
    rfl
  | step pad =>
    rw [serve, step_inPlace, state_inPlace]
    rfl
  | run count pad =>
    have hrun := run_inPlace pad count (o := ⟨m, .ok .next, #[]⟩) rfl (by decide)
    rw [serve, hrun, state_inPlace]
    rfl
  | tick =>
    rw [serve, tick_inPlace]
    rfl
  | advance dt =>
    rw [serve, advance_inPlace, Machine.serve]
    cases m.advance dt with
    | ok e => rfl
    | error e => rfl
  | takeDrawn => rfl

/-- What requests lead to in place are the images of what they lead to. -/
theorem reachable_iff {s : State} : Reachable s ↔ ∃ m : Machine, m.Reachable ∧ s = m.inPlace := by
  constructor
  · intro h
    induction h with
    | new config entropy h =>
      rw [run_reset] at h
      cases h
      exact ⟨.new config entropy, .new config entropy, rfl⟩
    | serve request _ h ih =>
      obtain ⟨m, hm, rfl⟩ := ih
      rw [serve_inPlace] at h
      cases hn : m.serve request with
      | ok n =>
        rw [hn] at h
        cases h
        exact ⟨n, .serve request hm hn, rfl⟩
      | error e =>
        rw [hn] at h
        cases h
  · rintro ⟨m, hm, rfl⟩
    induction hm with
    | new config entropy => exact .new config entropy (run_reset _)
    | serve request _ h ih =>
      refine .serve request ih ?_
      rw [serve_inPlace, h]

end ChipEight.InPlace

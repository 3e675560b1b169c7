import ChipEight.Proofs.FreshStart
import ChipEight.Proofs.Script
import ChipEight.Proofs.Transcript
import Mathlib.Algebra.GroupWithZero.Nat

/-!
# The schedule of a headless run

What each frame does, read off the transcript of the frame loop. The pacing clock carries the time
of all frames so far, so frame `f` owes the whole step times that its own time completes. Steps that
a wait for a key leaves undone are lost, since they were counted off the clock before they were
made.
-/
namespace ChipEight

open Headless (Script Session follow)
open Machine (Outcome Tone)

namespace Machine

variable {pad : Keypad}

/-- The results of up to `count` steps. -/
inductive Budgeted (count : Nat) : History → Prop
  | spent (flows : List Flow) (hgoing : .awaitKey ∉ flows) (hlength : flows.length = count) :
      Budgeted count (flows.map .ok)
  | waited (flows : List Flow) (hgoing : .awaitKey ∉ flows) (hlength : flows.length < count) :
      Budgeted count (flows.map .ok ++ [.ok .awaitKey])
  | faulted (flows : List Flow) (fault : Fault) (hgoing : .awaitKey ∉ flows)
      (hlength : flows.length < count) : Budgeted count (flows.map .ok ++ [.error fault])

theorem Budgeted.cons {count : Nat} {past : History} {flow : Flow} (hflow : flow ≠ .awaitKey)
    (h : Budgeted count past) : Budgeted (count + 1) (.ok flow :: past) := by
  cases h with
  | spent flows hgoing hlength =>
    exact .spent (flow :: flows) (by simp [hflow.symm, hgoing]) (by simp [hlength])
  | waited flows hgoing hlength =>
    exact .waited (flow :: flows) (by simp [hflow.symm, hgoing]) (by simp [hlength])
  | faulted flows fault hgoing hlength =>
    exact .faulted (flow :: flows) fault (by simp [hflow.symm, hgoing]) (by simp [hlength])

/-- A batch makes all its steps, unless one of them waits for a key or faults. -/
theorem budgeted_batchResults (m : Machine) (pad : Keypad) (count : Nat) :
    Budgeted count (batchResults pad count m) := by
  induction count generalizing m with
  | zero => exact .spent [] List.not_mem_nil rfl
  | succ count ih =>
    rw [batchResults]
    have hstopped := (m.step pad).stopped_iff
    cases hresult : (m.step pad).result with
    | error fault =>
      rw [if_pos (hstopped.mpr (.inl ⟨fault, hresult⟩))]
      exact .faulted [] fault List.not_mem_nil (Nat.succ_pos count)
    | ok flow =>
      by_cases hwait : flow = .awaitKey
      · subst hwait
        rw [if_pos (hstopped.mpr (.inr hresult))]
        exact .waited [] List.not_mem_nil (Nat.succ_pos count)
      · rw [if_neg]
        · exact (ih _).cons hwait
        · rw [hstopped, hresult]
          simp [hwait]

/-- What a batch reports is the last of its results. -/
theorem result_run (m : Machine) (pad : Keypad) (count : Nat) :
    (m.run count pad).result = (batchResults pad count m).getLast?.getD (.ok .next) := by
  cases count with
  | zero => rfl
  | succ count => rw [getLast?_batchResults, Option.getD_some]

end Machine

namespace RunConfig

/-- The nanoseconds of a frame. -/
def frameNanos : Nat := 16666666

/-- The nanoseconds of a step; none if steps are not held back. -/
def stepNanos (config : RunConfig) : Nat := config.frequency.period.nanos

/-- The steps that are due in the first `count` frames. -/
def stepsBy (config : RunConfig) (count : Nat) : Nat :=
  if config.stepNanos = 0 then count else count * frameNanos / config.stepNanos

/-- The steps that are due in a frame. -/
def stepsIn (config : RunConfig) (frame : Nat) : Nat :=
  if config.stepNanos = 0 then 1
  else (frame + 1) * frameNanos / config.stepNanos - frame * frameNanos / config.stepNanos

theorem stepsBy_succ (config : RunConfig) (count : Nat) :
    config.stepsBy (count + 1) = config.stepsBy count + config.stepsIn count := by
  rw [stepsBy, stepsBy, stepsIn]
  split
  · rfl
  · have hle : count * frameNanos / config.stepNanos ≤
        (count + 1) * frameNanos / config.stepNanos :=
      Nat.div_le_div_right (Nat.mul_le_mul_right _ (Nat.le_succ count))
    omega

theorem stepsBy_le (config : RunConfig) (count more : Nat) :
    config.stepsBy count ≤ config.stepsBy (count + more) := by
  induction more with
  | zero => exact Nat.le_refl _
  | succ more ih =>
    rw [← Nat.add_assoc, stepsBy_succ]
    omega

theorem stepNanos_le (config : RunConfig) : config.stepNanos ≤ 1000000000 := by
  rw [stepNanos, Frequency.period]
  split
  · exact Nat.zero_le _
  · exact Nat.div_le_self _ _

end RunConfig

namespace Clock

variable {c : Clock} {frame : Nat}

/-- The time of all frames so far, of which the clock has counted the whole cycles. -/
structure Carries (c : Clock) (frame : Nat) : Prop where
  elapsed : c.period ≠ .zero → c.elapsed.nanos = frame * RunConfig.frameNanos % c.period.nanos
  period_le : c.period.nanos ≤ 1000000000

theorem Carries.add_lt (h : c.Carries frame) (hp : c.period ≠ .zero) :
    c.elapsed.nanos + Session.frameTime.nanos < 1016666666 := by
  have hrest : c.elapsed.nanos < c.period.nanos := by
    rw [h.elapsed hp]
    exact Nat.mod_lt _ (period_pos hp)
  have hle := h.period_le
  have htime : Session.frameTime.nanos = 16666666 := rfl
  omega

/-- The clock never has too much time to account for. -/
theorem Carries.advance (h : c.Carries frame) :
    c.advance Session.frameTime = .ok (c.elapse Session.frameTime) := by
  by_cases hp : c.period = .zero
  · rw [Clock.advance, if_neg (fun hover => hover.1 hp)]
  · apply advance_of_le
    have hlt := h.add_lt hp
    have hlongest : Duration.longest.nanos = 18446744073709551615999999999 := rfl
    omega

theorem Carries.elapse (h : c.Carries frame) :
    (c.elapse Session.frameTime).2.Carries (frame + 1) := by
  have hperiod := c.period_elapse Session.frameTime
  refine ⟨fun hp => ?_, by rw [hperiod]; exact h.period_le⟩
  rw [hperiod] at hp ⊢
  have hkept : (c.elapse Session.frameTime).2.elapsed.nanos =
      (c.elapsed.nanos + RunConfig.frameNanos) % c.period.nanos := by
    rw [Clock.elapse, if_neg hp]
    rfl
  rw [hkept, h.elapsed hp, Nat.mod_add_mod, Nat.succ_mul]

/-- The whole cycles in a rest and some more time are those that the time adds to the whole. -/
theorem mod_add_div (whole more period : Nat) (hp : 0 < period) :
    (whole % period + more) / period = (whole + more) / period - whole / period := by
  have hsum : whole + more = period * (whole / period) + (whole % period + more) := by
    have := Nat.div_add_mod whole period
    omega
  have hdiv : (whole + more) / period = whole / period + (whole % period + more) / period := by
    conv_lhs => rw [hsum, Nat.mul_add_div hp]
  rw [hdiv, Nat.add_sub_cancel_left]

theorem Carries.toNat_due (h : c.Carries frame) (hp : c.period ≠ .zero) :
    (c.elapse Session.frameTime).1.toNat =
      (frame + 1) * RunConfig.frameNanos / c.period.nanos -
        frame * RunConfig.frameNanos / c.period.nanos := by
  have hcycles : c.cycles Session.frameTime =
      (frame * RunConfig.frameNanos % c.period.nanos + RunConfig.frameNanos) / c.period.nanos := by
    rw [cycles, h.elapsed hp]
    rfl
  have hcount : c.cycles Session.frameTime < UInt32.size := by
    have hle : c.cycles Session.frameTime ≤ c.elapsed.nanos + Session.frameTime.nanos :=
      Nat.div_le_self _ _
    have hlt := h.add_lt hp
    have hsize : UInt32.size = 4294967296 := rfl
    omega
  rw [toNat_elapse hp hcount, hcycles, mod_add_div _ _ _ (period_pos hp), Nat.succ_mul]

end Clock

namespace Headless.Session

variable {s : Session}

theorem frames_of_fault (h : s.fault.isSome = true) (count next : Nat) :
    frames count next s = s := by
  cases count with
  | zero => rfl
  | succ count => exact if_pos h

theorem frames_succ (h : s.fault = none) (count next : Nat) :
    frames (count + 1) next s = frames count (next + 1) (s.frame next) :=
  if_neg (by rw [h]; exact Bool.false_ne_true)

/-- The time of a frame is one tick of a machine at the start of a timer cycle. -/
theorem elapse_frameTime (h : s.machine.clock = .timers) :
    s.machine.elapse frameTime = ⟨s.machine.tick.2, 1, s.machine.tick.1.calls⟩ :=
  elapse_period h

end Headless.Session

namespace InPlace.FrameLoop

variable {s : Session}

theorem makeSteps_eq (s : Session) :
    s.makeSteps = after { s with pace := (s.pace.elapse Session.frameTime).2 }
      (s.machine.run (s.pace.elapse Session.frameTime).1.toNat s.script.keypad) := rfl

/-- The session after one more step of a batch. -/
theorem after_step (s : Session) (o : Outcome) (pad : Keypad) :
    after s (o.step pad) = after (after s o) (o.machine.step pad) := by
  simp [after, Session.noteMachine, Outcome.step, Array.append_assoc]

/-- Steps one by one end where a batch ends. -/
theorem steps_after (s : Session) {o : Outcome} (h : o.stopped = false) (n : Nat) :
    (steps n (after s o)).1 = after s (o.steps s.script.keypad n) := by
  induction n generalizing o with
  | zero => rfl
  | succ n ih =>
    have hnext : after (after s o) ((after s o).machine.step (after s o).script.keypad) =
        after s (o.step s.script.keypad) := (after_step s o s.script.keypad).symm
    have hstopped : ((after s o).machine.step (after s o).script.keypad).stopped =
        (o.step s.script.keypad).stopped := rfl
    rw [Outcome.steps_succ _ n h, steps, hnext, hstopped]
    cases hend : (o.step s.script.keypad).stopped with
    | true =>
      rw [Outcome.steps_of_stopped _ n hend]
      rfl
    | false => exact ih hend

/-- What is made of a batch is its results, in order. -/
theorem actions_steps (s : Session) (n : Nat) :
    (steps n s).2 = (Machine.batchResults s.script.keypad n s.machine).map
      (.step s.script.keypad) := by
  induction n generalizing s with
  | zero => rfl
  | succ n ih =>
    rw [steps, Machine.batchResults]
    cases hend : (s.machine.step s.script.keypad).stopped with
    | true => rfl
    | false => exact congrArg (_ :: ·) (ih _)

theorem steps_of_no_fault (h : s.fault = none) (n : Nat) :
    (steps n s).1 = after s (s.machine.run n s.script.keypad) := by
  have hstart : after s (.start s.machine) = s := by
    obtain ⟨machine, pace, script, buzzer, capture, records, fault⟩ := s
    subst h
    simp [after, Session.noteMachine, Outcome.start]
  have hsteps := steps_after s (o := .start s.machine) rfl n
  rwa [hstart] at hsteps

section Frames

variable {config : RunConfig} {number count : Nat} {fault : Option Fault}

/-- The keys that the script holds down in a frame. -/
def padIn (config : RunConfig) (frame : Nat) : Keypad :=
  (follow Script.advance (.ofEvents config.keys) (List.range (frame + 1))).1.keypad

def stepsOf (pad : Keypad) (flows : List Flow) : List Action :=
  flows.map fun flow => .step pad (.ok flow)

/-- What is done in a frame: the steps that are due, or those up to a wait for a key, then one tick
and a look at the draw flag; or the steps up to a fault and no more. -/
inductive Framed (config : RunConfig) (frame : Nat) : Option Fault → List Action → Prop
  | spent {flows : List Flow} (tone : Tone) (drawn : Bool) (hgoing : .awaitKey ∉ flows)
      (hlength : flows.length = config.stepsIn frame) :
      Framed config frame none (.playKeys frame :: stepsOf (padIn config frame) flows ++
        [.tick tone, .look drawn])
  | waited {flows : List Flow} (tone : Tone) (drawn : Bool) (hgoing : .awaitKey ∉ flows)
      (hlength : flows.length < config.stepsIn frame) :
      Framed config frame none (.playKeys frame :: stepsOf (padIn config frame) flows ++
        [.step (padIn config frame) (.ok .awaitKey), .tick tone, .look drawn])
  | faulted {flows : List Flow} (fault : Fault) (hgoing : .awaitKey ∉ flows)
      (hlength : flows.length < config.stepsIn frame) :
      Framed config frame (some fault) (.playKeys frame :: stepsOf (padIn config frame) flows ++
        [.step (padIn config frame) (.error fault)])

/-- What is done in up to `count` frames from a given one on. A fault ends the frames. -/
inductive Ran (config : RunConfig) : Nat → Nat → Option Fault → List (List Action) → Prop
  | done (next : Nat) : Ran config next 0 none []
  | stopped {next count : Nat} {fault : Fault} {actions : List Action}
      (h : Framed config next (some fault) actions) :
      Ran config next (count + 1) (some fault) [actions]
  | frame {next count : Nat} {fault : Option Fault} {actions : List Action}
      {later : List (List Action)} (h : Framed config next none actions)
      (hlater : Ran config (next + 1) count fault later) :
      Ran config next (count + 1) fault (actions :: later)

/-- A session before a frame that no fault has kept it from. -/
structure At (config : RunConfig) (frame : Nat) (s : Session) : Prop where
  period : s.pace.period = config.frequency.period
  carries : s.pace.Carries frame
  script : s.script = (follow Script.advance (.ofEvents config.keys) (List.range frame)).1
  clock : s.machine.clock = .timers
  fault : s.fault = none

theorem At.due (h : At config number s) :
    (s.pace.elapse Session.frameTime).1.toNat = config.stepsIn number := by
  have hnanos : config.stepNanos = s.pace.period.nanos := congrArg Duration.nanos h.period.symm
  rw [RunConfig.stepsIn, hnanos]
  by_cases hp : s.pace.period = .zero
  · have hzero : s.pace.period.nanos = 0 := congrArg Duration.nanos hp
    rw [Clock.elapse, if_pos hp, if_pos hzero]
    rfl
  · rw [if_neg (Nat.ne_of_gt (Clock.period_pos hp)), h.carries.toNat_due hp]

/-- The time of a frame is one tick for the timers, and leaves the machine as it is. -/
theorem clock_frameTime {m : Machine} (h : m.clock = .timers) :
    m.clock.advance Session.frameTime = .ok (1, .timers) ∧
      { m with clock := .timers } = m := by
  obtain ⟨processor, clock, random, config⟩ := m
  subst h
  exact ⟨Headless.advance_timers, rfl⟩

/-- The tick of a frame is the one that the session makes. -/
theorem ticks_one (h : s.machine.clock = .timers) :
    ticks 1 s = (s.makeTicks, [.tick s.machine.tick.1]) := by
  have htick : (tick s).1 = s.makeTicks := by
    rw [Session.makeTicks, Session.elapse_frameTime h]
    rfl
  rw [← htick]
  rfl

theorem look_eq (s : Session) : look s = (s.present, .look s.machine.processor.drawn) := rfl

theorem clock_makeSteps (h : s.machine.clock = .timers) : s.makeSteps.machine.clock = .timers := by
  refine Machine.run_induction (P := fun n => n.clock = .timers) (fun n hn => ?_) h _
  rw [Machine.clock_step, hn]

theorem clock_present (h : s.machine.clock = .timers) :
    s.makeTicks.present.machine.clock = .timers := by
  have hclock : (s.machine.elapse Session.frameTime).machine.clock = .timers := by
    rw [Session.elapse_frameTime h]
    exact h
  exact hclock

theorem kept_present (s : Session) :
    s.makeTicks.present.pace = s.pace ∧ s.makeTicks.present.script = s.script ∧
      s.makeTicks.present.fault = s.fault := ⟨rfl, rfl, rfl⟩

theorem kept_makeSteps (s : Session) :
    s.makeSteps.pace = (s.pace.elapse Session.frameTime).2 ∧ s.makeSteps.script = s.script :=
  ⟨rfl, rfl⟩

theorem At.script_playKeys (h : At config number s) :
    (s.playKeys number).script =
      (follow Script.advance (.ofEvents config.keys) (List.range (number + 1))).1 := by
  rw [List.range_succ, Headless.follow_concat, ← h.script]
  rfl

theorem At.keypad_playKeys (h : At config number s) :
    (s.playKeys number).script.keypad = padIn config number :=
  congrArg Script.keypad h.script_playKeys

/-- The results of the steps in a frame. -/
def resultsIn (config : RunConfig) (frame : Nat) (s : Session) : Machine.History :=
  Machine.batchResults (padIn config frame) (config.stepsIn frame) s.machine

/-- The steps of a frame end where those of the session end. -/
theorem At.steps_eq (h : At config number s) :
    steps (config.stepsIn number)
        { s.playKeys number with pace := (s.pace.elapse Session.frameTime).2 } =
      ((s.playKeys number).makeSteps,
        (resultsIn config number s).map (.step (padIn config number))) := by
  rw [← h.keypad_playKeys]
  refine Prod.ext ?_ ?_
  · rw [steps_of_no_fault (by exact h.fault), makeSteps_eq, ← h.due]
    rfl
  · rw [actions_steps, resultsIn, ← h.keypad_playKeys]
    rfl

theorem At.fault_makeSteps (h : At config number s) :
    (s.playKeys number).makeSteps.fault =
      (match (resultsIn config number s).getLast?.getD (.ok .next) with
        | .error fault => some fault
        | .ok _ => none) := by
  rw [resultsIn, ← Machine.result_run, ← h.keypad_playKeys, ← h.due]
  rfl

/-- What the steps of a frame do. -/
theorem At.plays_steps (h : At config number s) :
    Plays s.console
      (.playKeys number :: (resultsIn config number s).map (.step (padIn config number)))
      (s.playKeys number).makeSteps.console := by
  have hplays := FrameLoop.plays_steps (config.stepsIn number)
    { s.playKeys number with pace := (s.pace.elapse Session.frameTime).2 }
  rw [h.steps_eq] at hplays
  exact .cons (.playKeys s.console number) hplays

/-- The results of a frame and what follows them, if no fault has ended the run. -/
theorem At.framed (h : At config number s) (tone : Tone) (drawn : Bool) :
    Framed config number (s.playKeys number).makeSteps.fault
      (.playKeys number :: (resultsIn config number s).map (.step (padIn config number)) ++
        if (s.playKeys number).makeSteps.fault.isSome then [] else [.tick tone, .look drawn]) := by
  have hbudgeted := Machine.budgeted_batchResults s.machine (padIn config number)
    (config.stepsIn number)
  rw [h.fault_makeSteps, resultsIn]
  generalize Machine.batchResults (padIn config number) (config.stepsIn number) s.machine = results
    at hbudgeted
  cases hbudgeted with
  | spent flows hgoing hlength =>
    have hframed : Framed config number _ _ := .spent tone drawn hgoing hlength
    cases hlast : flows.getLast? <;> simpa [stepsOf, Function.comp_def, hlast] using hframed
  | waited flows hgoing hlength =>
    have hframed : Framed config number _ _ := .waited tone drawn hgoing hlength
    simpa [stepsOf, Function.comp_def] using hframed
  | faulted flows fault hgoing hlength =>
    have hframed : Framed config number _ _ := .faulted fault hgoing hlength
    simpa [stepsOf, Function.comp_def] using hframed

/-- The step lemma: a frame of the loop is a frame of the session, does what is due in it and
nothing else. -/
theorem At.frame (h : At config number s) :
    ∃ actions, FrameLoop.frame s number = .ok (s.frame number, actions) ∧
      Framed config number (s.frame number).fault actions ∧
      Plays s.console actions (s.frame number).console ∧
      ((s.frame number).fault = none → At config (number + 1) (s.frame number)) := by
  have hadvance : (s.playKeys number).pace.advance Session.frameTime =
      .ok (s.pace.elapse Session.frameTime) := h.carries.advance
  have hclock := clock_makeSteps (s := s.playKeys number) h.clock
  have hframed := h.framed
  have hplays := h.plays_steps
  simp only [FrameLoop.frame, hadvance, bind, Except.bind, h.due, h.steps_eq, Session.frame]
  generalize hstepped : (s.playKeys number).makeSteps = stepped at hclock hframed hplays ⊢
  by_cases hfault : stepped.fault.isSome = true
  · -- a fault ends the frame before its tick
    simp only [if_pos hfault] at hframed ⊢
    refine ⟨_, rfl, ?_, hplays, fun hnone => ?_⟩
    · simpa using hframed .silent false
    · rw [hnone] at hfault
      cases hfault
  · obtain ⟨htime, hkept⟩ := clock_frameTime hclock
    have hone : (1 : UInt32).toNat = 1 := rfl
    have htick := FrameLoop.plays_ticks 1 stepped
    have hlook := FrameLoop.plays_look stepped.makeTicks
    rw [ticks_one hclock] at htick
    rw [look_eq] at hlook
    simp only [if_neg hfault, htime, hkept, hone, ticks_one hclock, look_eq] at hframed ⊢
    refine ⟨_, rfl, ?_, (hplays.append htick).append hlook, fun hnone => ?_⟩
    · rw [(kept_present stepped).2.2]
      simpa using hframed stepped.machine.tick.1 stepped.makeTicks.machine.processor.drawn
    · obtain ⟨hpace, hscript, -⟩ := kept_present stepped
      obtain ⟨hpaced, hscripted⟩ := kept_makeSteps (s.playKeys number)
      rw [hstepped] at hpaced hscripted
      refine ⟨?_, ?_, ?_, clock_present hclock, hnone⟩
      · rw [hpace, hpaced, Clock.period_elapse]
        exact h.period
      · rw [hpace, hpaced]
        exact h.carries.elapse
      · rw [hscript, hscripted, h.script_playKeys]

/-- The run lemma. -/
theorem At.frames (h : At config number s) (count : Nat) :
    ∃ transcript,
      FrameLoop.frames count number s = .ok (Session.frames count number s, transcript) ∧
      Ran config number count (Session.frames count number s).fault transcript ∧
      Plays s.console transcript.flatten (Session.frames count number s).console := by
  induction count generalizing number s with
  | zero =>
    refine ⟨[], rfl, ?_, .nil s.console⟩
    rw [Session.frames, h.fault]
    exact .done number
  | succ count ih =>
    obtain ⟨actions, hframe, hframed, hplays, hnext⟩ := h.frame
    rw [FrameLoop.frames, hframe, Session.frames_succ h.fault]
    simp only [bind, Except.bind]
    cases hfault : (s.frame number).fault with
    | some fault =>
      rw [hfault] at hframed
      have hend : Session.frames count (number + 1) (s.frame number) = s.frame number :=
        Session.frames_of_fault (by rw [hfault]; rfl) count (number + 1)
      rw [hend, hfault]
      exact ⟨[actions], rfl, .stopped hframed, by simpa using hplays⟩
    | none =>
      rw [hfault] at hframed
      obtain ⟨later, hlater, hran, hrest⟩ := ih (hnext hfault)
      rw [hlater]
      exact ⟨actions :: later, rfl, .frame hframed hran, hplays.append hrest⟩

end Frames

section Totals

variable {config : RunConfig} {number next count : Nat} {fault : Option Fault}
  {actions : List Action} {transcript : List (List Action)}

def stepTotal (transcript : List (List Action)) : Nat := transcript.flatten.countP Action.isStep

def tickTotal (transcript : List (List Action)) : Nat := transcript.flatten.countP Action.isTick

theorem countP_stepsOf (pad : Keypad) (flows : List Flow) :
    (stepsOf pad flows).countP Action.isStep = flows.length := by
  simp [stepsOf, List.countP_map, Function.comp_def, Action.isStep]

theorem countP_isTick_stepsOf (pad : Keypad) (flows : List Flow) :
    (stepsOf pad flows).countP Action.isTick = 0 := by
  simp [stepsOf, Function.comp_def, Action.isTick]

theorem Framed.countP_le (h : Framed config number fault actions) :
    actions.countP Action.isStep ≤ config.stepsIn number := by
  cases h with
  | spent tone drawn _ hlength => simp [countP_stepsOf, Action.isStep, hlength]
  | waited tone drawn _ hlength =>
    simp [countP_stepsOf, Action.isStep, List.countP_cons]
    omega
  | faulted fault _ hlength =>
    simp [countP_stepsOf, Action.isStep, List.countP_cons]
    omega

/-- Where no step waits for a key, all steps that are due are made. -/
theorem Framed.countP_eq (h : Framed config number none actions)
    (hgoing : ∀ a ∈ actions, a.stalls = false) :
    actions.countP Action.isStep = config.stepsIn number := by
  cases h with
  | spent tone drawn _ hlength => simp [countP_stepsOf, Action.isStep, hlength]
  | waited =>
    have hstalls := hgoing (.step (padIn config number) (.ok .awaitKey)) (by simp)
    cases hstalls

theorem Framed.countP_isTick (h : Framed config number none actions) :
    actions.countP Action.isTick = 1 := by
  cases h <;> simp [countP_isTick_stepsOf, Action.isTick, List.countP_cons]

theorem stepTotal_cons (actions : List Action) (later : List (List Action)) :
    stepTotal (actions :: later) = actions.countP Action.isStep + stepTotal later := by
  rw [stepTotal, List.flatten_cons, List.countP_append, stepTotal]

theorem tickTotal_cons (actions : List Action) (later : List (List Action)) :
    tickTotal (actions :: later) = actions.countP Action.isTick + tickTotal later := by
  rw [tickTotal, List.flatten_cons, List.countP_append, tickTotal]

theorem Ran.stepTotal_le (h : Ran config next count fault transcript) :
    config.stepsBy next + stepTotal transcript ≤ config.stepsBy (next + count) := by
  induction h with
  | done => exact Nat.le_refl _
  | @stopped next count _ actions h =>
    have hsteps := h.countP_le
    have hdue := config.stepsBy_succ next
    have hlater := config.stepsBy_le (next + 1) count
    have hnone : stepTotal [] = 0 := rfl
    have hend : next + (count + 1) = next + 1 + count := by omega
    rw [stepTotal_cons, hnone, hend]
    omega
  | @frame next count _ actions later h _ ih =>
    have hsteps := h.countP_le
    have hdue := config.stepsBy_succ next
    have hend : next + (count + 1) = next + 1 + count := by omega
    rw [stepTotal_cons, hend]
    omega

theorem Ran.stepTotal_eq (h : Ran config next count none transcript)
    (hgoing : ∀ a ∈ transcript.flatten, a.stalls = false) :
    config.stepsBy next + stepTotal transcript = config.stepsBy (next + count) := by
  generalize hnone : (none : Option Fault) = fault at h
  induction h with
  | done => rfl
  | stopped => cases hnone
  | @frame next count _ actions later h _ ih =>
    simp only [List.flatten_cons, List.mem_append] at hgoing
    have hsteps := h.countP_eq fun a ha => hgoing a (.inl ha)
    have hlater := ih (fun a ha => hgoing a (.inr ha)) hnone
    have hdue := config.stepsBy_succ next
    have hend : next + (count + 1) = next + 1 + count := by omega
    rw [stepTotal_cons, hend]
    omega

theorem Ran.tickTotal_eq (h : Ran config next count none transcript) :
    tickTotal transcript = count := by
  generalize hnone : (none : Option Fault) = fault at h
  induction h with
  | done => rfl
  | stopped => cases hnone
  | frame h _ ih => rw [tickTotal_cons, h.countP_isTick, ih hnone, Nat.add_comm]

end Totals

theorem at_start (config : RunConfig) (entropy : Random.Key) (program : List UInt8) :
    At config 0 (.start config ((Machine.new config.machine entropy).load program).machine) := by
  obtain ⟨memory, hload⟩ := (Machine.new config.machine entropy).exists_memory_load program
  rw [hload]
  refine ⟨rfl, ⟨fun hp => ?_, config.stepNanos_le⟩, rfl, rfl, rfl⟩
  rw [Nat.zero_mul, Nat.zero_mod]
  rfl

/-- A run does what its schedule says, whatever the program does. The loop over its frames makes
the same session as the run, and its clocks never have too much time to account for. A frame that is
not cut short by a fault makes one tick, and the steps that are due in it under the keys of its
script, or those up to a wait for a key; none of them is made up for in a later frame. A fault is
the last that is done. Machine, buzzer and capture are at the end what the steps, ticks and looks of
the transcript make of the loaded machine, a silent buzzer and an empty capture. So a run of `count`
frames without a fault makes `count` ticks. No run makes more steps than are due in its frames, and
one that neither waits nor faults makes all of them. -/
theorem frames_follow_schedule (config : RunConfig) (entropy : Random.Key) (program : List UInt8)
    (count : Nat) :
    let loaded := ((Machine.new config.machine entropy).load program).machine
    let first := Session.start config loaded
    let last := Session.frames count 0 first
    ∃ transcript, frames count 0 first = .ok (last, transcript) ∧
      Ran config 0 count last.fault transcript ∧
      Plays ⟨loaded, .silent, .empty⟩ transcript.flatten
        ⟨last.machine, last.buzzer, last.capture⟩ ∧
      (last.fault = none → tickTotal transcript = count) ∧
      stepTotal transcript ≤ config.stepsBy count ∧
      (last.fault = none → (∀ a ∈ transcript.flatten, a.stalls = false) →
        stepTotal transcript = config.stepsBy count) := by
  intro loaded first last
  obtain ⟨transcript, hframes, hran, hplays⟩ := (at_start config entropy program).frames count
  have hzero : config.stepsBy 0 = 0 := by
    rw [RunConfig.stepsBy]
    split
    · rfl
    · rw [Nat.zero_mul, Nat.zero_div]
  refine ⟨transcript, hframes, hran, hplays, fun hnone => ?_, ?_, fun hnone hgoing => ?_⟩
  · rw [hnone] at hran
    exact hran.tickTotal_eq
  · have hle := hran.stepTotal_le
    rwa [hzero, Nat.zero_add, Nat.zero_add] at hle
  · rw [hnone] at hran
    have heq := hran.stepTotal_eq hgoing
    rwa [hzero, Nat.zero_add, Nat.zero_add] at heq

/-- At 500 steps a second some frames make one more than others. -/
example : (List.range 4).map RunConfig.default.stepsIn = [8, 8, 8, 9] := by decide

end InPlace.FrameLoop

end ChipEight

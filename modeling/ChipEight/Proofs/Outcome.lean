import ChipEight.Proofs.Presented
import ChipEight.Proofs.Schedule

/-!
# The outcome of a run

A run fails at the first of four stages, with one error in its log, or it completes. The screen is
printed once where the program was loaded: after a fault it is the one that the faulting instruction
found, otherwise the one after the last frame, and the line before it sums up the run. Machine and
devices log neither errors nor summaries, so what a report tells of the end of a run it tells only
there.
-/
namespace ChipEight

open Headless (Session)

theorem ByteArray.length_toList (bytes : ByteArray) : bytes.toList.length = bytes.size := by
  have hloop : ∀ i read, (ByteArray.toList.loop bytes i read).length =
      read.length + (bytes.size - i) := by
    intro i read
    fun_induction ByteArray.toList.loop bytes i read with
    | case1 i read h ih =>
      rw [ih, List.length_cons]
      omega
    | case2 i read h =>
      rw [List.length_reverse]
      omega
  rw [ByteArray.toList, hloop, List.length_nil]
  omega

namespace Machine

variable {m : Machine} {pad : Keypad} {fault : Fault} {count step : Nat}

/-- A batch ends with the first of its steps that faults. -/
theorem run_of_fault (hstep : step < count) (hgoing : (m.run step pad).stopped = false)
    (hfault : ((m.run step pad).machine.step pad).result = .error fault) :
    m.run count pad = (m.run step pad).step pad := by
  obtain ⟨rest, rfl⟩ : ∃ rest, count = step + (rest + 1) := ⟨count - step - 1, by omega⟩
  have hend : ((m.run step pad).step pad).stopped = true :=
    (Outcome.stopped_iff _).mpr (.inl ⟨fault, hfault⟩)
  calc m.run (step + (rest + 1)) pad
      = (m.run step pad).steps pad (rest + 1) := Outcome.steps_add pad step (rest + 1) _
    _ = ((m.run step pad).step pad).steps pad rest := Outcome.steps_succ pad rest hgoing
    _ = (m.run step pad).step pad := Outcome.steps_of_stopped pad rest hend

/-- A batch that ends with a fault has a step that faults. -/
theorem exists_fault_of_run (h : (m.run count pad).result = .error fault) :
    ∃ step < count, (m.run step pad).stopped = false ∧
      ((m.run step pad).machine.step pad).result = .error fault := by
  induction count with
  | zero => cases h
  | succ count ih =>
    have hlast : m.run (count + 1) pad = (m.run count pad).steps pad 1 :=
      Outcome.steps_add pad count 1 _
    rw [hlast] at h
    cases hstopped : (m.run count pad).stopped with
    | true =>
      rw [Outcome.steps_of_stopped pad 1 hstopped] at h
      obtain ⟨step, hstep, hfound⟩ := ih h
      exact ⟨step, by omega, hfound⟩
    | false =>
      rw [Outcome.steps_succ pad 0 hstopped] at h
      exact ⟨count, by omega, hstopped, h⟩

end Machine

namespace Log

/-- No record is an error, and none is by the command. -/
def Quiet (records : List Record) : Prop :=
  ∀ r ∈ records, r.level ≠ .error ∧ r.source ≠ .command

theorem Quiet.append {before after : List Record} (hbefore : Quiet before) (hafter : Quiet after) :
    Quiet (before ++ after) := by
  intro r hr
  rcases List.mem_append.mp hr with hin | hin
  · exact hbefore r hin
  · exact hafter r hin

theorem quiet_devices (events : List Headless.Event) :
    Quiet (events.map Headless.Event.record) := by
  refine List.forall_mem_map.mpr fun e _ => ?_
  cases e <;> exact ⟨Level.noConfusion, Source.noConfusion⟩

theorem quiet_machine (events : List Machine.Event) :
    Quiet (events.map Machine.Event.record) := by
  refine List.forall_mem_map.mpr fun e _ => ?_
  cases e <;> exact ⟨Level.noConfusion, Source.noConfusion⟩

end Log

namespace Headless.Session

open Log (Quiet quiet_devices quiet_machine)

variable {s : Session}

theorem frames_add (s : Session) (count more next : Nat) :
    frames (count + more) next s = frames more (next + count) (frames count next s) := by
  induction count generalizing s next with
  | zero => rw [Nat.zero_add, Nat.add_zero, frames]
  | succ count ih =>
    cases hfault : s.fault with
    | some fault =>
      have hsome : s.fault.isSome = true := by rw [hfault]; rfl
      rw [frames_of_fault hsome, frames_of_fault hsome, frames_of_fault hsome]
    | none =>
      rw [Nat.succ_add, frames_succ hfault, frames_succ hfault, ih]
      congr 1
      omega

/-- What a frame adds to the records is noted by the machine and its devices. -/
theorem records_frame (s : Session) (number : Nat) :
    ∃ (keys : List Event) (steps : List Machine.Event) (tones : List Event),
      (s.frame number).records.toList = s.records.toList ++ (keys.map Event.record ++
        steps.map Machine.Event.record ++ tones.map Event.record) := by
  obtain ⟨keys, hkeys⟩ : ∃ keys : List Event, (s.playKeys number).records =
      s.records ++ (keys.map Event.record).toArray := ⟨_, rfl⟩
  obtain ⟨steps, hsteps⟩ : ∃ steps : Array Machine.Event, (s.playKeys number).makeSteps.records =
      (s.playKeys number).records ++ steps.map Machine.Event.record := ⟨_, rfl⟩
  obtain ⟨tones, htones⟩ : ∃ tones : List Event,
      (s.playKeys number).makeSteps.makeTicks.present.records =
        (s.playKeys number).makeSteps.records ++ (tones.map Event.record).toArray := ⟨_, rfl⟩
  rw [Session.frame]
  split
  · exact ⟨keys, steps.toList, [], by simp [hsteps, hkeys]⟩
  · exact ⟨keys, steps.toList, tones, by simp [htones, hsteps, hkeys]⟩

theorem quiet_frames (h : Quiet s.records.toList) (count next : Nat) :
    Quiet (frames count next s).records.toList := by
  induction count generalizing s next with
  | zero => exact h
  | succ count ih =>
    rw [frames]
    split
    · exact h
    · refine ih ?_ (next + 1)
      obtain ⟨keys, steps, tones, hrecords⟩ := s.records_frame next
      rw [hrecords]
      exact h.append (((quiet_devices keys).append (quiet_machine steps)).append
        (quiet_devices tones))

end Headless.Session

namespace InPlace

/-- The action is a step that faults. -/
def Action.faults : Action → Bool
  | .step _ (.error _) => true
  | _ => false

namespace FrameLoop

variable {config : RunConfig} {s first : Session} {number next count frame step : Nat}
  {m : Machine} {fault : Fault} {ending : Option Fault} {actions : List Action}
  {transcript : List (List Action)}

/-- Step number `step` of frame number `frame`, both from zero, is made by the machine `m` and ends
in a fault. All frames before are without a fault, and no step before ends the frame. -/
structure FaultsAt (config : RunConfig) (first : Session) (frame step : Nat) (m : Machine)
    (fault : Fault) : Prop where
  frame_lt : frame < config.frames
  step_lt : step < config.stepsIn frame
  before : (Session.frames frame 0 first).fault = none
  going : ((Session.frames frame 0 first).machine.run step (padIn config frame)).stopped = false
  machine : m = ((Session.frames frame 0 first).machine.run step (padIn config frame)).machine
  fault : (m.step (padIn config frame)).result = .error fault

theorem At.makeSteps (h : At config number s) :
    (s.playKeys number).makeSteps =
      after { s.playKeys number with pace := (s.pace.elapse Session.frameTime).2 }
        (s.machine.run (config.stepsIn number) (padIn config number)) := by
  rw [makeSteps_eq, ← h.due, ← h.keypad_playKeys]
  rfl

theorem At.follow (h : At config number s) (count : Nat)
    (hnone : (Session.frames count number s).fault = none) :
    At config (number + count) (Session.frames count number s) := by
  induction count with
  | zero => exact h
  | succ count ih =>
    rw [Session.frames_add] at hnone ⊢
    cases hfault : (Session.frames count number s).fault with
    | some fault =>
      rw [Session.frames_of_fault (by rw [hfault]; rfl), hfault] at hnone
      cases hnone
    | none =>
      obtain ⟨-, -, -, -, hnext⟩ := (ih hfault).frame
      rw [Session.frames_succ hfault] at hnone ⊢
      exact hnext hnone

/-- A step that faults ends the run, with the screen that it found. -/
theorem FaultsAt.ends (hstart : At config 0 first) (h : FaultsAt config first frame step m fault) :
    (Session.frames config.frames 0 first).fault = some fault ∧
      (Session.frames config.frames 0 first).machine.processor.screen = m.processor.screen := by
  obtain ⟨rest, hrest⟩ : ∃ rest, config.frames = frame + (rest + 1) :=
    ⟨config.frames - frame - 1, by have := h.frame_lt; omega⟩
  have hs : At config frame (Session.frames frame 0 first) := by
    simpa using hstart.follow frame h.before
  have hstep := h.fault
  have hrun := Machine.run_of_fault h.step_lt h.going (by rw [← h.machine]; exact hstep)
  have hsteps := hs.makeSteps
  rw [hrun] at hsteps
  have hfault : ((Session.frames frame 0 first).playKeys frame).makeSteps.fault = some fault := by
    rw [hsteps]
    simp only [after, Session.noteMachine, Machine.Outcome.step, ← h.machine, hstep]
  have hscreen :
      ((Session.frames frame 0 first).playKeys frame).makeSteps.machine.processor.screen =
      m.processor.screen := by
    rw [hsteps]
    simp only [after, Session.noteMachine, Machine.Outcome.step, ← h.machine]
    rw [(Machine.step_of_fault hstep).1]
    rfl
  have hframe : (Session.frames frame 0 first).frame frame =
      ((Session.frames frame 0 first).playKeys frame).makeSteps :=
    if_pos (by rw [hfault]; rfl)
  have hlast : Session.frames config.frames 0 first =
      ((Session.frames frame 0 first).playKeys frame).makeSteps := by
    rw [hrest, Session.frames_add, Session.frames_succ h.before, Nat.zero_add, hframe]
    exact Session.frames_of_fault (by rw [hfault]; rfl) _ _
  rw [hlast]
  exact ⟨hfault, hscreen⟩

/-- A run that ends in a fault has a step that faults. -/
theorem exists_faultsAt (hstart : At config 0 first) (hcount : count ≤ config.frames)
    (h : (Session.frames count 0 first).fault = some fault) :
    ∃ frame step m, FaultsAt config first frame step m fault := by
  induction count with
  | zero =>
    rw [Session.frames, hstart.fault] at h
    cases h
  | succ count ih =>
    rw [Session.frames_add, Nat.zero_add] at h
    cases hfault : (Session.frames count 0 first).fault with
    | some found =>
      rw [Session.frames_of_fault (by rw [hfault]; rfl)] at h
      exact ih (Nat.le_of_succ_le hcount) h
    | none =>
      have hs : At config count (Session.frames count 0 first) := by
        simpa using hstart.follow count hfault
      rw [Session.frames_succ hfault, Session.frames] at h
      have hsteps : ((Session.frames count 0 first).playKeys count).makeSteps.fault =
          some fault := by
        rw [Session.frame] at h
        split at h
        · exact h
        · exact h
      rw [hs.makeSteps] at hsteps
      cases hresult : ((Session.frames count 0 first).machine.run (config.stepsIn count)
          (padIn config count)).result with
      | ok flow =>
        simp only [after, Session.noteMachine, hresult] at hsteps
        cases hsteps
      | error found =>
        simp only [after, Session.noteMachine, hresult] at hsteps
        cases hsteps
        obtain ⟨step, hstep, hgoing, hfound⟩ := Machine.exists_fault_of_run hresult
        exact ⟨count, step, _, hcount, hstep, hfault, hgoing, rfl, hfound⟩

theorem faults_stepsOf (pad : Keypad) (flows : List Flow) :
    ∀ a ∈ stepsOf pad flows, a.faults = false :=
  List.forall_mem_map.mpr fun _ _ => rfl

theorem Framed.fault_eq_none_iff (h : Framed config number ending actions) :
    ending = none ↔ ∀ a ∈ actions, a.faults = false := by
  cases h with
  | spent tone drawn =>
    simpa [Action.faults, or_imp, forall_and] using faults_stepsOf _ _
  | waited tone drawn =>
    simpa [Action.faults, or_imp, forall_and] using faults_stepsOf _ _
  | faulted fault =>
    simp [Action.faults, or_imp, forall_and]

/-- A run is without a fault exactly if no step of its schedule faults. -/
theorem Ran.fault_eq_none_iff (h : Ran config next count ending transcript) :
    ending = none ↔ ∀ a ∈ transcript.flatten, a.faults = false := by
  induction h with
  | done => simp
  | stopped h =>
    rw [List.flatten_cons, List.flatten_nil, List.append_nil]
    exact h.fault_eq_none_iff
  | frame h _ ih =>
    simp only [List.flatten_cons, List.mem_append, or_imp, forall_and]
    rw [ih]
    exact ⟨fun hlater => ⟨h.fault_eq_none_iff.mp rfl, hlater⟩, And.right⟩

end FrameLoop

end InPlace

namespace Command

open InPlace.FrameLoop (FaultsAt)
open Log (Quiet quiet_devices quiet_machine)

section Reports

/-- The records of a report that a filter lets through. -/
def Report.logged (r : Report) (filter : Log.Filter) : List Log.Record :=
  r.outputs.filterMap fun
    | .record e => if filter.shows e.level then some e else none
    | _ => none

def Report.screens (r : Report) : List Screen :=
  r.outputs.filterMap fun
    | .screen s => some s
    | _ => none

/-- The record sums up a run. -/
def IsSummary (e : Log.Record) : Prop :=
  ∃ frames presented lit, e = (Event.complete frames presented lit).record

/-- No record is an error, and none sums up a run. -/
def Ordinary (records : List Log.Record) : Prop :=
  ∀ e ∈ records, e.level ≠ .error ∧ ¬ IsSummary e

/-- What sums up a run of `frames` frames that ended in the session `last`. -/
def summary (frames : Nat) (last : Session) : Log.Record :=
  ⟨.info, .command,
    s!"ran {frames} frames, presented {last.capture.presented}, {last.capture.lit} pixels lit"⟩

/-- The report of a run that made all its frames and ended in the session `last`: its screen, and
right before it the line that sums up the run. -/
structure Completes (r : Report) (filter : Log.Filter) (frames : Nat) (last : Session)
    (earlier : List Log.Record) : Prop where
  code : r.code = 0
  logged : r.logged filter = earlier ++ [summary frames last]
  screens : r.screens = [last.machine.processor.screen]
  lines : r.lines filter = earlier.map Log.Record.line ++
    (summary frames last).line :: (last.machine.processor.screen.lines ++ [""])
  lit : last.capture.lit = last.machine.processor.screen.litCount
  earlier : Ordinary earlier

/-- The report of a run that failed, with the screen that it printed, if any. -/
structure Fails (r : Report) (filter : Log.Filter) (cause : Error) (screen : Option Screen)
    (earlier : List Log.Record) : Prop where
  code : r.code = 1
  logged : r.logged filter = earlier ++ [⟨.error, .command, cause.message⟩]
  screens : r.screens = screen.toList
  lines : r.lines filter = earlier.map Log.Record.line ++
    (screen.toList.flatMap fun s => s.lines ++ [""]) ++
      [(Log.Record.mk .error .command cause.message).line]
  earlier : Ordinary earlier

variable {before : List Log.Record} {filter : Log.Filter}

theorem Ordinary.append {after : List Log.Record} (hbefore : Ordinary before)
    (hafter : Ordinary after) : Ordinary (before ++ after) := by
  intro e he
  rcases List.mem_append.mp he with hin | hin
  · exact hbefore e hin
  · exact hafter e hin

theorem Ordinary.shown (h : Ordinary before) (filter : Log.Filter) :
    Ordinary (before.filter fun e => filter.shows e.level) :=
  fun e he => h e (List.mem_of_mem_filter he)

theorem ordinary_of_quiet (h : Quiet before) : Ordinary before := by
  intro e he
  refine ⟨(h e he).1, ?_⟩
  rintro ⟨frames, presented, lit, rfl⟩
  exact (h _ he).2 rfl

theorem ordinary_starting : Ordinary [Event.starting.record] := by
  intro e he
  obtain rfl := List.mem_singleton.mp he
  refine ⟨Log.Level.noConfusion, ?_⟩
  rintro ⟨frames, presented, lit, hsame⟩
  have htext := congrArg (fun e : Log.Record => e.text.toList.take 2) hsame
  have hran : (toString "ran ").toList = ['r', 'a', 'n', ' '] := rfl
  simp [Event.record, Event.text, hran] at htext

theorem ordinary_waiting : Ordinary [Event.waiting.record] := by
  intro e he
  obtain rfl := List.mem_singleton.mp he
  refine ⟨Log.Level.noConfusion, ?_⟩
  rintro ⟨frames, presented, lit, hsame⟩
  cases congrArg Log.Record.level hsame

theorem filterMap_logged (before : List Log.Record) (filter : Log.Filter) :
    (before.map Output.record).filterMap (fun
      | .record e => if filter.shows e.level then some e else none
      | _ => none) = before.filter fun e => filter.shows e.level := by
  rw [List.filterMap_map, ← List.filterMap_eq_filter]
  rfl

theorem flatMap_lines (before : List Log.Record) (filter : Log.Filter) :
    (before.map Output.record).flatMap (Output.lines filter) =
      (before.filter fun e => filter.shows e.level).map Log.Record.line := by
  induction before with
  | nil => rfl
  | cons e rest ih =>
    rw [List.map_cons, List.flatMap_cons, ih, List.filter_cons, Output.lines]
    split <;> rfl

theorem filterMap_screens (before : List Log.Record) :
    (before.map Output.record).filterMap (fun
      | .screen s => some s
      | _ => none) = ([] : List Screen) := by
  rw [List.filterMap_map, List.filterMap_eq_nil_iff]
  exact fun e _ => rfl

theorem fails_failure (hbefore : Ordinary before) (hshown : filter.shows .error = true)
    (cause : Error) (screen : Option Screen) :
    Fails (failure (before.map .record ++ screen.toList.map .screen) cause) filter cause screen
      (before.filter fun e => filter.shows e.level) where
  code := rfl
  logged := by
    rw [Report.logged, failure, List.filterMap_append, List.filterMap_append, filterMap_logged]
    cases screen <;> simp [Event.record, Event.level, Event.text, hshown]
  screens := by
    rw [Report.screens, failure, List.filterMap_append, List.filterMap_append, filterMap_screens]
    cases screen <;> rfl
  lines := by
    rw [Report.lines, failure, List.flatMap_append, List.flatMap_append, flatMap_lines]
    cases screen <;> simp [Output.lines, Event.record, Event.level, Event.text, hshown]
  earlier := hbefore.shown filter

theorem completes_of_outputs (hbefore : Ordinary before) (hshown : filter.shows .info = true)
    {last : Session} (hlit : last.capture.lit = last.machine.processor.screen.litCount)
    (frames : Nat) :
    Completes ⟨before.map .record ++
        [.record (summary frames last), .screen last.machine.processor.screen], 0⟩ filter frames
      last (before.filter fun e => filter.shows e.level) where
  code := rfl
  logged := by
    rw [Report.logged, List.filterMap_append, filterMap_logged]
    simp [summary, hshown]
  screens := by
    rw [Report.screens, List.filterMap_append, filterMap_screens]
    rfl
  lines := by
    rw [Report.lines, List.flatMap_append, flatMap_lines]
    simp [Output.lines, summary, hshown]
  lit := hlit
  earlier := hbefore.shown filter

end Reports

section Stages

/-- What comes of the configuration of a run, which may be left out. -/
inductive Configured (files : Files) : Option String → Except Error RunConfig → Prop
  | leftOut : Configured files none (.ok .default)
  | unreadable {name : String} {cause : FileError} (hfile : files name = .error cause) :
      Configured files (some name) (.error (.file cause))
  | notText {name : String} {bytes : ByteArray} (hfile : files name = .ok bytes)
      (htext : String.fromUTF8? bytes = none) : Configured files (some name) (.error .encoding)
  | refused {name : String} {bytes : ByteArray} {text : String} {cause : RunConfig.Error}
      (hfile : files name = .ok bytes) (htext : String.fromUTF8? bytes = some text)
      (hread : RunConfig.read text = .error cause) :
      Configured files (some name) (.error (.config cause))
  | accepted {name : String} {bytes : ByteArray} {text : String} {config : RunConfig}
      (hfile : files name = .ok bytes) (htext : String.fromUTF8? bytes = some text)
      (hread : RunConfig.read text = .ok config) : Configured files (some name) (.ok config)

/-- A run has its configuration, and its program is read and fits into memory. -/
structure Loads (files : Files) (rom : String) (option : Option String) (config : RunConfig)
    (program : ByteArray) : Prop where
  config : Configured files option (.ok config)
  file : files rom = .ok program
  size : program.size ≤ 3584

/-- Every stage of a run succeeds: its program is loaded and no step of its schedule faults. What
its schedule does to the machine and the devices leads to the session `last`. -/
structure Succeeds (files : Files) (entropy : Random.Key) (rom : String) (option : Option String)
    (config : RunConfig) (program : ByteArray) (last : Session) : Prop where
  loads : Loads files rom option config program
  steps : ∃ transcript, InPlace.FrameLoop.frames config.frames 0
      (firstSession entropy config program) = .ok (last, transcript) ∧
    InPlace.Plays (firstSession entropy config program).console transcript.flatten last.console ∧
    ∀ a ∈ transcript.flatten, a.faults = false

/-- The first stage at which a run fails: the error, and the screen before the instruction that
faulted, if the run came so far. -/
inductive FailsAt (files : Files) (entropy : Random.Key) (rom : String) (option : Option String) :
    Error → Option Screen → Prop
  | configuration {cause : Error} (hconfig : Configured files option (.error cause)) :
      FailsAt files entropy rom option cause none
  | reading {config : RunConfig} {cause : FileError}
      (hconfig : Configured files option (.ok config))
      (hprogram : files rom = .error cause) : FailsAt files entropy rom option (.file cause) none
  | size {config : RunConfig} {program : ByteArray} (hconfig : Configured files option (.ok config))
      (hprogram : files rom = .ok program) (hsize : 3584 < program.size) :
      FailsAt files entropy rom option (.machine (.programTooLarge program.size)) none
  | execution {config : RunConfig} {program : ByteArray} {frame step : Nat} {m : Machine}
      {fault : Fault} (hloads : Loads files rom option config program)
      (hfaults : FaultsAt config (firstSession entropy config program) frame step m fault) :
      FailsAt files entropy rom option (.machine (.fault fault)) (some m.processor.screen)

variable {files : Files} {entropy : Random.Key} {rom : String} {option : Option String}
  {config : RunConfig} {program : ByteArray} {filter : Log.Filter}

theorem configured_iff {result : Except Error RunConfig} :
    Configured files option result ↔ readConfig files option = result := by
  constructor
  · intro h
    cases h with
    | leftOut => rfl
    | unreadable hfile => simp only [readConfig, hfile]
    | notText hfile htext => simp only [readConfig, hfile, htext]
    | refused hfile htext hread => simp only [readConfig, hfile, htext, hread, Except.mapError]
    | accepted hfile htext hread => simp only [readConfig, hfile, htext, hread, Except.mapError]
  · rintro rfl
    cases option with
    | none => exact .leftOut
    | some name =>
      rw [readConfig]
      cases hfile : files name with
      | error cause => exact .unreadable hfile
      | ok bytes =>
        dsimp only
        cases htext : String.fromUTF8? bytes with
        | none => exact .notText hfile htext
        | some text =>
          dsimp only
          cases hread : RunConfig.read text with
          | error cause => exact .refused hfile htext hread
          | ok config => exact .accepted hfile htext hread

theorem readProgram_of_ok (h : files rom = .ok program) :
    readProgram files rom = .ok program.toList := by
  rw [readProgram, h]

/-- What is logged before the first frame. -/
theorem ordinary_noted (events : List Machine.Event) :
    Ordinary (Event.starting.record :: events.map Machine.Event.record) :=
  ordinary_starting.append (ordinary_of_quiet (quiet_machine events))

/-- A program that fits is run frame by frame. -/
theorem Loads.runProgram_eq (h : Loads files rom option config program) (entropy : Random.Key) :
    ∃ before : List Log.Record, Ordinary before ∧ runProgram files entropy rom option =
      runFrames (before.map .record) config
        ((Machine.new config.machine entropy).load program.toList).machine := by
  have hsize : program.toList.length ≤ 3584 := by
    rw [ByteArray.length_toList]
    exact h.size
  have hresult := ((Machine.new config.machine entropy).load_of_fits hsize).1
  refine ⟨_, ordinary_noted ((Machine.new config.machine entropy).load program.toList).events, ?_⟩
  rw [runProgram, configured_iff.mp h.config]
  dsimp only
  rw [readProgram_of_ok h.file]
  dsimp only
  rw [hresult]
  simp [noted, Function.comp_def]

/-- Frames end with their summary and the screen, or with the screen and the fault. -/
theorem runFrames_cases {before : List Log.Record} (hbefore : Ordinary before)
    (entropy : Random.Key) (config : RunConfig) (program : ByteArray) :
    let machine := ((Machine.new config.machine entropy).load program.toList).machine
    let last := lastSession entropy config program
    ∃ records : List Log.Record, Ordinary records ∧
      match last.fault with
      | some fault => runFrames (before.map .record) config machine =
          failure (records.map .record ++ [.screen last.machine.processor.screen])
            (.machine (.fault fault))
      | none => runFrames (before.map .record) config machine =
          ⟨records.map .record ++ [.record (summary config.frames last),
            .screen last.machine.processor.screen], 0⟩ := by
  intro machine last
  have hnone : Quiet [] := fun e he => nomatch he
  have hquiet : Quiet last.records.toList :=
    Session.quiet_frames (s := firstSession entropy config program) hnone config.frames 0
  have hrecords := hbefore.append (ordinary_of_quiet hquiet)
  cases hfault : last.fault with
  | some fault => exact ⟨_, hrecords, runFrames_of_fault program before hfault⟩
  | none =>
    have hwaiting : Ordinary
        (if last.machine.processor.waiting then [Event.waiting.record] else []) := by
      split
      · exact ordinary_waiting
      · exact fun e he => nomatch he
    refine ⟨_, hrecords.append (hwaiting.append
      (ordinary_of_quiet (quiet_devices (last.buzzer.turn false).2))),
        (runFrames_of_no_fault program before hfault).trans ?_⟩
    simp only [endOfRun, List.map_append, List.append_assoc]
    rfl

theorem FailsAt.fails {cause : Error} {screen : Option Screen}
    (h : FailsAt files entropy rom option cause screen) (hshown : filter.shows .error = true) :
    ∃ earlier, Fails (runProgram files entropy rom option) filter cause screen earlier := by
  cases h with
  | configuration hconfig =>
    rw [runProgram, configured_iff.mp hconfig]
    exact ⟨_, fails_failure ordinary_starting hshown cause none⟩
  | @reading config cause hconfig hprogram =>
    rw [runProgram, configured_iff.mp hconfig, readProgram]
    dsimp only
    rw [hprogram]
    exact ⟨_, fails_failure ordinary_starting hshown (.file cause) none⟩
  | @size config program hconfig hprogram hsize =>
    have hlarge : 3584 < program.toList.length := by
      rw [ByteArray.length_toList]
      exact hsize
    have hresult := ((Machine.new config.machine entropy).load_of_too_large hlarge).1
    rw [ByteArray.length_toList] at hresult
    have hfails := fails_failure
      (ordinary_noted ((Machine.new config.machine entropy).load program.toList).events) hshown
      (.machine (.programTooLarge program.size)) none
    rw [runProgram, configured_iff.mp hconfig]
    dsimp only
    rw [readProgram_of_ok hprogram]
    dsimp only
    rw [hresult]
    exact ⟨_, by simpa [noted, Function.comp_def] using hfails⟩
  | @execution config program _ _ m fault hloads hfaults =>
    obtain ⟨hfault, hscreen⟩ := hfaults.ends (InPlace.FrameLoop.at_start config entropy _)
    obtain ⟨before, hbefore, hrun⟩ := hloads.runProgram_eq entropy
    obtain ⟨records, hrecords, hframes⟩ := runFrames_cases hbefore entropy config program
    rw [lastSession, firstSession, hfault] at hframes
    rw [hrun, hframes, hscreen]
    exact ⟨_, fails_failure hrecords hshown (.machine (.fault fault)) (some m.processor.screen)⟩

theorem Succeeds.completes {last : Session}
    (h : Succeeds files entropy rom option config program last)
    (hshown : filter.shows .info = true) :
    ∃ earlier,
      Completes (runProgram files entropy rom option) filter config.frames last earlier := by
  obtain ⟨transcript, hloop, -, hsteps⟩ := h.steps
  have hstart := InPlace.FrameLoop.at_start config entropy program.toList
  obtain ⟨done, hframes, hran, -⟩ := hstart.frames config.frames
  obtain ⟨hlast, rfl⟩ := Prod.mk.inj (Except.ok.inj (hframes.symm.trans hloop))
  have hend : lastSession entropy config program = last := hlast
  have hnone : (lastSession entropy config program).fault = none :=
    hran.fault_eq_none_iff.mpr hsteps
  have hlit := lit_lastSession hnone
  obtain ⟨before, hbefore, hrun⟩ := h.loads.runProgram_eq entropy
  obtain ⟨records, hrecords, hreport⟩ := runFrames_cases hbefore entropy config program
  rw [hnone] at hreport
  rw [hend] at hlit hreport
  rw [hrun, hreport]
  exact ⟨_, completes_of_outputs hrecords hshown hlit config.frames⟩

theorem Loads.succeeds_or_failsAt (h : Loads files rom option config program) :
    (∃ last, Succeeds files entropy rom option config program last) ∨
      ∃ fault m, FailsAt files entropy rom option (.machine (.fault fault))
        (some (Machine.processor m).screen) := by
  have hstart := InPlace.FrameLoop.at_start config entropy program.toList
  obtain ⟨transcript, hframes, hran, hplays⟩ := hstart.frames config.frames
  cases hfault : (Session.frames config.frames 0 (firstSession entropy config program)).fault with
  | none =>
    exact .inl ⟨_, h, transcript, hframes, hplays, hran.fault_eq_none_iff.mp hfault⟩
  | some fault =>
    obtain ⟨frame, step, m, hfaults⟩ :=
      InPlace.FrameLoop.exists_faultsAt hstart (Nat.le_refl _) hfault
    exact .inr ⟨fault, m, .execution h hfaults⟩

/-- Every run succeeds at all its stages or fails at one of them. -/
theorem succeeds_or_failsAt (files : Files) (entropy : Random.Key) (rom : String)
    (option : Option String) :
    (∃ config program last, Succeeds files entropy rom option config program last) ∨
      ∃ cause screen, FailsAt files entropy rom option cause screen := by
  cases hconfig : readConfig files option with
  | error cause => exact .inr ⟨cause, none, .configuration (configured_iff.mpr hconfig)⟩
  | ok config =>
    cases hprogram : files rom with
    | error cause => exact .inr ⟨_, none, .reading (configured_iff.mpr hconfig) hprogram⟩
    | ok program =>
      by_cases hsize : program.size ≤ 3584
      · have hloads : Loads files rom option config program :=
          ⟨configured_iff.mpr hconfig, hprogram, hsize⟩
        rcases hloads.succeeds_or_failsAt with ⟨last, hsucceeds⟩ | ⟨fault, m, hfails⟩
        · exact .inl ⟨config, program, last, hsucceeds⟩
        · exact .inr ⟨_, _, hfails⟩
      · exact .inr ⟨_, none, .size (configured_iff.mpr hconfig) hprogram (by omega)⟩

/-- A stage that fails has a screen to show exactly if the program was loaded before. -/
theorem FailsAt.loads_iff {cause : Error} {screen : Option Screen}
    (h : FailsAt files entropy rom option cause screen) :
    (∃ config program, Loads files rom option config program) ↔ screen.isSome = true := by
  cases h with
  | execution hloads hfaults => exact iff_of_true ⟨_, _, hloads⟩ rfl
  | configuration hconfig =>
    refine iff_of_false ?_ Bool.false_ne_true
    rintro ⟨config, program, hloads⟩
    cases (configured_iff.mp hconfig).symm.trans (configured_iff.mp hloads.config)
  | reading hconfig hprogram =>
    refine iff_of_false ?_ Bool.false_ne_true
    rintro ⟨config, program, hloads⟩
    cases hprogram.symm.trans hloads.file
  | size hconfig hprogram hsize =>
    refine iff_of_false ?_ Bool.false_ne_true
    rintro ⟨config, program, hloads⟩
    obtain rfl := Except.ok.inj (hprogram.symm.trans hloads.file)
    have := hloads.size
    omega

/-- Where the log shows records of level `info`, a run ends in one of two ways. It ends with code 0
if its configuration is left out or accepted, its program is read and fits, and no step of its
schedule faults. Then the log is without an error, the screen is that of the machine after all
frames, and the only line that sums up the run comes right before it, with what was captured.
Otherwise it ends with code 1 and one error, that of the first stage that fails, and nothing sums it
up. The screen is printed once if the program was loaded and never else; after a fault it is the one
before the instruction that faulted. -/
theorem run_has_one_outcome (files : Files) (entropy : Random.Key) (rom : String)
    (rest : List String) {filter : Log.Filter}
    (hfilter : filter = some .info ∨ filter = some .debug) :
    let r := report files entropy ("run" :: rom :: rest)
    (r.code = 0 ↔
      ∃ config program last, Succeeds files entropy rom rest.head? config program last) ∧
    (r.code = 1 ↔ ∃ cause screen, FailsAt files entropy rom rest.head? cause screen) ∧
    (r.code = 0 ∨ r.code = 1) ∧
    (∀ config program last, Succeeds files entropy rom rest.head? config program last →
      ∃ earlier, Completes r filter config.frames last earlier) ∧
    (∀ cause screen, FailsAt files entropy rom rest.head? cause screen →
      ∃ earlier, Fails r filter cause screen earlier) ∧
    ((∃ screen, r.screens = [screen]) ↔
      ∃ config program, Loads files rom rest.head? config program) ∧
    ((∃ screen, r.screens = [screen]) ∨ r.screens = []) ∧
    ∀ fault, (Error.machine (.fault fault)).message =
      "application error: runtime error: " ++ fault.message := by
  intro r
  have hshown : filter.shows .error = true ∧ filter.shows .info = true := by
    rcases hfilter with rfl | rfl <;> exact ⟨rfl, rfl⟩
  have hcompletes : ∀ config program last,
      Succeeds files entropy rom rest.head? config program last →
        ∃ earlier, Completes r filter config.frames last earlier :=
    fun _ _ _ h => h.completes hshown.2
  have hfails : ∀ cause screen, FailsAt files entropy rom rest.head? cause screen →
      ∃ earlier, Fails r filter cause screen earlier := fun _ _ h => h.fails hshown.1
  have hmessage : ∀ fault, (Error.machine (.fault fault)).message =
      "application error: runtime error: " ++ fault.message := fun fault =>
    (@String.append_assoc "application error: " "runtime error: " fault.message).symm
  have hone : (1 : UInt32) ≠ 0 := by decide
  rcases succeeds_or_failsAt files entropy rom rest.head? with
    ⟨config, program, last, hsucceeds⟩ | ⟨cause, screen, hfailed⟩
  · obtain ⟨earlier, hend⟩ := hcompletes config program last hsucceeds
    have hnever : ¬ ∃ cause screen, FailsAt files entropy rom rest.head? cause screen := by
      rintro ⟨cause, screen, hfailed⟩
      obtain ⟨_, hlate⟩ := hfails cause screen hfailed
      exact hone (hlate.code.symm.trans hend.code)
    refine ⟨iff_of_true hend.code ⟨config, program, last, hsucceeds⟩, iff_of_false ?_ hnever,
      .inl hend.code, hcompletes, hfails, ?_, .inl ⟨_, hend.screens⟩, hmessage⟩
    · rw [hend.code]
      exact hone.symm
    · exact iff_of_true ⟨_, hend.screens⟩ ⟨config, program, hsucceeds.loads⟩
  · obtain ⟨earlier, hend⟩ := hfails cause screen hfailed
    have hnever : ¬ ∃ config program last,
        Succeeds files entropy rom rest.head? config program last := by
      rintro ⟨config, program, last, hsucceeds⟩
      obtain ⟨_, hlate⟩ := hcompletes config program last hsucceeds
      exact hone (hend.code.symm.trans hlate.code)
    refine ⟨iff_of_false ?_ hnever, iff_of_true hend.code ⟨cause, screen, hfailed⟩,
      .inr hend.code, hcompletes, hfails, ?_, ?_, hmessage⟩
    · rw [hend.code]
      exact hone
    · rw [hend.screens, hfailed.loads_iff]
      cases screen with
      | none => exact iff_of_false (fun ⟨_, h⟩ => nomatch h) Bool.false_ne_true
      | some screen => exact iff_of_true ⟨screen, rfl⟩ rfl
    · rw [hend.screens]
      cases screen with
      | none => exact .inr rfl
      | some screen => exact .inl ⟨screen, rfl⟩

/-- A program that returns without a call, and no configuration. -/
def returnFiles : Files
  | "return.rom" => .ok ⟨#[0x00, 0xEE]⟩
  | _ => .error .notFound

/-- A return without a call is the one error of its run, and the screen before it is blank. The run
of a program that draws a zero completes. -/
theorem outcomes_of_two_runs :
    (∃ earlier, Fails (report returnFiles (.ofSeed 0) ["run", "return.rom"]) (some .info)
      (.machine (.fault ⟨0x200, .stackUnderflow⟩)) (some .blank) earlier) ∧
    ∃ config program last earlier,
      Succeeds zeroFiles (.ofSeed 0) "zero.rom" (some "once.yaml") config program last ∧
      Completes (report zeroFiles (.ofSeed 0) ["run", "zero.rom", "once.yaml"]) (some .debug)
        config.frames last earlier := by
  constructor
  · obtain ⟨-, -, -, -, hfails, -⟩ := run_has_one_outcome returnFiles (.ofSeed 0) "return.rom" []
      (.inl (rfl : (some .info : Log.Filter) = some .info))
    have hloads : Loads returnFiles "return.rom" none .default ⟨#[0x00, 0xEE]⟩ :=
      ⟨.leftOut, rfl, by decide⟩
    have hfaults : FaultsAt .default (firstSession (.ofSeed 0) .default ⟨#[0x00, 0xEE]⟩) 0 0
        (firstSession (.ofSeed 0) .default ⟨#[0x00, 0xEE]⟩).machine ⟨0x200, .stackUnderflow⟩ :=
      ⟨by decide, by decide, rfl, rfl, rfl, by decide +kernel⟩
    have hscreen : (firstSession (.ofSeed 0) .default ⟨#[0x00, 0xEE]⟩).machine.processor.screen =
        .blank := (Machine.screen_load _ _).1
    rw [← hscreen]
    exact hfails _ _ (.execution hloads hfaults)
  · obtain ⟨hcode, -, -, hcompletes, -⟩ := run_has_one_outcome zeroFiles (.ofSeed 0) "zero.rom"
      ["once.yaml"] (.inr (rfl : (some .debug : Log.Filter) = some .debug))
    obtain ⟨config, program, last, hsucceeds⟩ := hcode.mp (by decide +kernel)
    obtain ⟨earlier, hend⟩ := hcompletes config program last hsucceeds
    exact ⟨config, program, last, earlier, hsucceeds, hend⟩

end Stages

end Command

end ChipEight

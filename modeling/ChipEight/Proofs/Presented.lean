import ChipEight.Command.Perform
import ChipEight.Proofs.Batch
import ChipEight.Proofs.Frame
import ChipEight.Proofs.Request
import ChipEight.Proofs.Screen

/-!
# Presented screens

No change of the screen is missed by a host that looks at the draw flag: while the flag is down, the
screen is the one that was captured last, whatever the machine is asked for between two looks. An
instruction that changes the screen puts the flag up, a refused drawing changes neither, and
starting over puts it up with the blank screen. A headless session looks at the flag once a frame,
so what it reports at its end is the screen that it prints.
-/
namespace ChipEight

namespace Headless

/-- A machine and what was captured of its screen. -/
structure Watched where
  machine : Machine
  capture : Capture

namespace Watched

/-- Takes the draw flag, and presents the screen if it was up. -/
def poll (w : Watched) : Watched :=
  let (drawn, machine) := w.machine.takeDrawn
  ⟨machine, if drawn then w.capture.present machine.processor.screen else w.capture⟩

/-- What requests and polls, in any order, lead to from power-on with nothing captured. The flag is
taken by polls only. -/
inductive Reached : Watched → Prop
  | new (config : Machine.Config) (entropy : Random.Key) : Reached ⟨.new config entropy, .empty⟩
  | serve {w : Watched} {m : Machine} (request : Machine.Request) (hw : Reached w)
      (hother : request ≠ .takeDrawn) (h : w.machine.serve request = .ok m) :
      Reached ⟨m, w.capture⟩
  | poll {w : Watched} (hw : Reached w) : Reached w.poll

end Watched

end Headless

namespace Machine

/-- Unless the draw flag is up in `n`, it was down in `m` and the screen is still the same. -/
def Flags (m n : Machine) : Prop :=
  n.processor.drawn = false →
    m.processor.drawn = false ∧ n.processor.screen = m.processor.screen

variable {m n k : Machine}

theorem Flags.refl (m : Machine) : m.Flags m := fun hdown => ⟨hdown, rfl⟩

theorem Flags.trans (hmn : m.Flags n) (hnk : n.Flags k) : m.Flags k := by
  intro hdown
  obtain ⟨hn, hscreen⟩ := hnk hdown
  obtain ⟨hm, hfirst⟩ := hmn hn
  exact ⟨hm, hscreen.trans hfirst⟩

/-- The step lemma. -/
theorem flags_step (m : Machine) (pad : Keypad) : m.Flags (m.step pad).machine := by
  have hs := m.stepped pad
  generalize (m.step pad).result = r at hs
  generalize (m.step pad).machine = n at hs ⊢
  cases hs with
  | unfetched | unknown | refused => exact .refl m
  | @executed _ _ p _ _ _ hexecute =>
    have hkept : p.drawn = false →
        (m.sample pad).processor.drawn = false ∧ p.screen = (m.sample pad).processor.screen :=
      (Processor.leaves_execute hexecute).screen
    exact hkept

theorem flags_run (m : Machine) (pad : Keypad) (count : Nat) :
    m.Flags (m.run count pad).machine :=
  run_induction (P := m.Flags) (fun n hn => hn.trans (n.flags_step pad)) (.refl m) count

theorem flags_elapse (m : Machine) (dt : Duration) : m.Flags (m.elapse dt).machine :=
  elapse_induction (P := m.Flags) (fun _ hn => hn) (.refl m)

/-- Starting over with a program puts the flag up and blanks the screen, whether the program fits or
not. -/
theorem screen_load (m : Machine) (program : List UInt8) :
    (m.load program).machine.processor.screen = .blank ∧
      (m.load program).machine.processor.drawn = true := by
  obtain ⟨memory, hload⟩ := m.exists_memory_load program
  rw [hload]
  exact ⟨rfl, rfl⟩

theorem flags_serve {request : Request} (h : m.serve request = .ok n)
    (hother : request ≠ .takeDrawn) : m.Flags n := by
  cases request with
  | takeDrawn => exact absurd rfl hother
  | load program =>
    cases h
    intro hdown
    rw [(m.screen_load program).2] at hdown
    cases hdown
  | reset =>
    cases h
    exact fun hdown => nomatch hdown
  | step pad =>
    cases h
    exact m.flags_step pad
  | run count pad =>
    cases h
    exact m.flags_run pad count
  | tick =>
    cases h
    exact .refl m
  | advance dt =>
    rw [eq_elapse_of_serve h]
    exact m.flags_elapse dt

end Machine

namespace Headless

namespace Watched

/-- While the flag is down, the screen is the captured one. -/
def UpToDate (w : Watched) : Prop :=
  w.machine.processor.drawn = false → w.capture.screen = w.machine.processor.screen

variable {w : Watched}

theorem UpToDate.flags {m : Machine} (hw : w.UpToDate) (h : w.machine.Flags m) :
    UpToDate ⟨m, w.capture⟩ := by
  intro hdown
  obtain ⟨hbefore, hscreen⟩ := h hdown
  exact (hw hbefore).trans hscreen.symm

theorem UpToDate.poll (hw : w.UpToDate) :
    w.poll.capture.screen = w.poll.machine.processor.screen := by
  rw [Watched.poll, Machine.takeDrawn]
  cases hdrawn : w.machine.processor.drawn with
  | true => rfl
  | false => exact hw hdrawn

theorem Reached.upToDate (hw : w.Reached) : w.UpToDate := by
  induction hw with
  | new config entropy => exact fun hdown => nomatch hdown
  | serve request _ hother h ih => exact ih.flags (Machine.flags_serve h hother)
  | poll _ ih => exact fun _ => ih.poll

end Watched

namespace Session

variable {s : Session}

def watched (s : Session) : Watched := ⟨s.machine, s.capture⟩

theorem flags_makeSteps (s : Session) : s.machine.Flags s.makeSteps.machine :=
  s.machine.flags_run _ _

theorem flags_makeTicks (s : Session) : s.machine.Flags s.makeTicks.machine :=
  s.machine.flags_elapse _

/-- The end of a frame is a look at the flag. -/
theorem watched_present (s : Session) : s.present.watched = s.watched.poll := rfl

/-- Between two frames the screen is the captured one, unless a fault has ended the session. -/
structure Presented (s : Session) : Prop where
  upToDate : s.watched.UpToDate
  shown : s.fault = none → s.watched.capture.screen = s.watched.machine.processor.screen

theorem Presented.frame (hs : s.Presented) (next : Nat) : (s.frame next).Presented := by
  have hkeys : (s.playKeys next).watched.UpToDate := hs.upToDate
  have hsteps : (s.playKeys next).makeSteps.watched.UpToDate := hkeys.flags (flags_makeSteps _)
  rw [Session.frame]
  generalize (s.playKeys next).makeSteps = stepped at hsteps ⊢
  by_cases hfault : stepped.fault.isSome = true
  · rw [if_pos hfault]
    refine ⟨hsteps, fun hnone => ?_⟩
    rw [hnone] at hfault
    cases hfault
  · rw [if_neg hfault]
    have hticks : stepped.makeTicks.watched.UpToDate := hsteps.flags (flags_makeTicks stepped)
    have hshown := hticks.poll
    rw [← watched_present] at hshown
    exact ⟨fun _ => hshown, fun _ => hshown⟩

theorem Presented.frames (hs : s.Presented) (count next : Nat) :
    (Session.frames count next s).Presented := by
  induction count generalizing next s with
  | zero => exact hs
  | succ count ih =>
    rw [Session.frames]
    split
    · exact hs
    · exact ih (hs.frame next) (next + 1)

theorem presented_start (config : RunConfig) (m : Machine) (program : List UInt8) :
    (start config (m.load program).machine).Presented := by
  obtain ⟨hscreen, hdrawn⟩ := m.screen_load program
  generalize (m.load program).machine = loaded at hscreen hdrawn
  have hblank : (start config loaded).watched.capture.screen = loaded.processor.screen :=
    hscreen.symm
  exact ⟨fun _ => hblank, fun _ => hblank⟩

end Session

end Headless

namespace Command

open Headless (Session Watched)

theorem code_failure (before : List Output) (cause : Error) : (failure before cause).code ≠ 0 :=
  (by decide : (1 : UInt32) ≠ 0)

theorem endOfRun_eq (config : RunConfig) (s : Session) :
    ∃ earlier : List Log.Record, endOfRun config s = earlier.map .record ++
      [.record (Event.complete config.frames s.capture.presented s.capture.lit).record,
        .screen s.machine.processor.screen] := by
  refine ⟨(if s.machine.processor.waiting then [Event.waiting.record] else []) ++
    (s.buzzer.turn false).2.map Headless.Event.record, ?_⟩
  rw [endOfRun, List.map_append, List.append_assoc]
  rfl

/-- The session that a run starts with. -/
def firstSession (entropy : Random.Key) (config : RunConfig) (program : ByteArray) : Session :=
  .start config ((Machine.new config.machine entropy).load program.toList).machine

/-- The session after all frames of a run. -/
def lastSession (entropy : Random.Key) (config : RunConfig) (program : ByteArray) : Session :=
  Session.frames config.frames 0 (firstSession entropy config program)

variable {files : Files} {entropy : Random.Key} {config : RunConfig}

theorem presented_lastSession (entropy : Random.Key) (config : RunConfig) (program : ByteArray) :
    (lastSession entropy config program).Presented :=
  (Session.presented_start config _ program.toList).frames config.frames 0

/-- Without a fault the pixels that were captured last are those of the screen. -/
theorem lit_lastSession {program : ByteArray}
    (hfault : (lastSession entropy config program).fault = none) :
    (lastSession entropy config program).capture.lit =
      (lastSession entropy config program).machine.processor.screen.litCount :=
  congrArg Screen.litCount ((presented_lastSession entropy config program).shown hfault)

theorem lastSession_eq (entropy : Random.Key) (config : RunConfig) (program : ByteArray) :
    lastSession entropy config program = Session.frames config.frames 0
      (.start config (firstSession entropy config program).machine) :=
  rfl

theorem runFrames_of_fault (program : ByteArray) (before : List Log.Record) {fault : Fault}
    (hfault : (lastSession entropy config program).fault = some fault) :
    let last := lastSession entropy config program
    runFrames (before.map .record) config (firstSession entropy config program).machine =
      failure ((before ++ last.records.toList).map .record ++
        [.screen last.machine.processor.screen]) (.machine (.fault fault)) := by
  intro last
  rw [lastSession_eq] at hfault
  simp only [last, lastSession_eq, runFrames, hfault, List.map_append]

theorem runFrames_of_no_fault (program : ByteArray) (before : List Log.Record)
    (hfault : (lastSession entropy config program).fault = none) :
    let last := lastSession entropy config program
    runFrames (before.map .record) config (firstSession entropy config program).machine =
      ⟨(before ++ last.records.toList).map .record ++ endOfRun config last, 0⟩ := by
  intro last
  rw [lastSession_eq] at hfault
  simp only [last, lastSession_eq, runFrames, hfault, List.map_append]

/-- The outputs of frames that end without a fault. -/
theorem outputs_runFrames (program : ByteArray) {before : List Log.Record}
    (hcode : (runFrames (before.map .record) config
      (firstSession entropy config program).machine).code = 0) :
    let last := lastSession entropy config program
    last.fault = none ∧ ∃ earlier : List Log.Record,
      (runFrames (before.map .record) config
        (firstSession entropy config program).machine).outputs = earlier.map .record ++
          [.record (Event.complete config.frames last.capture.presented last.capture.lit).record,
            .screen last.machine.processor.screen] := by
  intro last
  cases hfault : last.fault with
  | some fault =>
    rw [runFrames_of_fault program before hfault] at hcode
    exact absurd hcode (code_failure _ _)
  | none =>
    obtain ⟨ending, hending⟩ := endOfRun_eq config last
    refine ⟨rfl, before ++ last.records.toList ++ ending, ?_⟩
    rw [runFrames_of_no_fault program before hfault, hending]
    simp only [List.map_append, List.append_assoc, last]

theorem outputs_runProgram {rom : String} {option : Option String}
    (hcode : (runProgram files entropy rom option).code = 0) :
    ∃ (config : RunConfig) (program : ByteArray) (earlier : List Log.Record),
      let last := lastSession entropy config program
      readConfig files option = .ok config ∧ files rom = .ok program ∧ last.fault = none ∧
      (runProgram files entropy rom option).outputs = earlier.map .record ++
        [.record (Event.complete config.frames last.capture.presented last.capture.lit).record,
          .screen last.machine.processor.screen] := by
  rw [runProgram] at hcode ⊢
  cases hconfig : readConfig files option with
  | error cause =>
    rw [hconfig] at hcode
    exact absurd hcode (code_failure _ _)
  | ok config =>
    rw [hconfig] at hcode
    dsimp only at hcode ⊢
    rw [readProgram] at hcode ⊢
    cases hprogram : files rom with
    | error cause =>
      rw [hprogram] at hcode
      exact absurd hcode (code_failure _ _)
    | ok program =>
      rw [hprogram] at hcode
      dsimp only at hcode ⊢
      cases hresult : ((Machine.new config.machine entropy).load program.toList).result with
      | error cause =>
        rw [hresult] at hcode
        exact absurd hcode (code_failure _ _)
      | ok =>
        rw [hresult] at hcode
        have hbefore : ∀ events : List Machine.Event,
            ([.record Event.starting.record] : List Output) ++ noted events =
              (Event.starting.record :: events.map Machine.Event.record).map .record := by
          simp [noted]
        rw [hbefore] at hcode ⊢
        obtain ⟨hfault, earlier, houtputs⟩ := outputs_runFrames program hcode
        exact ⟨config, program, earlier, rfl, rfl, hfault, houtputs⟩

/-- A program that draws a zero at the corner and then jumps to itself, and a run of one frame. -/
def zeroFiles : Files
  | "zero.rom" => .ok ⟨#[0xD0, 0x05, 0x12, 0x02]⟩
  | "once.yaml" => .ok "frames: 1".toUTF8
  | _ => .error .notFound

/-- Whatever is asked of a machine, after every look at the draw flag the captured screen is the
screen. So a run that succeeds writes records, then how many pixels of the captured screen are lit,
then the screen of its machine after all frames, and that number is the number of its marks. -/
theorem no_change_is_missed :
    (∀ w : Watched, w.Reached → w.poll.capture.screen = w.poll.machine.processor.screen) ∧
    ∀ (files : Files) (entropy : Random.Key) (rom : String) (rest : List String),
      (report files entropy ("run" :: rom :: rest)).code = 0 →
      ∃ (config : RunConfig) (program : ByteArray) (earlier : List Log.Record),
        let last := lastSession entropy config program
        let presented := last.capture.presented
        let lit := last.capture.lit
        readConfig files rest.head? = .ok config ∧ files rom = .ok program ∧
        (report files entropy ("run" :: rom :: rest)).outputs = earlier.map .record ++
          [.record ⟨.info, .command,
              s!"ran {config.frames} frames, presented {presented}, {lit} pixels lit"⟩,
            .screen last.machine.processor.screen] ∧
        ∀ filter, lit =
          Screen.marks ((Output.screen last.machine.processor.screen).lines filter) := by
  refine ⟨fun w hw => hw.upToDate.poll, ?_⟩
  intro files entropy rom rest hcode
  obtain ⟨config, program, earlier, hconfig, hprogram, hfault, houtputs⟩ := outputs_runProgram hcode
  refine ⟨config, program, earlier, hconfig, hprogram, houtputs, ?_⟩
  intro filter
  have hlines : ∀ screen : Screen,
      Screen.marks (screen.lines ++ [""]) = Screen.marks screen.lines := by
    simp [Screen.marks]
  rw [Output.lines, hlines, Screen.marks_lines, lit_lastSession hfault]

/-- The drawing is found by the look after it, and counted by the run. -/
theorem drawn_zero_is_captured :
    (∃ w : Watched, w.Reached ∧ w.capture.lit = 0 ∧ w.poll.capture.lit = 14 ∧
      w.poll.capture.screen = w.poll.machine.processor.screen) ∧
    (report zeroFiles (.ofSeed 0) ["run", "zero.rom", "once.yaml"]).code = 0 ∧
    ∃ (config : RunConfig) (earlier : List Log.Record),
      let last := lastSession (.ofSeed 0) config ⟨#[0xD0, 0x05, 0x12, 0x02]⟩
      config.frames = 1 ∧
      (report zeroFiles (.ofSeed 0) ["run", "zero.rom", "once.yaml"]).outputs =
        earlier.map .record ++
          [.record (Event.complete 1 last.capture.presented last.capture.lit).record,
            .screen last.machine.processor.screen] ∧
      last.capture.lit =
        Screen.marks ((Output.screen last.machine.processor.screen).lines none) := by
  obtain ⟨hpolls, hruns⟩ := no_change_is_missed
  constructor
  · have hnew : Watched.Reached ⟨.new .default (.ofSeed 0), .empty⟩ := .new .default (.ofSeed 0)
    have hloaded := hnew.serve (.load [0xD0, 0x05]) Machine.Request.noConfusion rfl
    have hstepped := hloaded.poll.serve (.step fun _ => false) Machine.Request.noConfusion rfl
    exact ⟨_, hstepped, by decide +kernel, by decide +kernel, hpolls _ hstepped⟩
  · have hcode : (report zeroFiles (.ofSeed 0) ["run", "zero.rom", "once.yaml"]).code = 0 := by
      decide +kernel
    have hframes :
        (readConfig zeroFiles (some "once.yaml")).toOption.map RunConfig.frames = some 1 := by
      decide +kernel
    obtain ⟨config, program, earlier, hconfig, hprogram, houtputs, hmarks⟩ :=
      hruns zeroFiles (.ofSeed 0) "zero.rom" ["once.yaml"] hcode
    have hone : config.frames = 1 := by
      rw [List.head?_cons] at hconfig
      rw [hconfig] at hframes
      exact Option.some.inj hframes
    cases hprogram
    rw [hone] at houtputs
    exact ⟨hcode, config, earlier, hone, houtputs, hmarks none⟩

end Command

end ChipEight

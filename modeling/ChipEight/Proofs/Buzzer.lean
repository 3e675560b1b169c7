import ChipEight.Headless.Devices
import ChipEight.Proofs.Request
import ChipEight.Proofs.Step

/-!
# The buzzer and the sound timer

A machine under steps and elapsing time, with a buzzer that receives all its calls. Ticks that find
the sound timer running leave the buzzer as the timer is. Ticks that find it at zero make no call,
so a tone that played before the program stored zero in the timer goes on.
-/
namespace ChipEight.Headless

open Machine (Elapsed)

/-- A machine and the buzzer that receives its calls. -/
structure Wired where
  machine : Machine
  buzzer : Buzzer

inductive Action
  | step (pad : Keypad)
  | advance (dt : Duration)

namespace Wired

/-- The machine with its ticks made, their calls received. -/
def receive (w : Wired) (e : Elapsed) : Wired := ⟨e.machine, (w.buzzer.calls e.calls).1⟩

def act (w : Wired) : Action → Except Clock.Error Wired
  | .step pad => .ok { w with machine := (w.machine.step pad).machine }
  | .advance dt => (w.machine.advance dt).map w.receive

def follow (w : Wired) : List Action → Except Clock.Error Wired
  | [] => .ok w
  | a :: rest =>
    match w.act a with
    | .ok v => v.follow rest
    | .error e => .error e

/-- A tick of the action finds the sound timer running. -/
def Finds (w : Wired) : Action → Prop
  | .step _ => False
  | .advance dt =>
    w.machine.processor.sounding = true ∧ ∃ e, w.machine.advance dt = .ok e ∧ 0 < e.ticks

/-- No tick of the actions finds the sound timer running. -/
inductive Unticked : Wired → List Action → Prop
  | nil (w : Wired) : Unticked w []
  | cons {w v : Wired} {a : Action} {rest : List Action} (ha : w.act a = .ok v)
      (hfinds : ¬ w.Finds a) (h : Unticked v rest) : Unticked w (a :: rest)

/-- The last tick of the actions that finds the sound timer running leaves it running. -/
inductive Sustained : Wired → List Action → Prop
  | here {w v : Wired} {a : Action} {rest : List Action} (ha : w.act a = .ok v)
      (hfinds : w.Finds a) (hsounding : v.machine.processor.sounding = true)
      (h : Unticked v rest) : Sustained w (a :: rest)
  | later {w v : Wired} {a : Action} {rest : List Action} (ha : w.act a = .ok v)
      (h : Sustained v rest) : Sustained w (a :: rest)

end Wired

section Ticks

theorem sounding_iff (p : Processor) : p.sounding = true ↔ p.sound ≠ 0 := by
  rw [Processor.sounding, decide_eq_true_iff]
  exact UInt8.pos_iff_ne_zero

theorem silent_iff (p : Processor) : p.sounding = false ↔ p.sound = 0 := by
  rw [Bool.eq_false_iff, ne_eq, sounding_iff, Decidable.not_not]

theorem playing_turn (b : Buzzer) (on : Bool) : (b.turn on).1.playing = on := by
  rw [Buzzer.turn]
  split
  · assumption
  · rfl

theorem calls_append (b : Buzzer) (first rest : List Machine.BuzzerCall) :
    (b.calls (first ++ rest)).1 = ((b.calls first).1.calls rest).1 := by
  induction first generalizing b with
  | nil => rfl
  | cons c first ih => exact ih (b.call c).1

/-- A tick that finds the sound timer running leaves the buzzer as it leaves the timer. -/
theorem playing_tick {m : Machine} (b : Buzzer) (h : m.processor.sounding = true) :
    (b.calls m.tick.1.calls).1.playing = m.tick.2.processor.sounding := by
  have hne := (sounding_iff _).mp h
  have hdown : m.tick.2.processor.sound = m.processor.sound - 1 := if_neg hne
  have hlast := Machine.sub_one_eq_zero_iff m.processor.sound
  by_cases hone : m.processor.sound = 1
  · have htone : m.tick.1 = .stop := by
      rw [Machine.tick, Machine.Tone.ofSound, if_neg hne, if_pos hone]
    have hoff : m.tick.2.processor.sounding = false := by
      rw [silent_iff, hdown, hlast]
      exact hone
    rw [htone, hoff]
    exact playing_turn b false
  · have htone : m.tick.1 = .play := by
      rw [Machine.tick, Machine.Tone.ofSound, if_neg hne, if_neg hone]
    have hon : m.tick.2.processor.sounding = true := by
      rw [sounding_iff, hdown, ne_eq, hlast]
      exact hone
    rw [htone, hon]
    exact playing_turn b true

/-- Ticks that find the sound timer at zero make no call and leave it there. -/
theorem ticks_of_silent {m : Machine} (n : Nat) (h : m.processor.sounding = false) :
    (m.ticks n).1 = [] ∧ (m.ticks n).2.processor.sounding = false := by
  induction n generalizing m with
  | zero => exact ⟨rfl, h⟩
  | succ n ih =>
    have hzero := (silent_iff _).mp h
    have htone : m.tick.1 = .silent := if_pos hzero
    have hstill : m.tick.2.processor.sounding = false := (silent_iff _).mpr (if_pos hzero)
    obtain ⟨hcalls, hsilent⟩ := ih hstill
    rw [m.ticks_succ, htone, hcalls]
    exact ⟨rfl, hsilent⟩

/-- Ticks that find the sound timer running leave the buzzer as they leave the timer. -/
theorem playing_ticks {m : Machine} (n : Nat) (b : Buzzer) (h : m.processor.sounding = true) :
    (b.calls (m.ticks (n + 1)).1).1.playing = (m.ticks (n + 1)).2.processor.sounding := by
  induction n generalizing m b with
  | zero =>
    rw [m.ticks_succ, calls_append]
    exact playing_tick b h
  | succ n ih =>
    rw [m.ticks_succ, calls_append]
    cases hnext : m.tick.2.processor.sounding with
    | true => exact ih _ hnext
    | false =>
      obtain ⟨hcalls, hsilent⟩ := ticks_of_silent (n + 1) hnext
      rw [hcalls, hsilent, ← hnext]
      exact playing_tick b h

/-- The time of one cycle leaves nothing over. -/
theorem elapse_timers : Clock.timers.elapse Clock.timerPeriod = (1, .timers) := by decide

theorem advance_timers : Clock.timers.advance Clock.timerPeriod = .ok (1, .timers) := by
  rw [Clock.advance, if_neg (by decide), elapse_timers]

/-- From the start of a cycle, the time of one cycle is one tick. -/
theorem elapse_period {m : Machine} (h : m.clock = .timers) :
    m.elapse Clock.timerPeriod = ⟨m.tick.2, 1, m.tick.1.calls⟩ := by
  have hclock : m.clock.elapse Clock.timerPeriod = (1, m.clock) := by rw [h, elapse_timers]
  have hticks : m.ticks (1 : UInt32).toNat = (m.tick.1.calls, m.tick.2) := by
    show m.ticks (0 + 1) = _
    rw [m.ticks_succ]
    exact congrArg (·, _) (List.append_nil _)
  simp only [Machine.elapse, hclock]
  rw [hticks]

theorem advance_period {m : Machine} (h : m.clock = .timers) :
    m.advance Clock.timerPeriod = .ok ⟨m.tick.2, 1, m.tick.1.calls⟩ := by
  rw [← elapse_period h, Machine.advance, h, advance_timers]
  rfl

/-- Elapsed time is ticks under another clock. -/
theorem advance_eq_ok {m : Machine} {dt : Duration} {e : Elapsed} (h : m.advance dt = .ok e) :
    ∃ clock : Clock, e.calls = ({ m with clock : Machine }.ticks e.ticks.toNat).1 ∧
      e.machine = ({ m with clock : Machine }.ticks e.ticks.toNat).2 := by
  rw [Machine.advance] at h
  cases hclock : m.clock.advance dt with
  | ok due =>
    rw [hclock] at h
    cases h
    exact ⟨(m.clock.elapse dt).2, rfl, rfl⟩
  | error e =>
    rw [hclock] at h
    cases h

theorem playing_advance {m : Machine} {dt : Duration} {e : Elapsed} (b : Buzzer)
    (he : m.advance dt = .ok e) (hticks : 0 < e.ticks) (h : m.processor.sounding = true) :
    (b.calls e.calls).1.playing = e.machine.processor.sounding := by
  obtain ⟨clock, hcalls, hmachine⟩ := advance_eq_ok he
  obtain ⟨n, hn⟩ : ∃ n, e.ticks.toNat = n + 1 :=
    Nat.exists_eq_succ_of_ne_zero (Nat.pos_iff_ne_zero.mp (UInt32.lt_iff_toNat_lt.mp hticks))
  rw [hcalls, hmachine, hn]
  exact playing_ticks n b h

theorem advance_of_silent {m : Machine} {dt : Duration} {e : Elapsed}
    (he : m.advance dt = .ok e) (h : m.processor.sounding = false) :
    e.calls = [] ∧ e.machine.processor.sounding = false := by
  obtain ⟨clock, hcalls, hmachine⟩ := advance_eq_ok he
  rw [hcalls, hmachine]
  exact ticks_of_silent (m := { m with clock }) _ h

theorem calls_of_no_ticks {m : Machine} {dt : Duration} {e : Elapsed}
    (he : m.advance dt = .ok e) (hticks : ¬ 0 < e.ticks) : e.calls = [] := by
  obtain ⟨clock, hcalls, _⟩ := advance_eq_ok he
  have hzero : e.ticks.toNat = 0 := by
    have hnot : ¬ 0 < e.ticks.toNat := fun h => hticks (UInt32.lt_iff_toNat_lt.mpr h)
    omega
  rw [hcalls, hzero]
  rfl

end Ticks

namespace Wired

variable {w v s : Wired} {a : Action}

theorem act_advance {dt : Duration} (ha : w.act (.advance dt) = .ok v) :
    ∃ e, w.machine.advance dt = .ok e ∧ v = w.receive e := by
  rw [act] at ha
  cases he : w.machine.advance dt with
  | ok e =>
    rw [he] at ha
    cases ha
    exact ⟨e, rfl, rfl⟩
  | error e =>
    rw [he] at ha
    cases ha

/-- The step lemma: ticks that find the sound timer running decide the tone. -/
theorem playing_act_of_finds (ha : w.act a = .ok v) (hfinds : w.Finds a) :
    v.buzzer.playing = v.machine.processor.sounding := by
  cases a with
  | step pad => exact hfinds.elim
  | advance dt =>
    obtain ⟨hsounding, e, he, hticks⟩ := hfinds
    obtain ⟨f, hf, rfl⟩ := act_advance ha
    have hef : e = f := Except.ok.inj (he.symm.trans hf)
    subst hef
    exact playing_advance w.buzzer he hticks hsounding

/-- Nothing else changes the tone. -/
theorem buzzer_act_of_not_finds (ha : w.act a = .ok v) (hfinds : ¬ w.Finds a) :
    v.buzzer = w.buzzer := by
  cases a with
  | step pad =>
    cases ha
    rfl
  | advance dt =>
    obtain ⟨e, he, rfl⟩ := act_advance ha
    have hcalls : e.calls = [] := by
      cases hsounding : w.machine.processor.sounding with
      | false => exact (advance_of_silent he hsounding).1
      | true => exact calls_of_no_ticks he fun hticks => hfinds ⟨hsounding, e, he, hticks⟩
    show (w.buzzer.calls e.calls).1 = w.buzzer
    rw [hcalls]
    rfl

theorem sustained_cons {rest : List Action} (ha : w.act a = .ok v) :
    Sustained w (a :: rest) ↔
      (w.Finds a ∧ v.machine.processor.sounding = true ∧ Unticked v rest) ∨ Sustained v rest := by
  constructor
  · intro h
    cases h with
    | here ha' hfinds hsounding h =>
      cases ha.symm.trans ha'
      exact .inl ⟨hfinds, hsounding, h⟩
    | later ha' h =>
      cases ha.symm.trans ha'
      exact .inr h
  · rintro (⟨hfinds, hsounding, h⟩ | h)
    · exact .here ha hfinds hsounding h
    · exact .later ha h

theorem unticked_cons {rest : List Action} (ha : w.act a = .ok v) :
    Unticked w (a :: rest) ↔ ¬ w.Finds a ∧ Unticked v rest := by
  constructor
  · intro h
    cases h with
    | cons ha' hfinds h =>
      cases ha.symm.trans ha'
      exact ⟨hfinds, h⟩
  · rintro ⟨hfinds, h⟩
    exact .cons ha hfinds h

/-- The run lemma: the tone plays if the last tick that found the sound timer running left it
running, or if there was no such tick and the tone played before. -/
theorem playing_follow {history : List Action} (h : w.follow history = .ok s) :
    s.buzzer.playing = true ↔
      Sustained w history ∨ w.buzzer.playing = true ∧ Unticked w history := by
  induction history generalizing w with
  | nil =>
    cases h
    have hnone : ¬ Sustained s [] := fun h => nomatch h
    rw [or_iff_right hnone, and_iff_left (.nil s)]
  | cons a rest ih =>
    rw [follow] at h
    cases ha : w.act a with
    | error e =>
      rw [ha] at h
      cases h
    | ok v =>
      rw [ha] at h
      rw [ih h, sustained_cons ha, unticked_cons ha]
      by_cases hfinds : w.Finds a
      · rw [playing_act_of_finds ha hfinds]
        simp [hfinds, or_comm]
      · rw [buzzer_act_of_not_finds ha hfinds]
        simp [hfinds]

/-- After ticks the buzzer follows the sound timer, unless the program has taken to zero what a tick
had left running: then the tone goes on. It is never left out. -/
theorem buzzer_follows_iff (m : Machine) (program : List UInt8) {history : List Action}
    {dt : Duration} {e : Elapsed}
    (hrun : follow ⟨(m.load program).machine, .silent⟩ history = .ok s)
    (he : s.machine.advance dt = .ok e) (hticks : 0 < e.ticks) :
    ((s.receive e).buzzer.playing = (s.receive e).machine.processor.sounding ↔
      ¬ (s.machine.processor.sounding = false ∧
        Sustained ⟨(m.load program).machine, .silent⟩ history)) ∧
    ((s.receive e).machine.processor.sounding = true → (s.receive e).buzzer.playing = true) := by
  have hplaying := playing_follow hrun
  rw [or_iff_left (fun h => nomatch h.1)] at hplaying
  cases hsounding : s.machine.processor.sounding with
  | true =>
    have hfollows : (s.receive e).buzzer.playing = (s.receive e).machine.processor.sounding :=
      playing_advance s.buzzer he hticks hsounding
    rw [hfollows]
    simp
  | false =>
    obtain ⟨hcalls, hsilent⟩ := advance_of_silent he hsounding
    have hstill : (s.receive e).buzzer = s.buzzer := by
      show (s.buzzer.calls e.calls).1 = s.buzzer
      rw [hcalls]
      rfl
    have hoff : (s.receive e).machine.processor.sounding = false := hsilent
    rw [hstill, hoff, ← hplaying]
    simp

end Wired

section Beep

/-- Starts a tone of five ticks, then stores zero in the sound timer. -/
def beep : List UInt8 := [0x60, 0x05, 0xF0, 0x18, 0xF1, 0x18]

def idle : Keypad := fun _ => false

/-- The machine at an address of the program. -/
def beeping (pc : UInt16) (v0 sound : UInt8) (keys : KeySet) : Machine :=
  ⟨{ Processor.initial with
      pc, sound, keys, registers := Registers.zero.write Register.offset v0
      memory := Memory.initial.store 512 beep },
    .timers, .ofSeed 0, .default⟩

theorem loaded_beep : loaded beep = beeping 512 0 0 .empty := by
  rw [loaded_of_fits (by decide)]
  rfl

theorem opcode?_beeping {i : Nat} (hi : i + 1 < beep.length) :
    (Memory.initial.store 512 beep).opcode? (512 + i) = some (.ofBytes beep[i] beep[i + 1]) :=
  opcode?_store _ (by decide) hi

theorem load_beeping (keys : KeySet) :
    ((beeping 512 0 0 keys).step idle).machine = beeping 514 5 0 (.ofKeypad idle) :=
  (Machine.step_of_execute (m := beeping 512 0 0 keys) (opcode?_beeping (i := 0) (by decide))
    rfl rfl).1

theorem start_beeping (keys : KeySet) :
    ((beeping 514 5 0 keys).step idle).machine = beeping 516 5 5 (.ofKeypad idle) :=
  (Machine.step_of_execute (m := beeping 514 5 0 keys) (opcode?_beeping (i := 2) (by decide))
    rfl rfl).1

theorem cut_beeping (keys : KeySet) :
    ((beeping 516 5 4 keys).step idle).machine = beeping 518 5 0 (.ofKeypad idle) :=
  (Machine.step_of_execute (m := beeping 516 5 4 keys) (opcode?_beeping (i := 4) (by decide))
    rfl rfl).1

theorem tick_beeping (keys : KeySet) :
    (beeping 516 5 5 keys).tick = (.play, beeping 516 5 4 keys) := by
  simp only [Machine.tick, Processor.countDown, beeping]
  rfl

theorem follow_beep :
    Wired.follow ⟨loaded beep, .silent⟩ [.step idle, .step idle] =
      .ok ⟨beeping 516 5 5 (.ofKeypad idle), .silent⟩ := by
  simp only [Wired.follow, Wired.act, loaded_beep, load_beeping, start_beeping]

theorem buzzer_follows_beep :
    ∃ e, (beeping 516 5 5 (.ofKeypad idle)).advance Clock.timerPeriod = .ok e ∧ 0 < e.ticks ∧
      (Buzzer.silent.calls e.calls).1.playing = e.machine.processor.sounding := by
  have hadvance := advance_period (m := beeping 516 5 5 (.ofKeypad idle)) rfl
  obtain ⟨hlaw, _⟩ := Wired.buzzer_follows_iff (.new .default (.ofSeed 0)) beep follow_beep
    hadvance (by decide)
  refine ⟨_, hadvance, by decide, hlaw.mpr ?_⟩
  rintro ⟨hsilent, _⟩
  exact absurd hsilent (by decide)

/-- The law fails where the program stores zero in a timer that a tick has left running. -/
theorem tone_left_on :
    ∃ s e, Wired.follow ⟨loaded beep, .silent⟩
        [.step idle, .step idle, .advance Clock.timerPeriod, .step idle] = .ok s ∧
      s.machine.advance Clock.timerPeriod = .ok e ∧ 0 < e.ticks ∧
      (s.receive e).buzzer.playing = true ∧ (s.receive e).machine.processor.sounding = false := by
  have hfirst := advance_period (m := beeping 516 5 5 (.ofKeypad idle)) rfl
  have hsecond := advance_period (m := beeping 518 5 0 (.ofKeypad idle)) rfl
  refine ⟨⟨beeping 518 5 0 (.ofKeypad idle), ⟨true⟩⟩, _, ?_, hsecond, by decide, rfl, by decide⟩
  simp only [Wired.follow, Wired.act, loaded_beep, load_beeping, start_beeping, hfirst,
    tick_beeping, Except.map, Wired.receive, cut_beeping]
  rfl

end Beep

end ChipEight.Headless

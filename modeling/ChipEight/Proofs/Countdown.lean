import ChipEight.Proofs.Buzzer
import ChipEight.Proofs.Clock

/-!
# Counting down

Where any number of ticks leaves the timers, and the calls of the buzzer that they make, in closed
form. Both depend on the number of ticks alone, so they are the same however elapsed time is divided
into calls.
-/
namespace ChipEight

/-- The processor with other timers. -/
def Processor.withTimers (p : Processor) (delay sound : UInt8) : Processor :=
  { p with delay, sound }

/-- A timer some ticks later. -/
def lowered (timer : UInt8) (ticks : Nat) : UInt8 := UInt8.ofNat (timer.toNat - ticks)

theorem toNat_lowered (timer : UInt8) (ticks : Nat) :
    (lowered timer ticks).toNat = timer.toNat - ticks := by
  have hlt := timer.toNat_lt
  rw [lowered, UInt8.toNat_ofNat']
  exact Nat.mod_eq_of_lt (by omega)

theorem lowered_zero (timer : UInt8) : lowered timer 0 = timer :=
  UInt8.toNat_inj.mp (toNat_lowered timer 0)

theorem lowered_lowered (timer : UInt8) (a b : Nat) :
    lowered (lowered timer a) b = lowered timer (a + b) := by
  apply UInt8.toNat_inj.mp
  rw [toNat_lowered, toNat_lowered, toNat_lowered, Nat.sub_sub]

theorem lowered_one (timer : UInt8) : lowered timer 1 = if timer = 0 then 0 else timer - 1 := by
  apply UInt8.toNat_inj.mp
  rw [toNat_lowered]
  by_cases hzero : timer = 0
  · rw [if_pos hzero, hzero]
    rfl
  · have hpos : 0 < timer.toNat := UInt8.lt_iff_toNat_lt.mp (UInt8.pos_iff_ne_zero.mpr hzero)
    have hone : (1 : UInt8) ≤ timer := UInt8.le_iff_toNat_le.mpr hpos
    rw [if_neg hzero, UInt8.toNat_sub_of_le _ _ hone]
    rfl

namespace Clock

/-- No call has too much time to account for. -/
def Accounts (c : Clock) : List Duration → Prop
  | [] => True
  | dt :: dts =>
    c.elapsed.nanos + dt.nanos ≤ Duration.longest.nanos ∧ (c.elapse dt).2.Accounts dts

end Clock

namespace Machine

/-- The calls of a number of ticks from a sound timer on: the tone plays until the tick that brings
the timer to zero, and that tick stops it. -/
def countdownCalls (ticks : Nat) : Nat → List BuzzerCall
  | 0 => []
  | sound + 1 =>
    List.replicate (min ticks sound) .play ++ if sound + 1 ≤ ticks then [.stop] else []

theorem countdownCalls_zero (sound : Nat) : countdownCalls 0 sound = [] := by
  cases sound with
  | zero => rfl
  | succ sound => simp [countdownCalls]

/-- The calls go on where the sound timer was left. -/
theorem countdownCalls_add (a b sound : Nat) :
    countdownCalls (a + b) sound = countdownCalls a sound ++ countdownCalls b (sound - a) := by
  cases sound with
  | zero =>
    rw [Nat.zero_sub]
    rfl
  | succ sound =>
    by_cases hrunning : a ≤ sound
    · have hleft : sound + 1 - a = (sound - a) + 1 := by omega
      have hplays : min (a + b) sound = a + min b (sound - a) := by omega
      have hstops : sound + 1 ≤ a + b ↔ sound - a + 1 ≤ b := by omega
      have hnot : ¬ sound + 1 ≤ a := by omega
      rw [hleft, countdownCalls, countdownCalls, countdownCalls, hplays, Nat.min_eq_left hrunning,
        if_neg hnot, List.append_nil, ← List.replicate_append_replicate, List.append_assoc]
      simp only [hstops]
    · have hleft : sound + 1 - a = 0 := by omega
      have hplays : min (a + b) sound = min a sound := by omega
      have hstops : sound + 1 ≤ a + b ∧ sound + 1 ≤ a := by omega
      rw [hleft, countdownCalls, countdownCalls, countdownCalls, hplays, if_pos hstops.1,
        if_pos hstops.2, List.append_nil]

/-- A single tick makes the calls of its tone. -/
theorem calls_ofSound (sound : UInt8) :
    (Tone.ofSound sound).calls = countdownCalls 1 sound.toNat := by
  rw [Tone.ofSound]
  by_cases hzero : sound = 0
  · rw [if_pos hzero, hzero]
    rfl
  · rw [if_neg hzero]
    by_cases hone : sound = 1
    · rw [if_pos hone, hone]
      rfl
    · have hlow : ∀ k, sound.toNat = k → sound = UInt8.ofNat k :=
        fun k h => h ▸ UInt8.ofNat_toNat.symm
      have hnonzero : sound.toNat ≠ 0 := fun h => hzero (hlow 0 h)
      have hnotone : sound.toNat ≠ 1 := fun h => hone (hlow 1 h)
      obtain ⟨left, hleft⟩ : ∃ left, sound.toNat = left + 2 := ⟨sound.toNat - 2, by omega⟩
      rw [if_neg hone, hleft, countdownCalls, if_neg (by omega), Nat.min_eq_left (by omega)]
      rfl

/-- The machine after some ticks. -/
def countedDown (m : Machine) (ticks : Nat) : Machine :=
  { m with
    processor := m.processor.withTimers (lowered m.processor.delay ticks)
      (lowered m.processor.sound ticks) }

theorem countedDown_zero (m : Machine) : m.countedDown 0 = m := by
  rw [countedDown, lowered_zero, lowered_zero]
  rfl

theorem countedDown_countedDown (m : Machine) (a b : Nat) :
    (m.countedDown a).countedDown b = m.countedDown (a + b) := by
  simp only [countedDown, Processor.withTimers, lowered_lowered]

theorem tick_eq_countedDown (m : Machine) : m.tick.2 = m.countedDown 1 := by
  rw [countedDown, lowered_one, lowered_one]
  rfl

/-- Ticks in closed form. -/
theorem ticks_eq (m : Machine) (n : Nat) :
    m.ticks n = (countdownCalls n m.processor.sound.toNat, m.countedDown n) := by
  induction n generalizing m with
  | zero => rw [countdownCalls_zero, countedDown_zero, ticks]
  | succ n ih =>
    have hcalls : m.tick.1.calls = countdownCalls 1 m.processor.sound.toNat :=
      calls_ofSound m.processor.sound
    have hsound : (m.countedDown 1).processor.sound.toNat = m.processor.sound.toNat - 1 :=
      toNat_lowered m.processor.sound 1
    rw [ticks_succ, ih, tick_eq_countedDown, hcalls, hsound, countedDown_countedDown,
      Nat.add_comm n 1, countdownCalls_add]

/-- What elapsed times one after another come to: the machine after them, the ticks of all of them
and the calls of the buzzer in order. -/
structure Lapse where
  machine : Machine
  ticks : Nat
  calls : List BuzzerCall

def lapse (m : Machine) : List Duration → Except Clock.Error Lapse
  | [] => .ok ⟨m, 0, []⟩
  | dt :: dts => do
    let e ← m.advance dt
    let rest ← e.machine.lapse dts
    return ⟨rest.machine, e.ticks.toNat + rest.ticks, e.calls ++ rest.calls⟩

/-- From `m` to `n` only ticks were made, under whatever clocks, and they made these calls. -/
structure Counts (m : Machine) (ticks : Nat) (calls : List BuzzerCall) (n : Machine) : Prop where
  machine : n = { m.countedDown ticks with clock := n.clock }
  calls : calls = countdownCalls ticks m.processor.sound.toNat

variable {m n k : Machine} {dt : Duration} {dts : List Duration} {e : Lapse}

theorem Counts.sound {ticks : Nat} {calls : List BuzzerCall} (h : m.Counts ticks calls n) :
    n.processor.sound.toNat = m.processor.sound.toNat - ticks := by
  rw [h.machine]
  exact toNat_lowered _ _

theorem Counts.delay {ticks : Nat} {calls : List BuzzerCall} (h : m.Counts ticks calls n) :
    n.processor.delay.toNat = m.processor.delay.toNat - ticks := by
  rw [h.machine]
  exact toNat_lowered _ _

theorem Counts.trans {a b : Nat} {first rest : List BuzzerCall} (hmn : m.Counts a first n)
    (hnk : n.Counts b rest k) : m.Counts (a + b) (first ++ rest) k := by
  constructor
  · rw [← countedDown_countedDown, hnk.machine, hmn.machine]
    rfl
  · rw [countdownCalls_add, ← hmn.sound, ← hnk.calls, ← hmn.calls]

/-- The step lemma. -/
theorem counts_advance {d : Elapsed} (h : m.advance dt = .ok d) :
    m.Counts d.ticks.toNat d.calls d.machine := by
  obtain ⟨clock, hcalls, hmachine⟩ := Headless.advance_eq_ok h
  rw [ticks_eq] at hcalls hmachine
  constructor
  · rw [hmachine]
    rfl
  · exact hcalls

/-- The run lemma. -/
theorem counts_lapse (h : m.lapse dts = .ok e) : m.Counts e.ticks e.calls e.machine := by
  induction dts generalizing m e with
  | nil =>
    cases h
    constructor
    · rw [countedDown_zero]
    · exact (countdownCalls_zero _).symm
  | cons dt dts ih =>
    cases hadvance : m.advance dt with
    | error => simp [lapse, hadvance, bind, Except.bind] at h
    | ok d =>
      cases hlapse : d.machine.lapse dts with
      | error => simp [lapse, hadvance, hlapse, bind, Except.bind] at h
      | ok rest =>
        simp only [lapse, hadvance, hlapse, bind, Except.bind] at h
        cases h
        exact (counts_advance hadvance).trans (ih hlapse)

/-- Time that can be accounted for is not refused. -/
theorem exists_lapse (h : m.clock.Accounts dts) : ∃ e, m.lapse dts = .ok e := by
  induction dts generalizing m with
  | nil => exact ⟨_, rfl⟩
  | cons dt dts ih =>
    obtain ⟨hlongest, hrest⟩ := h
    have hadvance : m.advance dt = .ok (m.elapse dt) := by
      rw [advance, Clock.advance_of_le hlongest]
      rfl
    have hclock : (m.elapse dt).machine.clock = (m.clock.elapse dt).2 := by
      simp only [elapse, ticks_eq]
      rfl
    rw [← hclock] at hrest
    obtain ⟨rest, hlapse⟩ := ih hrest
    simp only [lapse, hadvance, hlapse, bind, Except.bind]
    exact ⟨_, rfl⟩

/-- Only the last call can be one that stops the tone. -/
theorem eq_play_of_mem_dropLast {ticks sound : Nat} {call : BuzzerCall}
    (h : call ∈ (countdownCalls ticks sound).dropLast) : call = .play := by
  cases sound with
  | zero => cases h
  | succ sound =>
    rw [countdownCalls] at h
    split at h
    case isTrue =>
      rw [List.dropLast_concat] at h
      exact List.eq_of_mem_replicate h
    case isFalse =>
      rw [List.append_nil] at h
      exact List.eq_of_mem_replicate (List.dropLast_subset _ h)

theorem stop_mem_countdownCalls_iff {ticks sound : Nat} :
    .stop ∈ countdownCalls ticks sound ↔ 0 < sound ∧ sound ≤ ticks := by
  cases sound with
  | zero => simp [countdownCalls]
  | succ sound => simp [countdownCalls]

/-- Elapsed times one after another, none of them too long to account for, are served. They lower
each timer by the ticks of all of them, and no timer below zero. The calls of the buzzer are those
of `countdownCalls`: none if the sound timer stood at zero, else one play for each tick that leaves
it running, then one stop if it reaches zero. So only the last call can be a stop, there is one
exactly if the sound timer runs out, and other times with as many ticks give the same calls and the
same processor. -/
theorem tones_follow_timer (m : Machine) (h : m.clock.Accounts dts) :
    ∃ e, m.lapse dts = .ok e ∧
      e.machine.processor.delay.toNat = m.processor.delay.toNat - e.ticks ∧
      e.machine.processor.sound.toNat = m.processor.sound.toNat - e.ticks ∧
      e.calls = countdownCalls e.ticks m.processor.sound.toNat ∧
      (∀ call ∈ e.calls.dropLast, call = .play) ∧
      (.stop ∈ e.calls ↔ m.processor.sound ≠ 0 ∧ e.machine.processor.sound = 0) ∧
      ∀ others f, m.lapse others = .ok f → f.ticks = e.ticks →
        f.calls = e.calls ∧ f.machine.processor = e.machine.processor := by
  obtain ⟨e, he⟩ := exists_lapse h
  have hcounts := counts_lapse he
  refine ⟨e, he, hcounts.delay, hcounts.sound, hcounts.calls, ?_, ?_, ?_⟩
  · intro call hcall
    rw [hcounts.calls] at hcall
    exact eq_play_of_mem_dropLast hcall
  · have hran : e.machine.processor.sound = 0 ↔ m.processor.sound.toNat ≤ e.ticks := by
      rw [← UInt8.toNat_inj, hcounts.sound]
      exact Nat.sub_eq_zero_iff_le
    have hruns : m.processor.sound ≠ 0 ↔ 0 < m.processor.sound.toNat := by
      rw [← UInt8.pos_iff_ne_zero]
      exact UInt8.lt_iff_toNat_lt
    rw [hcounts.calls, stop_mem_countdownCalls_iff, hran, hruns]
  · intro others f hf hticks
    have hother := counts_lapse hf
    rw [hother.calls, hother.machine, hticks, hcounts.calls, hcounts.machine]
    exact ⟨rfl, rfl⟩

/-- Five ticks in two calls, from a sound timer of five on. -/
theorem beep_of_five_ticks :
    ∃ e, (Headless.beeping 516 5 5 .empty).lapse [⟨20000000⟩, ⟨70000000⟩] = .ok e ∧
      e.calls = [.play, .play, .play, .play, .stop] ∧ e.machine.processor.sound = 0 := by
  have hticks : ((Headless.beeping 516 5 5 .empty).lapse [⟨20000000⟩, ⟨70000000⟩]).map
      Lapse.ticks = .ok 5 := rfl
  have haccounts : (Headless.beeping 516 5 5 .empty).clock.Accounts [⟨20000000⟩, ⟨70000000⟩] :=
    ⟨by decide, by decide, trivial⟩
  obtain ⟨e, he, -, hsound, hcalls, -⟩ := tones_follow_timer _ haccounts
  rw [he] at hticks
  have hfive : e.ticks = 5 := Except.ok.inj hticks
  rw [hfive] at hsound hcalls
  exact ⟨e, he, hcalls, UInt8.toNat_inj.mp hsound⟩

end Machine

end ChipEight

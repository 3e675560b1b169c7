import ChipEight.Proofs.InPlace.Stopwatch
import ChipEight.Proofs.Schedule

/-!
# Clocks of two frequencies

A higher frequency has no longer a period, so its clock counts no less in the same calls, as long as
the period does not round down to nothing. Beyond one cycle a nanosecond it does; the clock then
counts one cycle a call, and a lower frequency counts more as soon as it fills more cycles than
there are calls.
-/
namespace ChipEight

open Headless (Session)
open InPlace (Span Stopwatch)

namespace Clock

variable {c : Clock} {dts : List Duration}

/-- The cycles of calls one after another from the start of a clock: whole periods of all the time,
or one a call where there is no period. -/
def due (period : Duration) (dts : List Duration) : Nat :=
  if period = .zero then dts.length else totalNanos dts / period.nanos

theorem totalCount_replicate (calls : Nat) : totalCount (.replicate calls 1) = calls := by
  induction calls with
  | zero => rfl
  | succ calls ih =>
    rw [List.replicate_succ, totalCount, ih]
    exact Nat.add_comm 1 calls

theorem totalNanos_replicate (calls : Nat) (dt : Duration) :
    totalNanos (.replicate calls dt) = calls * dt.nanos := by
  induction calls with
  | zero => exact (Nat.zero_mul _).symm
  | succ calls ih => rw [List.replicate_succ, totalNanos, ih, Nat.succ_mul, Nat.add_comm]

/-- A clock without a period counts the calls and stays as it is. -/
theorem follow_of_no_period (hp : c.period = .zero) (dts : List Duration) :
    c.follow dts = .ok (.replicate dts.length 1, c) := by
  induction dts with
  | nil => rfl
  | cons dt dts ih =>
    have hcall : c.advance dt = .ok (1, c) := by
      rw [advance, if_neg (fun hover => hover.1 hp), elapse, if_pos hp]
    rw [follow, hcall]
    simp only [bind, Except.bind, ih]
    rfl

/-- Calls that all fit count what is due. -/
theorem exists_follow_of_fits {period : Duration} (h : (ofPeriod period).Fits dts) :
    ∃ counts d, (ofPeriod period).follow dts = .ok (counts, d) ∧
      totalCount counts = due period dts := by
  by_cases hp : period = .zero
  · refine ⟨_, _, follow_of_no_period hp dts, ?_⟩
    rw [totalCount_replicate, due, if_pos hp]
  · have hpos : 0 < period.nanos := period_pos (c := ofPeriod period) hp
    obtain ⟨counts, d, hfollow, -, hless, htotal⟩ :=
      follow_of_fits (c := ofPeriod period) hp hpos h
    have hzero : (ofPeriod period).elapsed.nanos = 0 := rfl
    have hsame : (ofPeriod period).period = period := rfl
    rw [hzero, Nat.zero_add, hsame] at htotal
    rw [hsame] at hless
    have hcount := ((Nat.div_mod_unique hpos).mpr ⟨(Nat.add_comm _ _).trans htotal, hless⟩).1
    refine ⟨counts, d, hfollow, ?_⟩
    rw [due, if_neg hp, hcount]

/-- The frames of a run never hold too much time for a clock that carries them. -/
theorem Carries.fits {frame : Nat} (h : c.Carries frame) (hp : c.period ≠ .zero) (count : Nat) :
    c.Fits (.replicate count Session.frameTime) := by
  induction count generalizing c frame with
  | zero => trivial
  | succ count ih =>
    have hlt := h.add_lt hp
    have hlongest : Duration.longest.nanos = 18446744073709551615999999999 := rfl
    have hsize : UInt32.size = 4294967296 := rfl
    have hcycles : c.cycles Session.frameTime ≤ c.elapsed.nanos + Session.frameTime.nanos :=
      Nat.div_le_self _ _
    refine ⟨by omega, by omega, ih h.elapse ?_⟩
    rwa [c.period_elapse]

end Clock

namespace InPlace

theorem Span.duration_ofNanos (n : UInt64) : (Span.ofNanos n).duration = ⟨n.toNat⟩ := by
  have hdiv : (n / 1000000000).toNat = n.toNat / 1000000000 := UInt64.toNat_div n 1000000000
  apply Duration.ext
  rw [nanos_duration]
  show 1000000000 * (n / 1000000000).toNat + (n % 1000000000).toUInt32.toNat = n.toNat
  rw [toNat_subsecond, hdiv]
  exact Nat.div_add_mod _ _

theorem Span.duration_ofFrequency (f : Frequency) : (Span.ofFrequency f).duration = f.period := by
  rw [Span.ofFrequency, Frequency.period]
  by_cases hf : f.hertz = 0
  · rw [if_pos hf, if_pos hf]
    rfl
  · have hdiv : (1000000000 / f.hertz).toNat = 1000000000 / f.hertz.toNat :=
      UInt64.toNat_div 1000000000 f.hertz
    rw [if_neg hf, if_neg hf, duration_ofNanos, hdiv]
    rfl

namespace Stopwatch

variable {w : Stopwatch}

theorem clock_ofFrequency (f : Frequency) :
    (Stopwatch.ofFrequency f).clock = .ofPeriod f.period :=
  Clock.ext (Span.duration_ofFrequency f) rfl

theorem runs_of_no_period (hp : w.period = .zero) (dts : List Span) :
    w.Runs dts (.replicate dts.length 1) w := by
  induction dts with
  | nil => exact .nil w
  | cons dt dts ih => exact .cons ((ends_iff_of_period_eq_zero hp).mpr rfl) ih

end Stopwatch

end InPlace

namespace RunConfig

theorem due_frames (config : RunConfig) (count : Nat) :
    Clock.due config.frequency.period (.replicate count Session.frameTime) =
      config.stepsBy count := by
  have hiff : config.frequency.period = .zero ↔ config.stepNanos = 0 := Duration.ext_iff
  have htime : Session.frameTime.nanos = frameNanos := rfl
  rw [Clock.due, stepsBy, Clock.totalNanos_replicate, List.length_replicate, htime]
  simp only [hiff]
  rfl

/-- The steps that the clock of a run counts in its first frames are those that are due in them. -/
theorem exists_follow_frames (config : RunConfig) (machine : Machine) (count : Nat) :
    ∃ counts d,
      (Session.start config machine).pace.follow (.replicate count Session.frameTime) =
        .ok (counts, d) ∧
      Clock.totalCount counts = config.stepsBy count := by
  rw [← due_frames]
  by_cases hp : config.frequency.period = .zero
  · refine ⟨_, _, Clock.follow_of_no_period hp _, ?_⟩
    rw [Clock.totalCount_replicate, Clock.due, if_pos hp]
  · have hcarries : (Clock.ofPeriod config.frequency.period).Carries 0 := by
      refine ⟨fun _ => ?_, config.stepNanos_le⟩
      rw [Nat.zero_mul, Nat.zero_mod]
      rfl
    exact Clock.exists_follow_of_fits (hcarries.fits hp count)

end RunConfig

namespace Frequency

variable {a b f : Frequency} {dts : List Duration}

theorem period_of_ne_zero (hf : f.hertz ≠ 0) : f.period = ⟨1000000000 / f.hertz.toNat⟩ :=
  if_neg hf

theorem toNat_pos (hf : f.hertz ≠ 0) : 0 < f.hertz.toNat :=
  Nat.pos_of_ne_zero fun h => hf (UInt64.toNat_inj.mp h)

/-- Beyond one cycle a nanosecond no period is left. -/
theorem period_eq_zero_iff (hf : f.hertz ≠ 0) : f.period = .zero ↔ 1000000000 < f.hertz.toNat := by
  rw [period_of_ne_zero hf, Duration.ext_iff]
  exact Nat.div_eq_zero_iff_lt (toNat_pos hf)

theorem ne_zero_of_le (ha : a.hertz ≠ 0) (hab : a.hertz ≤ b.hertz) : b.hertz ≠ 0 := by
  have hpos := toNat_pos ha
  have hle := UInt64.le_iff_toNat_le.mp hab
  intro hzero
  rw [hzero] at hle
  exact absurd hle (Nat.not_le.mpr hpos)

theorem period_le (ha : a.hertz ≠ 0) (hab : a.hertz ≤ b.hertz) :
    b.period.nanos ≤ a.period.nanos := by
  rw [period_of_ne_zero ha, period_of_ne_zero (ne_zero_of_le ha hab)]
  exact Nat.div_le_div_left (UInt64.le_iff_toNat_le.mp hab) (toNat_pos ha)

/-- The lower frequency `a` counts more than `b`: only `b` has no period left, and in these calls
`a` fills more cycles than there are calls. -/
structure Outpaces (a b : Frequency) (dts : List Duration) : Prop where
  measured : a.hertz.toNat ≤ 1000000000
  unmeasured : 1000000000 < b.hertz.toNat
  more : dts.length < Clock.totalNanos dts / (1000000000 / a.hertz.toNat)

/-- The higher frequency has no less due, unless it is outpaced. -/
theorem due_le_iff (ha : a.hertz ≠ 0) (hab : a.hertz ≤ b.hertz) :
    Clock.due a.period dts ≤ Clock.due b.period dts ↔ ¬ a.Outpaces b dts := by
  have hle := UInt64.le_iff_toNat_le.mp hab
  have hb := ne_zero_of_le ha hab
  by_cases hmeasured : a.hertz.toNat ≤ 1000000000
  · have hperiod : a.period ≠ .zero := mt (period_eq_zero_iff ha).mp (Nat.not_lt.mpr hmeasured)
    by_cases hunmeasured : 1000000000 < b.hertz.toNat
    · rw [Clock.due, if_neg hperiod, Clock.due, if_pos ((period_eq_zero_iff hb).mpr hunmeasured),
        period_of_ne_zero ha]
      exact ⟨fun hless h => Nat.not_lt.mpr hless h.more,
        fun h => Nat.not_lt.mp fun hmore => h ⟨hmeasured, hunmeasured, hmore⟩⟩
    · have hother : b.period ≠ .zero := mt (period_eq_zero_iff hb).mp hunmeasured
      have hpositive : 0 < b.period.nanos := Nat.pos_of_ne_zero fun h => hother (Duration.ext h)
      rw [Clock.due, if_neg hperiod, Clock.due, if_neg hother]
      exact iff_of_true (Nat.div_le_div_left (period_le ha hab) hpositive)
        fun h => hunmeasured h.unmeasured
  · have hnone : a.period = .zero := (period_eq_zero_iff ha).mpr (Nat.not_le.mp hmeasured)
    have hother : b.period = .zero := (period_eq_zero_iff hb).mpr (by omega)
    rw [Clock.due, if_pos hnone, Clock.due, if_pos hother]
    exact iff_of_true (Nat.le_refl _) fun h => hmeasured h.measured

/-- Calls one after another from the start of a clock in place all end, with a total of cycles. -/
def Counts (f : Frequency) (dts : List Span) (total : Nat) : Prop :=
  ∃ counts w, (Stopwatch.ofFrequency f).Runs dts counts w ∧ Clock.totalCount counts = total

/-- Calls in place that all fit count what is due, and nothing else. -/
theorem counts_iff {dts : List Span}
    (hfits : (Stopwatch.ofFrequency f).clock.Fits (dts.map Span.duration)) (total : Nat) :
    f.Counts dts total ↔ total = Clock.due f.period (dts.map Span.duration) := by
  obtain ⟨counts, w, hruns, hdue⟩ : ∃ counts w, (Stopwatch.ofFrequency f).Runs dts counts w ∧
      Clock.totalCount counts = Clock.due f.period (dts.map Span.duration) := by
    by_cases hp : (Stopwatch.ofFrequency f).period = .zero
    · have hperiod : f.period = .zero :=
        (Span.duration_ofFrequency f).symm.trans (Span.duration_eq_zero_iff.mpr hp)
      refine ⟨_, _, Stopwatch.runs_of_no_period hp dts, ?_⟩
      rw [Clock.totalCount_replicate, Clock.due, if_pos hperiod, List.length_map]
    · obtain ⟨counts, w, hruns, hfollow⟩ := Stopwatch.runs_follow hp hfits
      rw [Stopwatch.clock_ofFrequency] at hfits hfollow
      obtain ⟨_, _, hfollowed, hdue⟩ := Clock.exists_follow_of_fits hfits
      cases hfollow.symm.trans hfollowed
      exact ⟨counts, w, hruns, hdue⟩
  constructor
  · intro h
    obtain ⟨counts', w', hruns', rfl⟩ := h
    rw [(Stopwatch.runs_unique hruns hruns').1, hdue]
  · intro h
    exact ⟨counts, w, hruns, hdue.trans h.symm⟩

/-- In calls that fit, the clock of a higher frequency counts at least as many cycles as that of a
lower one if and only if the lower one does not outpace it. So do the clocks of two runs in any
number of their first frames. -/
theorem counts_le_iff (ha : a.hertz ≠ 0) (hab : a.hertz ≤ b.hertz) :
    (∀ dts : List Span, (Stopwatch.ofFrequency a).clock.Fits (dts.map Span.duration) →
      (Stopwatch.ofFrequency b).clock.Fits (dts.map Span.duration) →
      ∃ slow fast, (∀ total, a.Counts dts total ↔ total = slow) ∧
        (∀ total, b.Counts dts total ↔ total = fast) ∧
        (slow ≤ fast ↔ ¬ a.Outpaces b (dts.map Span.duration))) ∧
    ∀ (c d : RunConfig) (m n : Machine) (frames : Nat), c.frequency = a → d.frequency = b →
      ∃ slow fast p q,
        (Session.start c m).pace.follow (.replicate frames Session.frameTime) = .ok (slow, p) ∧
        (Session.start d n).pace.follow (.replicate frames Session.frameTime) = .ok (fast, q) ∧
        Clock.totalCount slow = c.stepsBy frames ∧ Clock.totalCount fast = d.stepsBy frames ∧
        (Clock.totalCount slow ≤ Clock.totalCount fast ↔
          ¬ a.Outpaces b (.replicate frames Session.frameTime)) := by
  constructor
  · intro dts hslow hfast
    exact ⟨_, _, counts_iff hslow, counts_iff hfast, due_le_iff ha hab⟩
  · intro c d m n frames hc hd
    obtain ⟨slow, p, hslow, hcount⟩ := c.exists_follow_frames m frames
    obtain ⟨fast, q, hfast, hcount'⟩ := d.exists_follow_frames n frames
    refine ⟨slow, fast, p, q, hslow, hfast, hcount, hcount', ?_⟩
    rw [hcount, hcount', ← c.due_frames, ← d.due_frames, hc, hd]
    exact due_le_iff ha hab

/-- Two frames hold sixteen cycles at 500 hertz, and no fewer at 700. -/
theorem counts_of_two_frames :
    ∃ more, Counts ⟨500⟩ [⟨0, 16666666, by decide⟩, ⟨0, 16666666, by decide⟩] 16 ∧
      Counts ⟨700⟩ [⟨0, 16666666, by decide⟩, ⟨0, 16666666, by decide⟩] more ∧ 16 ≤ more ∧
      ∃ slow fast p q,
        (Session.start .default (Machine.new .default (.ofSeed 0))).pace.follow
          (.replicate 3 Session.frameTime) = .ok (slow, p) ∧
        (Session.start ⟨⟨some ⟨700⟩, none⟩, 600, []⟩ (Machine.new .default (.ofSeed 0))).pace.follow
          (.replicate 3 Session.frameTime) = .ok (fast, q) ∧
        Clock.totalCount slow ≤ Clock.totalCount fast := by
  obtain ⟨hcalls, hframes⟩ := counts_le_iff (a := ⟨500⟩) (b := ⟨700⟩) (by decide) (by decide)
  obtain ⟨slow, fast, hslow, hfast, hle⟩ :=
    hcalls [⟨0, 16666666, by decide⟩, ⟨0, 16666666, by decide⟩]
      ⟨by decide, by decide, by decide, by decide, trivial⟩
      ⟨by decide, by decide, by decide, by decide, trivial⟩
  have hfits : (Stopwatch.ofFrequency ⟨500⟩).clock.Fits [⟨16666666⟩, ⟨16666666⟩] :=
    ⟨by decide, by decide, by decide, by decide, trivial⟩
  have hsixteen : Counts ⟨500⟩ [⟨0, 16666666, by decide⟩, ⟨0, 16666666, by decide⟩] 16 :=
    (counts_iff hfits 16).mpr (by decide)
  obtain rfl := (hslow 16).mp hsixteen
  obtain ⟨counts, counts', p, q, hpace, hpace', -, -, hframe⟩ :=
    hframes .default ⟨⟨some ⟨700⟩, none⟩, 600, []⟩ (Machine.new .default (.ofSeed 0))
      (Machine.new .default (.ofSeed 0)) 3 rfl rfl
  refine ⟨fast, hsixteen, (hfast fast).mpr rfl, hle.mpr ?_, counts, counts', p, q, hpace, hpace',
    hframe.mpr ?_⟩
  · exact fun h => absurd h.unmeasured (by decide)
  · exact fun h => absurd h.unmeasured (by decide)

/-- The law fails one hertz beyond one cycle a nanosecond: two nanoseconds in one call are two
cycles before and one after. -/
theorem counts_less_without_period :
    ¬ ∀ a b : Frequency, a.hertz ≠ 0 → a.hertz ≤ b.hertz → ∀ dts : List Span,
      (Stopwatch.ofFrequency a).clock.Fits (dts.map Span.duration) →
      (Stopwatch.ofFrequency b).clock.Fits (dts.map Span.duration) →
      ∀ slow fast, a.Counts dts slow → b.Counts dts fast → slow ≤ fast := by
  intro hlaw
  have hfits : (Stopwatch.ofFrequency ⟨1000000000⟩).clock.Fits [⟨2⟩] :=
    ⟨by decide, by decide, trivial⟩
  have hfits' : (Stopwatch.ofFrequency ⟨1000000001⟩).clock.Fits [⟨2⟩] :=
    ⟨by decide, by decide, trivial⟩
  have htwo : Counts ⟨1000000000⟩ [⟨0, 2, by decide⟩] 2 := (counts_iff hfits 2).mpr (by decide)
  have hone : Counts ⟨1000000001⟩ [⟨0, 2, by decide⟩] 1 := (counts_iff hfits' 1).mpr (by decide)
  have hle := hlaw ⟨1000000000⟩ ⟨1000000001⟩ (by decide) (by decide) [⟨0, 2, by decide⟩] hfits
    hfits'
    2 1 htwo hone
  exact absurd hle (by decide)

/-- A frame holds eight steps at 500 hertz and one at two thousand million. -/
example : (RunConfig.stepsBy ⟨⟨some ⟨500⟩, none⟩, 600, []⟩ 1,
    RunConfig.stepsBy ⟨⟨some ⟨2000000000⟩, none⟩, 600, []⟩ 1) = (8, 1) := by decide

end Frequency

end ChipEight

import ChipEight.InPlace.Stopwatch
import ChipEight.Proofs.Clock

/-!
# Clocks in place conserve time

The loop of a call in place ends where division would: with the quotient of the elapsed time by the
period and its remainder. Calls in place are therefore the calls of the clock behind the words, and
the only sum that can fail is that of more time than the words hold.
-/
namespace ChipEight.InPlace

namespace Span

variable {a b c : Span}

theorem nanos_duration (s : Span) :
    s.duration.nanos = 1000000000 * s.seconds.toNat + s.nanos.toNat := rfl

theorem duration_inj (h : a.duration = b.duration) : a = b := by
  have ha := a.nanos_lt
  have hb := b.nanos_lt
  have hnanos := congrArg Duration.nanos h
  rw [nanos_duration, nanos_duration] at hnanos
  apply Span.ext
  · apply UInt64.toNat_inj.mp
    omega
  · apply UInt32.toNat_inj.mp
    omega

/-- Words hold no longer time than the longest. -/
theorem duration_le_longest (s : Span) : s.duration.nanos ≤ Duration.longest.nanos := by
  have hlongest : Duration.longest.nanos = 18446744073709551615999999999 := rfl
  have hseconds := s.seconds.toNat_lt
  have hnanos := s.nanos_lt
  rw [nanos_duration]
  omega

theorem duration_eq_zero_iff : a.duration = .zero ↔ a = .zero :=
  ⟨fun h => duration_inj (b := .zero) h, fun h => congrArg duration h⟩

/-- Seconds before nanoseconds is the order of the times. -/
theorem covers_iff : a.covers b = true ↔ b.duration.nanos ≤ a.duration.nanos := by
  have ha := a.nanos_lt
  have hb := b.nanos_lt
  rw [covers, decide_eq_true_iff, UInt64.lt_iff_toNat_lt, ← UInt64.toNat_inj,
    UInt32.le_iff_toNat_le, nanos_duration, nanos_duration]
  omega

theorem toNat_add_seconds (h : a.seconds.toNat + b.seconds.toNat < UInt64.size) :
    (a.seconds + b.seconds).toNat = a.seconds.toNat + b.seconds.toNat := by
  rw [UInt64.toNat_add]
  exact Nat.mod_eq_of_lt h

theorem toNat_next_second (seconds : UInt64) (h : seconds.toNat + 1 < UInt64.size) :
    (seconds + 1).toNat = seconds.toNat + 1 := by
  rw [UInt64.toNat_add]
  exact Nat.mod_eq_of_lt h

/-- A sum is none if and only if it is longer than any time in words, and else it is exact. -/
theorem sum?_cases (a b : Span) :
    (a.sum? b = none ∧ Duration.longest.nanos < a.duration.nanos + b.duration.nanos) ∨
      ∃ c, a.sum? b = some c ∧ c.duration.nanos = a.duration.nanos + b.duration.nanos := by
  have hlongest : Duration.longest.nanos = 18446744073709551615999999999 := rfl
  have hsize : UInt64.size = 18446744073709551616 := rfl
  have hnanos := toNat_add_nanos a b
  rw [nanos_duration, nanos_duration, sum?]
  by_cases hseconds : a.seconds.toNat + b.seconds.toNat < UInt64.size
  · have hadd := toNat_add_seconds hseconds
    rw [if_pos hseconds]
    by_cases hcarry : 1000000000 ≤ a.nanos + b.nanos
    · have hcarried := toNat_carried a b hcarry
      have hle : 1000000000 ≤ a.nanos.toNat + b.nanos.toNat := by
        rw [← hnanos]
        exact UInt32.le_iff_toNat_le.mp hcarry
      dsimp only
      rw [dif_pos hcarry]
      -- seconds that fit may still not fit with the second that is carried
      by_cases hone : (a.seconds + b.seconds).toNat + 1 < UInt64.size
      · rw [if_pos hone]
        refine .inr ⟨_, rfl, ?_⟩
        rw [nanos_duration, toNat_next_second _ hone, hadd, hcarried]
        omega
      · rw [if_neg hone]
        exact .inl ⟨rfl, by omega⟩
    · dsimp only
      rw [dif_neg hcarry]
      refine .inr ⟨_, rfl, ?_⟩
      rw [nanos_duration, hadd, hnanos]
      omega
  · rw [if_neg hseconds]
    exact .inl ⟨rfl, by omega⟩

theorem difference?_of_covers (h : a.covers b = true) :
    ∃ c, a.difference? b = some c ∧ c.duration.nanos = a.duration.nanos - b.duration.nanos := by
  have ha := a.nanos_lt
  have hb := b.nanos_lt
  have hle := covers_iff.mp h
  rw [nanos_duration, nanos_duration] at hle ⊢
  have hseconds : b.seconds ≤ a.seconds := by
    rw [UInt64.le_iff_toNat_le]
    omega
  have hsub := UInt64.toNat_sub_of_le _ _ hseconds
  rw [difference?, if_pos hseconds]
  dsimp only
  by_cases hnanos : b.nanos ≤ a.nanos
  · rw [dif_pos hnanos]
    refine ⟨_, rfl, ?_⟩
    rw [nanos_duration, hsub, UInt32.toNat_sub_of_le _ _ hnanos]
    rw [UInt64.le_iff_toNat_le] at hseconds
    rw [UInt32.le_iff_toNat_le] at hnanos
    omega
  · have hborrowed := toNat_borrowed a b
    rw [UInt64.le_iff_toNat_le] at hseconds
    have hone : (1 : UInt64) ≤ a.seconds - b.seconds := by
      rw [UInt32.le_iff_toNat_le] at hnanos
      rw [UInt64.le_iff_toNat_le, hsub]
      show 1 ≤ _
      omega
    rw [dif_neg hnanos, if_pos hone]
    refine ⟨_, rfl, ?_⟩
    rw [nanos_duration, UInt64.toNat_sub_of_le _ _ hone, hsub, hborrowed]
    rw [UInt64.le_iff_toNat_le, hsub] at hone
    rw [UInt32.le_iff_toNat_le] at hnanos
    have hone : 1 ≤ a.seconds.toNat - b.seconds.toNat := hone
    show 1000000000 * (a.seconds.toNat - b.seconds.toNat - 1) + _ = _
    omega

end Span

namespace Stopwatch

/-- Fuel that is left over changes nothing. -/
theorem drain_stable {period : Span} {fuel more : Nat} {elapsed : Span} {cycles : UInt32}
    {r : Except Failure (UInt32 × Span)} (h : drain period fuel elapsed cycles = some r)
    (hle : fuel ≤ more) : drain period more elapsed cycles = some r := by
  induction fuel generalizing more elapsed cycles with
  | zero => cases h
  | succ fuel ih =>
    obtain ⟨more, rfl⟩ : ∃ n, more = n + 1 := ⟨more - 1, by omega⟩
    rw [drain] at h ⊢
    split at h
    · rename_i hcovers
      rw [if_pos hcovers]
      cases hrest : elapsed.difference? period with
      | none =>
        rw [hrest] at h
        exact h
      | some rest =>
        rw [hrest] at h
        dsimp only at h ⊢
        split at h
        · rename_i hcount
          rw [if_pos hcount]
          exact ih h (by omega)
        · rename_i hcount
          rw [if_neg hcount]
          exact h
    · rename_i hcovers
      rw [if_neg hcovers]
      exact h

/-- The loop fails only for its count. -/
theorem eq_count_of_drain {period : Span} {fuel : Nat} {elapsed : Span} {cycles : UInt32}
    {e : Failure} (h : drain period fuel elapsed cycles = some (.error e)) : e = .count := by
  induction fuel generalizing elapsed cycles with
  | zero => cases h
  | succ fuel ih =>
    rw [drain] at h
    split at h
    · rename_i hcovers
      obtain ⟨rest, hrest, -⟩ := Span.difference?_of_covers hcovers
      rw [hrest] at h
      dsimp only at h
      split at h
      · exact ih h
      · cases h
        rfl
    · cases h

/-- The loop ends where division does. It makes one round for each whole period, so it needs fuel
for these and for the test that ends it. -/
theorem drain_eq_div {period : Span} (hperiod : 0 < period.duration.nanos) (rounds : Nat)
    {elapsed : Span} {cycles : UInt32}
    (hrounds : elapsed.duration.nanos / period.duration.nanos = rounds)
    (hcount : cycles.toNat + rounds < UInt32.size) :
    ∃ rest, drain period (rounds + 1) elapsed cycles =
        some (.ok (UInt32.ofNat (cycles.toNat + rounds), rest)) ∧
      rest.duration.nanos = elapsed.duration.nanos % period.duration.nanos := by
  induction rounds generalizing elapsed cycles with
  | zero =>
    have hless : elapsed.duration.nanos < period.duration.nanos :=
      (Nat.div_eq_zero_iff_lt hperiod).mp hrounds
    have hcovers : ¬ elapsed.covers period = true := by
      rw [Span.covers_iff]
      exact Nat.not_le.mpr hless
    refine ⟨elapsed, ?_, (Nat.mod_eq_of_lt hless).symm⟩
    rw [drain, if_neg hcovers, Nat.add_zero, UInt32.ofNat_toNat]
  | succ rounds ih =>
    -- a round lowers the quotient by one and keeps the remainder
    have hle : period.duration.nanos ≤ elapsed.duration.nanos :=
      (Nat.div_pos_iff.mp (by omega)).2
    obtain ⟨rest, hdifference, hnanos⟩ := Span.difference?_of_covers (Span.covers_iff.mpr hle)
    have hone : (cycles + 1).toNat = cycles.toNat + 1 := by
      rw [UInt32.toNat_add]
      exact Nat.mod_eq_of_lt (by show cycles.toNat + 1 < UInt32.size; omega)
    have hless : rest.duration.nanos / period.duration.nanos = rounds := by
      have hdiv := Nat.div_eq_sub_div hperiod hle
      rw [hnanos]
      omega
    have hfits : (cycles + 1).toNat + rounds < UInt32.size := by omega
    obtain ⟨last, hdrain, hlast⟩ := ih hless hfits
    refine ⟨last, ?_, ?_⟩
    · rw [drain, if_pos (Span.covers_iff.mpr hle), hdifference]
      dsimp only
      rw [if_pos (by omega), hdrain, hone, Nat.add_assoc, Nat.add_comm 1 rounds]
    · rw [hlast, hnanos, ← Nat.mod_eq_sub_mod hle]

/-- The loop goes on as long as a period has elapsed. -/
theorem drain_lt {period : Span} {fuel : Nat} {elapsed rest : Span} {cycles count : UInt32}
    (h : drain period fuel elapsed cycles = some (.ok (count, rest))) :
    rest.duration.nanos < period.duration.nanos := by
  induction fuel generalizing elapsed cycles with
  | zero => cases h
  | succ fuel ih =>
    rw [drain] at h
    split at h
    · split at h
      · cases h
      · split at h
        · exact ih h
        · cases h
    · rename_i hcovers
      cases h
      rw [Span.covers_iff] at hcovers
      exact Nat.not_le.mp hcovers

variable {u v w : Stopwatch} {dt : Span}

theorem period_clock_ne_zero (hp : w.period ≠ .zero) : w.clock.period ≠ .zero :=
  fun h => hp (Span.duration_eq_zero_iff.mp h)

/-- A call of a clock without a period ends at once and leaves the clock alone. -/
theorem ends_iff_of_period_eq_zero (hp : w.period = .zero)
    {result : Except Failure (UInt32 × Stopwatch)} : w.Ends dt result ↔ result = .ok (1, w) := by
  simp only [Ends, advance, if_pos hp, Option.some.injEq, exists_const]
  exact eq_comm

/-- How a call ends: with a sum that does not fit, or as its loop ends. -/
theorem ends_iff (hp : w.period ≠ .zero) {result : Except Failure (UInt32 × Stopwatch)} :
    w.Ends dt result ↔
      (w.elapsed.sum? dt = none ∧ result = .error .sum) ∨
      ∃ elapsed fuel drained, w.elapsed.sum? dt = some elapsed ∧
        drain w.period fuel elapsed 0 = some drained ∧
        result = drained.map fun (cycles, rest) => (cycles, { w with elapsed := rest }) := by
  simp only [Ends, advance, if_neg hp]
  cases w.elapsed.sum? dt with
  | none => simp [eq_comm]
  | some elapsed =>
    constructor
    · rintro ⟨fuel, h⟩
      obtain ⟨drained, hdrain, rfl⟩ := Option.map_eq_some_iff.mp h
      exact .inr ⟨elapsed, fuel, drained, rfl, hdrain, rfl⟩
    · rintro (⟨h, -⟩ | ⟨_, fuel, drained, h, hdrain, rfl⟩)
      · cases h
      · cases h
        exact ⟨fuel, Option.map_eq_some_iff.mpr ⟨drained, hdrain, rfl⟩⟩

/-- A call has one result, whatever fuel it is given. -/
theorem ends_unique {a b : Except Failure (UInt32 × Stopwatch)} (ha : w.Ends dt a)
    (hb : w.Ends dt b) : a = b := by
  by_cases hp : w.period = .zero
  · rw [(ends_iff_of_period_eq_zero hp).mp ha, (ends_iff_of_period_eq_zero hp).mp hb]
  · rw [ends_iff hp] at ha hb
    obtain ⟨hnone, rfl⟩ | ⟨elapsed, m, x, hsum, hx, rfl⟩ := ha <;>
      obtain ⟨hnone', rfl⟩ | ⟨elapsed', n, y, hsum', hy, rfl⟩ := hb
    · rfl
    · rw [hnone] at hsum'
      cases hsum'
    · rw [hsum] at hnone'
      cases hnone'
    · cases hsum.symm.trans hsum'
      have hx := drain_stable hx (Nat.le_max_left m n)
      have hy := drain_stable hy (Nat.le_max_right m n)
      cases hx.symm.trans hy
      rfl

theorem runs_unique {dts : List Span} {counts counts' : List UInt32} (h : u.Runs dts counts v)
    (h' : u.Runs dts counts' w) : counts' = counts ∧ w = v := by
  induction h generalizing counts' w with
  | nil =>
    cases h'
    exact ⟨rfl, rfl⟩
  | cons hcall _ ih =>
    cases h' with
    | cons hcall' hrest' =>
      cases ends_unique hcall hcall'
      obtain ⟨rfl, rfl⟩ := ih hrest'
      exact ⟨rfl, rfl⟩

/-- A call that ends with a count keeps its period and less time than that. -/
theorem elapsed_lt_of_ends (hp : w.period ≠ .zero) {count : UInt32}
    (h : w.Ends dt (.ok (count, v))) :
    v.period = w.period ∧ v.elapsed.duration.nanos < w.period.duration.nanos := by
  obtain ⟨-, h⟩ | ⟨_, _, drained, -, hdrain, h⟩ := (ends_iff hp).mp h
  · cases h
  · cases drained with
    | error => cases h
    | ok =>
      cases h
      exact ⟨rfl, drain_lt hdrain⟩

/-- The one way in which a call cannot go on, but for a count that does not fit. -/
theorem ends_error_iff (hp : w.period ≠ .zero) {e : Failure} (he : e ≠ .count) :
    w.Ends dt (.error e) ↔
      e = .sum ∧ Duration.longest.nanos < w.elapsed.duration.nanos + dt.duration.nanos := by
  rw [ends_iff hp]
  constructor
  · rintro (⟨hsum, h⟩ | ⟨_, _, drained, -, hdrain, h⟩)
    · cases h
      obtain ⟨-, hlong⟩ | ⟨_, hsome, -⟩ := Span.sum?_cases w.elapsed dt
      · exact ⟨rfl, hlong⟩
      · rw [hsum] at hsome
        cases hsome
    · cases drained with
      | error =>
        cases h
        exact absurd (eq_count_of_drain hdrain) he
      | ok => cases h
  · rintro ⟨rfl, hlong⟩
    obtain ⟨hsum, -⟩ | ⟨sum, -, hnanos⟩ := Span.sum?_cases w.elapsed dt
    · exact .inl ⟨hsum, rfl⟩
    · rw [← hnanos] at hlong
      exact absurd sum.duration_le_longest (Nat.not_le.mpr hlong)

/-- A call in place ends as the clock behind it divides. -/
theorem ends_elapse (hp : w.period ≠ .zero)
    (hlongest : w.clock.elapsed.nanos + dt.duration.nanos ≤ Duration.longest.nanos)
    (hcount : w.clock.cycles dt.duration < UInt32.size) :
    ∃ v, w.Ends dt (.ok ((w.clock.elapse dt.duration).1, v)) ∧
      v.clock = (w.clock.elapse dt.duration).2 := by
  have hclock := period_clock_ne_zero hp
  obtain ⟨-, hlong⟩ | ⟨elapsed, hsum, hnanos⟩ := Span.sum?_cases w.elapsed dt
  · exact absurd hlongest (Nat.not_le.mpr hlong)
  · have hcycles :
        elapsed.duration.nanos / w.period.duration.nanos = w.clock.cycles dt.duration := by
      rw [hnanos]
      rfl
    have hfits : (0 : UInt32).toNat + w.clock.cycles dt.duration < UInt32.size := by
      rwa [UInt32.toNat_zero, Nat.zero_add]
    obtain ⟨rest, hdrain, hrest⟩ := drain_eq_div (Clock.period_pos hclock) _ hcycles hfits
    rw [UInt32.toNat_zero, Nat.zero_add] at hdrain
    rw [Clock.elapse, if_neg hclock]
    refine ⟨{ w with elapsed := rest }, ?_, ?_⟩
    · exact (ends_iff hp).mpr (.inr ⟨elapsed, _, _, hsum, hdrain, rfl⟩)
    · apply Clock.ext
      · rfl
      · apply Duration.ext
        rw [hnanos] at hrest
        exact hrest

/-- Calls in place end as the calls of the clock behind them. -/
theorem runs_follow (hp : w.period ≠ .zero) {dts : List Span}
    (hfits : w.clock.Fits (dts.map Span.duration)) :
    ∃ counts v, w.Runs dts counts v ∧
      w.clock.follow (dts.map Span.duration) = .ok (counts, v.clock) := by
  induction dts generalizing w with
  | nil => exact ⟨[], w, .nil w, rfl⟩
  | cons dt dts ih =>
    obtain ⟨hlongest, hcount, hrest⟩ := hfits
    obtain ⟨u, hcall, hu⟩ := ends_elapse hp hlongest hcount
    have hperiod := (elapsed_lt_of_ends hp hcall).1
    rw [← hu] at hrest
    obtain ⟨counts, v, hruns, hfollow⟩ := ih (by rwa [hperiod]) hrest
    refine ⟨_ :: counts, v, .cons hcall hruns, ?_⟩
    rw [List.map_cons, Clock.follow_cons hlongest, ← hu, hfollow]
    rfl

/-- From its start a clock loses no time in any calls that it can count, and what it has counted and
kept depends only on the whole time. A call fails, but for its count, only for a sum that is too
long. Without a period every call counts one. -/
theorem conserves_time (w : Stopwatch) :
    (w.period ≠ .zero →
      (w.elapsed = .zero → ∀ dts : List Span, w.clock.Fits (dts.map Span.duration) →
        ∃ counts v, w.Runs dts counts v ∧
          (∀ counts' v', w.Runs dts counts' v' → counts' = counts ∧ v' = v) ∧
          w.clock.follow (dts.map Span.duration) = .ok (counts, v.clock) ∧
          w.period.duration.nanos * Clock.totalCount counts + v.elapsed.duration.nanos =
            Clock.totalNanos (dts.map Span.duration) ∧
          Clock.totalCount counts =
            Clock.totalNanos (dts.map Span.duration) / w.period.duration.nanos ∧
          v.elapsed.duration.nanos =
            Clock.totalNanos (dts.map Span.duration) % w.period.duration.nanos) ∧
      (∀ dt count v, w.Ends dt (.ok (count, v)) →
        v.period = w.period ∧ v.elapsed.duration.nanos < w.period.duration.nanos) ∧
      ∀ dt, (w.Ends dt (.error .sum) ↔
          Duration.longest.nanos < w.elapsed.duration.nanos + dt.duration.nanos) ∧
        ¬ w.Ends dt (.error .difference)) ∧
    (w.period = .zero → ∀ dt result, w.Ends dt result ↔ result = .ok (1, w)) := by
  refine ⟨fun hp => ⟨?_, fun dt count v => elapsed_lt_of_ends hp, fun dt => ⟨?_, ?_⟩⟩,
    fun hp dt result => ends_iff_of_period_eq_zero hp⟩
  · intro hstart dts hfits
    have hclock := period_clock_ne_zero hp
    have hpos := Clock.period_pos hclock
    have hzero : w.clock.elapsed.nanos = 0 := by
      rw [clock, hstart]
      rfl
    obtain ⟨counts, v, hruns, hfollow⟩ := runs_follow hp hfits
    obtain ⟨_, _, hfollow', -, hless, htotal⟩ :=
      Clock.follow_of_fits hclock (by rwa [hzero]) hfits
    cases hfollow.symm.trans hfollow'
    rw [hzero, Nat.zero_add] at htotal
    obtain ⟨hcount, hrest⟩ := (Nat.div_mod_unique hpos).mpr ⟨(Nat.add_comm _ _).trans htotal, hless⟩
    exact ⟨counts, v, hruns, fun _ _ => runs_unique hruns, hfollow, htotal, hcount.symm, hrest.symm⟩
  · rw [ends_error_iff hp (by decide)]
    exact ⟨And.right, fun h => ⟨rfl, h⟩⟩
  · rw [ends_error_iff hp (by decide)]
    exact fun h => nomatch h.1

/-- Ten milliseconds a cycle: fifty-five of them in five calls are five cycles, and half a cycle
that is left makes the longest time too long. A clock without a period counts one. -/
theorem cycles_of_ten_milliseconds :
    (∃ counts v,
      Runs ⟨⟨0, 10000000, by decide⟩, .zero⟩
        [⟨0, 4000000, by decide⟩, ⟨0, 4000000, by decide⟩, ⟨0, 4000000, by decide⟩,
          ⟨0, 8000000, by decide⟩, ⟨0, 35000000, by decide⟩] counts v ∧
      Clock.totalCount counts = 5 ∧ v.elapsed.duration.nanos = 5000000) ∧
    Ends ⟨⟨0, 10000000, by decide⟩, ⟨0, 5000000, by decide⟩⟩
      ⟨0xFFFFFFFFFFFFFFFF, 999999999, by decide⟩ (.error .sum) ∧
    Ends ⟨.zero, .zero⟩ ⟨0, 4000000, by decide⟩ (.ok (1, ⟨.zero, .zero⟩)) := by
  refine ⟨?_, ?_, ?_⟩
  · obtain ⟨counts, v, hruns, -, -, -, hcount, hrest⟩ :=
      ((conserves_time ⟨⟨0, 10000000, by decide⟩, .zero⟩).1 (by decide)).1 rfl
        [⟨0, 4000000, by decide⟩, ⟨0, 4000000, by decide⟩, ⟨0, 4000000, by decide⟩,
          ⟨0, 8000000, by decide⟩, ⟨0, 35000000, by decide⟩]
        ⟨by decide, by decide, by decide, by decide, by decide, by decide, by decide, by decide,
          by decide, by decide, trivial⟩
    exact ⟨counts, v, hruns, hcount, hrest⟩
  · exact (((conserves_time _).1 (by decide)).2.2 _).1.mpr (by decide)
  · exact ((conserves_time _).2 rfl _ _).mpr rfl

end Stopwatch

end ChipEight.InPlace

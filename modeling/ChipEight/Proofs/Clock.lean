import ChipEight.Clock

/-!
# Calls of a clock

A clock that is asked again and again loses no time: the cycles of all calls and what is left at the
end make up the time that it was given. The time since the last cycle is the remainder of all of it,
so neither depends on how the time was divided into calls.
-/
namespace ChipEight.Clock

/-- Calls one after another, with the cycles of each. -/
def follow (c : Clock) : List Duration → Except Error (List UInt32 × Clock)
  | [] => .ok ([], c)
  | dt :: dts => do
    let (count, c) ← c.advance dt
    let (counts, c) ← c.follow dts
    return (count :: counts, c)

/-- No call has too much time to account for or more cycles than can be counted. -/
def Fits (c : Clock) : List Duration → Prop
  | [] => True
  | dt :: dts =>
    c.elapsed.nanos + dt.nanos ≤ Duration.longest.nanos ∧ c.cycles dt < UInt32.size ∧
      (c.elapse dt).2.Fits dts

def totalCount : List UInt32 → Nat
  | [] => 0
  | count :: counts => count.toNat + totalCount counts

def totalNanos : List Duration → Nat
  | [] => 0
  | dt :: dts => dt.nanos + totalNanos dts

variable {c : Clock}

theorem advance_of_le {dt : Duration}
    (h : c.elapsed.nanos + dt.nanos ≤ Duration.longest.nanos) :
    c.advance dt = .ok (c.elapse dt) := by
  rw [advance, if_neg]
  rintro ⟨_, hlt⟩
  exact Nat.not_lt.mpr h hlt

theorem follow_cons {dt : Duration} {dts : List Duration}
    (h : c.elapsed.nanos + dt.nanos ≤ Duration.longest.nanos) :
    c.follow (dt :: dts) =
      ((c.elapse dt).2.follow dts).map fun (counts, d) => ((c.elapse dt).1 :: counts, d) := by
  rw [follow, advance_of_le h]
  simp only [bind, Except.bind]
  cases (c.elapse dt).2.follow dts <;> rfl

theorem toNat_elapse {dt : Duration} (hp : c.period ≠ .zero)
    (hcount : c.cycles dt < UInt32.size) : (c.elapse dt).1.toNat = c.cycles dt := by
  rw [elapse, if_neg hp]
  exact Nat.mod_eq_of_lt hcount

/-- The step lemma: a call counts the cycles in its time and keeps the rest. -/
theorem count_add_elapsed {dt : Duration} (hp : c.period ≠ .zero)
    (hcount : c.cycles dt < UInt32.size) :
    c.period.nanos * (c.elapse dt).1.toNat + (c.elapse dt).2.elapsed.nanos =
      c.elapsed.nanos + dt.nanos := by
  rw [toNat_elapse hp hcount]
  exact cycles_add_elapsed dt hp

theorem period_elapse (c : Clock) (dt : Duration) : (c.elapse dt).2.period = c.period := by
  rw [elapse]
  split <;> rfl

/-- The run lemma: calls end, keep less than a period, and conserve the time. -/
theorem follow_of_fits (hp : c.period ≠ .zero) (helapsed : c.elapsed.nanos < c.period.nanos)
    {dts : List Duration} (h : c.Fits dts) :
    ∃ counts d, c.follow dts = .ok (counts, d) ∧ d.period = c.period ∧
      d.elapsed.nanos < c.period.nanos ∧
      c.period.nanos * totalCount counts + d.elapsed.nanos = c.elapsed.nanos + totalNanos dts := by
  induction dts generalizing c with
  | nil => exact ⟨[], c, rfl, rfl, helapsed, Nat.add_comm _ _⟩
  | cons dt dts ih =>
    obtain ⟨hlongest, hcount, hrest⟩ := h
    have hperiod := c.period_elapse dt
    have hcall := count_add_elapsed hp hcount
    have hless := elapsed_elapse_lt dt hp
    obtain ⟨counts, d, hfollow, hsame, hlast, htotal⟩ :=
      ih (by rwa [hperiod]) (by rwa [hperiod]) hrest
    rw [hperiod] at hsame hlast htotal
    refine ⟨(c.elapse dt).1 :: counts, d, ?_, hsame, hlast, ?_⟩
    · rw [follow_cons hlongest, hfollow]
      rfl
    · rw [totalCount, totalNanos, Nat.mul_add]
      omega

end ChipEight.Clock

import ChipEight.Clock

/-!
# Clocks in place

A clock as words. A length of time is a number of seconds and a number of nanoseconds below a
second; sums carry from one to the other, differences borrow, and either may not fit. A call takes
whole periods off the elapsed time one after another and counts them. Its loop is given fuel, and
only a loop that ends within its fuel has a result.
-/
namespace ChipEight.InPlace

/-- A length of time in words. -/
@[ext]
structure Span where
  seconds : UInt64
  nanos : UInt32
  nanos_lt : nanos.toNat < 1000000000
deriving DecidableEq

namespace Span

def zero : Span := ⟨0, 0, Nat.succ_pos 999999999⟩

/-- The same time as one number of nanoseconds. -/
def duration (s : Span) : Duration := .ofParts s.seconds.toNat s.nanos.toNat

theorem toNat_add_nanos (a b : Span) :
    (a.nanos + b.nanos).toNat = a.nanos.toNat + b.nanos.toNat := by
  have ha := a.nanos_lt
  have hb := b.nanos_lt
  rw [UInt32.toNat_add]
  omega

/-- What is left of a sum of nanoseconds when a second is carried over. -/
theorem toNat_carried (a b : Span) (h : 1000000000 ≤ a.nanos + b.nanos) :
    (a.nanos + b.nanos - 1000000000).toNat = a.nanos.toNat + b.nanos.toNat - 1000000000 := by
  rw [UInt32.toNat_sub_of_le _ _ h, toNat_add_nanos]
  rfl

/-- Nanoseconds less others when a second is borrowed. -/
theorem toNat_borrowed (a b : Span) :
    (a.nanos + 1000000000 - b.nanos).toNat = a.nanos.toNat + 1000000000 - b.nanos.toNat := by
  have ha := a.nanos_lt
  have hb := b.nanos_lt
  have hadd : (a.nanos + 1000000000).toNat = a.nanos.toNat + 1000000000 := by
    rw [UInt32.toNat_add]
    show (a.nanos.toNat + 1000000000) % 4294967296 = a.nanos.toNat + 1000000000
    omega
  have hle : b.nanos ≤ a.nanos + 1000000000 := by
    rw [UInt32.le_iff_toNat_le]
    omega
  rw [UInt32.toNat_sub_of_le _ _ hle, hadd]

theorem carried_lt (a b : Span) (h : 1000000000 ≤ a.nanos + b.nanos) :
    (a.nanos + b.nanos - 1000000000).toNat < 1000000000 := by
  have ha := a.nanos_lt
  have hb := b.nanos_lt
  rw [toNat_carried a b h]
  omega

theorem borrowed_lt (a b : Span) (h : ¬ b.nanos ≤ a.nanos) :
    (a.nanos + 1000000000 - b.nanos).toNat < 1000000000 := by
  rw [UInt32.le_iff_toNat_le] at h
  rw [toNat_borrowed]
  omega

theorem lessened_lt (a b : Span) (h : b.nanos ≤ a.nanos) :
    (a.nanos - b.nanos).toNat < 1000000000 := by
  have ha := a.nanos_lt
  rw [UInt32.toNat_sub_of_le _ _ h]
  omega

/-- The sum, if its seconds fit. -/
def sum? (a b : Span) : Option Span :=
  if a.seconds.toNat + b.seconds.toNat < UInt64.size then
    let seconds := a.seconds + b.seconds
    if h : 1000000000 ≤ a.nanos + b.nanos then
      if seconds.toNat + 1 < UInt64.size then
        some ⟨seconds + 1, a.nanos + b.nanos - 1000000000, carried_lt a b h⟩
      else none
    else some ⟨seconds, a.nanos + b.nanos, Nat.not_le.mp h⟩
  else none

/-- The difference, if there is no more to take off than there is. -/
def difference? (a b : Span) : Option Span :=
  if b.seconds ≤ a.seconds then
    let seconds := a.seconds - b.seconds
    if h : b.nanos ≤ a.nanos then some ⟨seconds, a.nanos - b.nanos, lessened_lt a b h⟩
    else if 1 ≤ seconds then
      some ⟨seconds - 1, a.nanos + 1000000000 - b.nanos, borrowed_lt a b h⟩
    else none
  else none

/-- At least as long. Seconds decide before nanoseconds. -/
def covers (a b : Span) : Bool :=
  b.seconds < a.seconds ∨ b.seconds = a.seconds ∧ b.nanos ≤ a.nanos

theorem toNat_subsecond (n : UInt64) :
    (n % 1000000000).toUInt32.toNat = n.toNat % 1000000000 := by
  have hmod : (n % 1000000000).toNat = n.toNat % 1000000000 := UInt64.toNat_mod n 1000000000
  rw [UInt64.toNat_toUInt32, hmod]
  omega

/-- A number of nanoseconds, the whole seconds of it apart. -/
def ofNanos (n : UInt64) : Span :=
  ⟨n / 1000000000, (n % 1000000000).toUInt32, by
    rw [toNat_subsecond]
    exact Nat.mod_lt _ (Nat.succ_pos 999999999)⟩

/-- The time of one cycle, rounded down to a nanosecond; a rate of zero has no cycle time. -/
def ofFrequency (f : Frequency) : Span :=
  if f.hertz = 0 then ofNanos 0 else ofNanos (1000000000 / f.hertz)

end Span

/-- A period and the time since the last whole cycle. -/
@[ext]
structure Stopwatch where
  period : Span
  elapsed : Span
deriving DecidableEq

namespace Stopwatch

/-- What a call cannot go on from. -/
inductive Failure
  /-- The elapsed time does not fit its words. -/
  | sum
  /-- There is less time left than is to be taken off. -/
  | difference
  /-- The cycles do not fit their word. -/
  | count
deriving DecidableEq

/-- The loop of a call: as long as a whole period has elapsed, it is taken off and counted. -/
def drain (period : Span) : Nat → Span → UInt32 → Option (Except Failure (UInt32 × Span))
  | 0, _, _ => none
  | fuel + 1, elapsed, cycles =>
    if elapsed.covers period then
      match elapsed.difference? period with
      | none => some (.error .difference)
      | some rest =>
        if cycles.toNat + 1 < UInt32.size then drain period fuel rest (cycles + 1)
        else some (.error .count)
    else some (.ok (cycles, elapsed))

/-- A call with fuel for its loop. A clock without a period counts one cycle and stays as it is. -/
def advance (fuel : Nat) (w : Stopwatch) (dt : Span) :
    Option (Except Failure (UInt32 × Stopwatch)) :=
  if w.period = .zero then some (.ok (1, w))
  else
    match w.elapsed.sum? dt with
    | none => some (.error .sum)
    | some elapsed =>
      (drain w.period fuel elapsed 0).map fun result =>
        result.map fun (cycles, rest) => (cycles, { w with elapsed := rest })

/-- A call ends with a result: some fuel is enough for its loop. -/
def Ends (w : Stopwatch) (dt : Span) (result : Except Failure (UInt32 × Stopwatch)) : Prop :=
  ∃ fuel, w.advance fuel dt = some result

/-- Calls one after another that all end with their cycles. -/
inductive Runs : Stopwatch → List Span → List UInt32 → Stopwatch → Prop
  | nil (w : Stopwatch) : Runs w [] [] w
  | cons {u v w : Stopwatch} {dt : Span} {dts : List Span} {count : UInt32} {counts : List UInt32}
      (h : u.Ends dt (.ok (count, v))) (hrest : Runs v dts counts w) :
      Runs u (dt :: dts) (count :: counts) w

/-- A clock at its start that completes a cycle at the given rate. -/
def ofFrequency (f : Frequency) : Stopwatch := ⟨.ofFrequency f, .zero⟩

/-- The clock behind the words. -/
def clock (w : Stopwatch) : Clock := ⟨w.period.duration, w.elapsed.duration⟩

end Stopwatch

end ChipEight.InPlace

/-!
# Clocks

Lengths of time in whole nanoseconds, and the rates that give rise to them. A clock turns elapsed
time into whole cycles of a fixed period. What does not fill a cycle is kept for the next time, so
the rate holds however the time is divided. A clock without a period does not measure: it reports
one cycle whenever it is asked.
-/
namespace ChipEight

@[ext]
structure Duration where
  nanos : Nat
deriving DecidableEq

namespace Duration

def nanosPerSecond : Nat := 1000000000

def zero : Duration := ⟨0⟩

def ofParts (seconds nanos : Nat) : Duration := ⟨nanosPerSecond * seconds + nanos⟩

/-- The longest time that can be accounted for: a second count of sixty-four bits and the last
nanosecond of its last second. -/
def longest : Duration := ofParts 0xFFFFFFFFFFFFFFFF (nanosPerSecond - 1)

def seconds (d : Duration) : Nat := d.nanos / nanosPerSecond

def subsecond (d : Duration) : Nat := d.nanos % nanosPerSecond

theorem ofParts_seconds_subsecond (d : Duration) : ofParts d.seconds d.subsecond = d := by
  ext
  exact Nat.div_add_mod d.nanos nanosPerSecond

end Duration

@[ext]
structure Frequency where
  hertz : UInt64
deriving DecidableEq

/-- The time of one cycle, rounded down to a nanosecond; a rate of zero has no cycle time. -/
def Frequency.period (f : Frequency) : Duration :=
  if f.hertz = 0 then .zero else ⟨Duration.nanosPerSecond / f.hertz.toNat⟩

/-- A period and the time since the last whole cycle. -/
@[ext]
structure Clock where
  period : Duration
  elapsed : Duration
deriving DecidableEq

namespace Clock

inductive Error
  /-- The time since the last cycle would exceed the longest duration. -/
  | overflow
deriving DecidableEq

def Error.message : Error → String
  | .overflow => "overflow when adding durations"

def timerFrequency : Frequency := ⟨60⟩

/-- The time of one timer cycle, which is also the time of a frame. -/
def timerPeriod : Duration := timerFrequency.period

def ofPeriod (period : Duration) : Clock := ⟨period, .zero⟩

def timers : Clock := ofPeriod timerPeriod

def reset (c : Clock) : Clock := { c with elapsed := .zero }

/-- The whole cycles in the time since the last one and some more. -/
def cycles (c : Clock) (dt : Duration) : Nat := (c.elapsed.nanos + dt.nanos) / c.period.nanos

/-- Accounts for time and gives the whole cycles, counted in thirty-two bits. -/
def elapse (c : Clock) (dt : Duration) : UInt32 × Clock :=
  if c.period = .zero then (1, c)
  else
    (UInt32.ofNat (c.cycles dt),
      { c with elapsed := ⟨(c.elapsed.nanos + dt.nanos) % c.period.nanos⟩ })

/-- Accounts for time unless there is too much of it. -/
def advance (c : Clock) (dt : Duration) : Except Error (UInt32 × Clock) :=
  if c.period ≠ .zero ∧ Duration.longest.nanos < c.elapsed.nanos + dt.nanos then .error .overflow
  else .ok (c.elapse dt)

theorem period_pos {c : Clock} (h : c.period ≠ .zero) : 0 < c.period.nanos :=
  Nat.pos_of_ne_zero fun e => h (Duration.ext e)

/-- What is kept does not fill a cycle. -/
theorem elapsed_elapse_lt {c : Clock} (dt : Duration) (h : c.period ≠ .zero) :
    (c.elapse dt).2.elapsed.nanos < c.period.nanos := by
  simp only [elapse, if_neg h]
  exact Nat.mod_lt _ (period_pos h)

/-- Whole cycles and what is kept make up the time. -/
theorem cycles_add_elapsed {c : Clock} (dt : Duration) (h : c.period ≠ .zero) :
    c.period.nanos * c.cycles dt + (c.elapse dt).2.elapsed.nanos =
      c.elapsed.nanos + dt.nanos := by
  simp only [elapse, if_neg h]
  exact Nat.div_add_mod _ _

end Clock

end ChipEight

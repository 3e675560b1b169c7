import ChipEight.Machine.Basic

/-!
# Timers

A tick counts both timers down. The sound timer drives a buzzer: every tick that leaves it running
asks for the tone, and the tick that brings it to zero asks for silence.
-/
namespace ChipEight.Machine

/-- What a tick finds the sound timer doing. -/
inductive Tone
  | silent
  | play
  | stop
deriving DecidableEq

inductive BuzzerCall
  | play
  | stop
deriving DecidableEq

def Tone.calls : Tone → List BuzzerCall
  | .silent => []
  | .play => [.play]
  | .stop => [.stop]

/-- The tone of a tick from the sound timer before it. -/
def Tone.ofSound (sound : UInt8) : Tone :=
  if sound = 0 then .silent else if sound = 1 then .stop else .play

def tick (m : Machine) : Tone × Machine :=
  (.ofSound m.processor.sound, { m with processor := m.processor.countDown })

/-- Both timers stand at zero, where ticks change nothing and make no call. -/
def idle (m : Machine) : Bool := m.processor.delay = 0 ∧ m.processor.sound = 0

/-- A number of ticks and the calls they make, in order. Idle timers need no more ticks. -/
def ticks : Nat → Machine → List BuzzerCall × Machine
  | 0, m => ([], m)
  | n + 1, m =>
    if m.idle then ([], m)
    else
      let (tone, m) := m.tick
      let (calls, m) := ticks n m
      (tone.calls ++ calls, m)

/-- A machine after elapsed time, the ticks that were due and the calls they made. -/
structure Elapsed where
  machine : Machine
  ticks : UInt32
  calls : List BuzzerCall

/-- Makes the ticks that are due after some time. -/
def elapse (m : Machine) (dt : Duration) : Elapsed :=
  let (due, clock) := m.clock.elapse dt
  let (calls, m) := ticks due.toNat { m with clock }
  ⟨m, due, calls⟩

/-- Makes the ticks that are due, unless there is too much time to account for. -/
def advance (m : Machine) (dt : Duration) : Except Clock.Error Elapsed :=
  (m.clock.advance dt).map fun _ => m.elapse dt

theorem tick_of_idle (m : Machine) (h : m.idle) : m.tick = (.silent, m) := by
  simp only [idle, decide_eq_true_eq] at h
  obtain ⟨hd, hs⟩ := h
  have hp : m.processor.countDown = m.processor := by
    cases hm : m.processor
    simp_all [Processor.countDown]
  simp [tick, Tone.ofSound, hs, hp]

/-- Stopping early makes no difference. -/
theorem ticks_succ (m : Machine) (n : Nat) :
    m.ticks (n + 1) = (m.tick.1.calls ++ (m.tick.2.ticks n).1, (m.tick.2.ticks n).2) := by
  rw [ticks]
  by_cases h : m.idle = true
  · have hrest : m.ticks n = ([], m) := by
      cases n with
      | zero => rfl
      | succ n => rw [ticks, if_pos h]
    rw [if_pos h, m.tick_of_idle h, hrest]
    rfl
  · rw [if_neg h]

theorem sub_one_eq_zero_iff (sound : UInt8) : sound - 1 = 0 ↔ sound = 1 := by
  constructor
  · intro h
    rw [← UInt8.sub_add_cancel sound 1, h]
    rfl
  · intro h
    rw [h]
    rfl

end ChipEight.Machine

import ChipEight.Machine.Request

/-!
# Requests without steps

Loading starts over, and a program that fits is found behind the program start afterwards. Ticks,
elapsing time and taking the draw flag change timers, clock and draw flag and nothing else, so
whatever a step finds in the rest of the machine is still there after them.
-/
namespace ChipEight

/-- Loading starts over, and writes memory at most besides. -/
theorem Machine.exists_memory_load (m : Machine) (program : List UInt8) :
    ∃ memory, (m.load program).machine =
      { m.reset with processor := { Processor.initial with memory } } := by
  rw [load, Processor.load?]
  by_cases h : program.length ≤ Memory.programCapacity
  · rw [if_pos h]
    exact ⟨_, rfl⟩
  · rw [if_neg h]
    exact ⟨_, rfl⟩

/-- A machine right after it was made and given a program. -/
def loaded (program : List UInt8) : Machine :=
  ((Machine.new .default (.ofSeed 0)).load program).machine

theorem reachable_loaded (program : List UInt8) : (loaded program).Reachable :=
  .serve (.load program) (.new .default (.ofSeed 0)) rfl

/-- The words of a program lie behind one another from the program start on. -/
theorem opcode?_store (m : Memory) {start : Nat} {program : List UInt8}
    (h : start + program.length ≤ 4096) {i : Nat} (hi : i + 1 < program.length) :
    (m.store start program).opcode? (start + i) =
      some (.ofBytes program[i] program[i + 1]) := by
  rw [Memory.opcode?_of_le _ (by omega), m.byte_store_of_lt h (by omega), Nat.add_assoc,
    m.byte_store_of_lt h hi]

theorem loaded_of_fits {program : List UInt8} (h : program.length ≤ 3584) :
    loaded program =
      ⟨{ Processor.initial with memory := Memory.initial.store 512 program }, .timers,
        .ofSeed 0, .default⟩ := by
  have hload : Processor.initial.load? program =
      some { Processor.initial with memory := Memory.initial.store 512 program } := if_pos h
  have hreset : (Machine.new .default (.ofSeed 0)).reset.processor = .initial := rfl
  rw [loaded, Machine.load, hreset, hload]
  rfl

theorem opcode?_loaded {program : List UInt8} (h : program.length ≤ 3584) {i : Nat}
    (hi : i + 1 < program.length) :
    (loaded program).processor.memory.opcode? (512 + i) =
      some (.ofBytes program[i] program[i + 1]) := by
  rw [loaded_of_fits h]
  exact opcode?_store _ (by omega) hi

theorem pc_loaded {program : List UInt8} (h : program.length ≤ 3584) :
    (loaded program).processor.pc = 512 := by
  rw [loaded_of_fits h]
  rfl

/-- The first word of a program is the first to be fetched. -/
theorem first_opcode?_loaded (program : List UInt8) (h : program.length ≤ 3584)
    (hi : 1 < program.length) :
    (loaded program).processor.opcode? = some (.ofBytes program[0] program[1]) := by
  rw [Processor.opcode?, pc_loaded h]
  exact opcode?_loaded h hi

namespace Machine

/-- The request makes no step and does not start over. -/
def Request.Pauses : Request → Prop
  | .tick | .advance _ | .takeDrawn => True
  | .load _ | .reset | .step _ | .run .. => False

/-- The machines that differ from `m` in timers, clock and draw flag at most. -/
inductive Paused (m : Machine) : Machine → Prop
  | intro (clock : Clock) (delay sound : UInt8) (drawn : Bool) :
      Paused m { m with clock, processor := { m.processor with delay, sound, drawn } }

variable {m n k : Machine}

theorem Paused.refl (m : Machine) : m.Paused m :=
  .intro m.clock m.processor.delay m.processor.sound m.processor.drawn

theorem Paused.trans (hmn : m.Paused n) (hnk : n.Paused k) : m.Paused k := by
  obtain ⟨_, _, _, _⟩ := hmn
  obtain ⟨clock, delay, sound, drawn⟩ := hnk
  exact .intro clock delay sound drawn

theorem Paused.waiting (h : m.Paused n) : n.processor.waiting = m.processor.waiting := by
  obtain ⟨_, _, _, _⟩ := h
  rfl

theorem paused_tick (m : Machine) : m.Paused m.tick.2 :=
  .intro m.clock _ _ m.processor.drawn

theorem paused_ticks (m : Machine) (count : Nat) : m.Paused (m.ticks count).2 := by
  induction count generalizing m with
  | zero => exact .refl m
  | succ count ih =>
    rw [ticks_succ]
    exact (paused_tick m).trans (ih m.tick.2)

theorem paused_serve {request : Request} (h : m.serve request = .ok n) (hpauses : request.Pauses) :
    m.Paused n := by
  cases request with
  | load | reset | step | run => exact hpauses.elim
  | tick =>
    cases h
    exact paused_tick m
  | takeDrawn =>
    cases h
    exact .intro m.clock m.processor.delay m.processor.sound false
  | advance dt =>
    rw [serve, advance] at h
    cases hclock : m.clock.advance dt with
    | error e =>
      rw [hclock] at h
      cases h
    | ok due =>
      rw [hclock] at h
      cases h
      have hclocked : m.Paused { m with clock := (m.clock.elapse dt).2 } :=
        .intro _ m.processor.delay m.processor.sound m.processor.drawn
      exact hclocked.trans (paused_ticks _ _)

end Machine

end ChipEight

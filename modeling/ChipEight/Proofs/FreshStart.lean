import ChipEight.Proofs.Clock
import ChipEight.Proofs.InPlace.Request
import ChipEight.Proofs.Request

/-!
# Loading forgets the past

A machine that is given a program is as fresh as one from power-on, whether the program fits or not:
only configuration and random stream are kept. Two machines that agree in these cannot be told apart
from then on. The period of the clock is no part of what loading sets; it is the same wherever
requests lead, so nothing of a machine's past is left in it either.
-/
namespace ChipEight

namespace Machine

/-- Nothing of what the machine did before it was given `program` is left. -/
structure Fresh (m : Machine) (program : List UInt8) : Prop where
  glyphs : ∀ a, (h : a < Font.glyphs.length) → m.processor.memory.byte a = Font.glyphs[a]
  bytes : ∀ i, (h : i < program.length) → m.processor.memory.byte (0x200 + i) = program[i]
  rest : ∀ a, Font.glyphs.length ≤ a → ¬ (0x200 ≤ a ∧ a < 0x200 + program.length) →
    m.processor.memory.byte a = 0
  screen : ∀ p, m.processor.screen.lit p = false
  registers : ∀ x, m.processor.v x = 0
  index : m.processor.index = 0
  delay : m.processor.delay = 0
  sound : m.processor.sound = 0
  depth : m.processor.stack.depth = 0
  slots : ∀ i, m.processor.stack.slots.get i = 0
  keys : ∀ key, m.processor.keys.contains key = false
  pc : m.processor.pc = 0x200
  waiting : m.processor.waiting = false
  drawn : m.processor.drawn = true
  elapsed : m.clock.elapsed = .zero

variable {m n : Machine} {program : List UInt8}

section Period

theorem clock_step (m : Machine) (pad : Keypad) : (m.step pad).machine.clock = m.clock := by
  have hs := m.stepped pad
  generalize (m.step pad).result = r at hs
  generalize (m.step pad).machine = n at hs ⊢
  cases hs <;> rfl

/-- The timers run at their own rate, whatever is asked of the machine. -/
theorem Reachable.period (hm : m.Reachable) : m.clock.period = Clock.timerPeriod := by
  induction hm with
  | new config entropy => rfl
  | @serve m n request _ h ih =>
    cases request with
    | load program =>
      cases h
      obtain ⟨memory, hload⟩ := m.exists_memory_load program
      rw [hload]
      exact ih
    | reset | tick | takeDrawn =>
      cases h
      exact ih
    | step pad =>
      cases h
      rw [clock_step]
      exact ih
    | run count pad =>
      cases h
      refine run_induction (P := fun n => n.clock.period = Clock.timerPeriod) ?_ ih count
      intro n hn
      rw [clock_step]
      exact hn
    | advance dt =>
      rw [eq_elapse_of_serve h]
      refine elapse_induction (P := fun n => n.clock.period = Clock.timerPeriod) ?_ ?_
      · exact fun n hn => hn
      · exact (Clock.period_elapse m.clock dt).trans ih

/-- Starting over keeps random stream and configuration and nothing else. -/
theorem Reachable.reset (hm : m.Reachable) :
    m.reset = ⟨.initial, .timers, m.random, m.config⟩ := by
  have hclock : m.clock.reset = .timers := Clock.ext hm.period rfl
  rw [Machine.reset, hclock]

end Period

section Contents

theorem byte_initial_of_lt {a : Nat} (h : a < Font.glyphs.length) :
    Memory.initial.byte a = Font.glyphs[a] := by
  have hbyte : Memory.initial.byte (0 + a) = Font.glyphs[a] :=
    Memory.zero.byte_store_of_lt (by decide) h
  rwa [Nat.zero_add] at hbyte

theorem lit_blank (p : Pixel) : Screen.blank.lit p = false := by
  rw [Screen.lit, decide_eq_false_iff_not]
  rintro ⟨hp, hlit⟩
  simp [Screen.blank, Pixel.index_lt hp] at hlit

/-- The power-on state with a program in memory. -/
theorem fresh_store (hfits : program.length ≤ 3584) (hclock : m.clock.elapsed = .zero)
    (hprocessor : m.processor =
      { Processor.initial with memory := Memory.initial.store 0x200 program }) :
    m.Fresh program := by
  have hlength : Font.glyphs.length = 80 := rfl
  have hmemory : m.processor.memory = Memory.initial.store 0x200 program := by rw [hprocessor]
  have hscreen : m.processor.screen = .blank := by rw [hprocessor]; rfl
  have hregisters : m.processor.registers = Registers.zero := by rw [hprocessor]; rfl
  have hstack : m.processor.stack = .empty := by rw [hprocessor]; rfl
  refine ⟨?_, ?_, ?_, ?_, ?_, ?_, ?_, ?_, ?_, ?_, ?_, ?_, ?_, ?_, hclock⟩
  · intro a h
    rw [hmemory, Memory.byte_store_of_outside _ (.inl (by omega)), byte_initial_of_lt h]
  · intro i h
    rw [hmemory, Memory.byte_store_of_lt _ (by omega) h]
  · intro a hlow hout
    rw [hmemory, Memory.byte_store_of_outside _ (by omega), Memory.byte_initial hlow]
  · intro p
    rw [hscreen, lit_blank]
  · intro x
    simp [Processor.v, hregisters, Registers.zero, Vector.get]
  · rw [hprocessor]; rfl
  · rw [hprocessor]; rfl
  · rw [hprocessor]; rfl
  · rw [hstack]; rfl
  · intro i
    simp [hstack, CallStack.empty, Vector.get]
  · intro key
    have hkeys : m.processor.keys = .empty := by rw [hprocessor]; rfl
    rw [hkeys, KeySet.contains_empty]
  · rw [hprocessor]; rfl
  · rw [hprocessor]; rfl
  · rw [hprocessor]; rfl

end Contents

theorem fresh_reset (m : Machine) : m.reset.Fresh [] := by
  apply fresh_store (Nat.zero_le _) rfl
  rw [Memory.store]
  rfl

theorem load_of_fits (m : Machine) (hfits : program.length ≤ 3584) :
    (m.load program).result = .ok () ∧ (m.load program).machine.Fresh program := by
  have hload : m.reset.processor.load? program =
      some { Processor.initial with memory := Memory.initial.store 0x200 program } := if_pos hfits
  rw [load, hload]
  exact ⟨rfl, fresh_store hfits rfl rfl⟩

/-- The first word of the program is the first to be fetched. -/
theorem Fresh.opcode? (h : m.Fresh program) (hlength : 1 < program.length) :
    m.processor.opcode? = some (.ofBytes program[0] program[1]) := by
  have hpc : m.processor.pc.toNat = 0x200 := by rw [h.pc]; rfl
  rw [Processor.opcode?, hpc, Memory.opcode?_of_le _ (by decide), ← h.bytes 0 (by omega),
    ← h.bytes 1 hlength]

theorem load_of_too_large (m : Machine) (hlarge : 3584 < program.length) :
    (m.load program).result = .error (.programTooLarge program.length) ∧
      (m.load program).machine = m.reset := by
  have hload : m.reset.processor.load? program = none := if_neg (Nat.not_le.mpr hlarge)
  rw [load, hload]
  exact ⟨rfl, rfl⟩

theorem random_load (m : Machine) (program : List UInt8) :
    (m.load program).machine.random = m.random ∧ (m.load program).machine.config = m.config := by
  obtain ⟨memory, hload⟩ := m.exists_memory_load program
  rw [hload]
  exact ⟨rfl, rfl⟩

/-- Loading looks at nothing that starting over does not keep. -/
theorem load_congr (h : m.reset = n.reset) (program : List UInt8) :
    m.load program = n.load program := by
  rw [load, load, h]

theorem step_of_setByte {o : Opcode} {x : Register} {byte : UInt8}
    (hfetch : m.processor.opcode? = some o) (hdecode : o.decode? = some (.setByte x byte))
    (pad : Keypad) :
    (m.step pad).machine =
      { m with processor := (m.sample pad).processor.advance.setRegister x byte } :=
  (step_of_execute hfetch hdecode rfl).1

/-- A program that fits is found in a machine that is otherwise as after power-on; one that is too
large is refused with its size, and leaves what starting over leaves. The random stream goes on, and
a machine that changes its words and arrays one after another ends in the same state. Two machines
that requests lead to, however different their pasts, cannot be told apart after loading if they
agree in configuration and random stream: every conversation from there on is the same. -/
theorem loading_forgets (hm : m.Reachable) (program : List UInt8) :
    (program.length ≤ 3584 →
      (m.load program).result = .ok () ∧ (m.load program).machine.Fresh program) ∧
    (3584 < program.length →
      (m.load program).result = .error (.programTooLarge program.length) ∧
        (m.load program).machine = m.reset ∧ m.reset.Fresh []) ∧
    (m.load program).machine.random = m.random ∧ (m.load program).machine.config = m.config ∧
    InPlace.serve m.inPlace (.load program) = .ok (m.load program).machine.inPlace ∧
    ∀ n : Machine, n.Reachable → n.config = m.config → n.random = m.random →
      ∀ requests, n.converse (.load program :: requests) =
        m.converse (.load program :: requests) := by
  obtain ⟨hrandom, hconfig⟩ := m.random_load program
  refine ⟨m.load_of_fits, ?_, hrandom, hconfig, ?_, ?_⟩
  · intro hlarge
    obtain ⟨hresult, hmachine⟩ := m.load_of_too_large hlarge
    exact ⟨hresult, hmachine, m.fresh_reset⟩
  · rw [InPlace.serve_inPlace]
    rfl
  · intro n hn hconfig hrandom requests
    have hreset : n.reset = m.reset := by rw [hn.reset, hm.reset, hconfig, hrandom]
    have hload := load_congr hreset program
    simp only [converse, view, reply, serve, hload]

/-- A machine that has loaded a register, and one from power-on. -/
theorem set_register_is_forgotten :
    ∃ m : Machine, m.Reachable ∧ m.processor.v 0 = 5 ∧
      (m.load [0x12, 0x00]).machine.Fresh [0x12, 0x00] ∧
      (m.load (List.replicate 3585 0)).result = .error (.programTooLarge 3585) ∧
      ∀ requests, (new .default (.ofSeed 0)).converse (.load [0x12, 0x00] :: requests) =
        m.converse (.load [0x12, 0x00] :: requests) := by
  have hstep := step_of_setByte (first_opcode?_loaded [0x60, 0x05] (by decide) (by decide)) rfl
    fun _ => false
  have hm : ((loaded [0x60, 0x05]).step fun _ => false).machine.Reachable :=
    .serve (.step fun _ => false) (reachable_loaded _) rfl
  have hregister : ((loaded [0x60, 0x05]).step fun _ => false).machine.processor.v 0 = 5 := by
    rw [hstep, loaded_of_fits (by decide)]
    decide
  have hconfig : ((loaded [0x60, 0x05]).step fun _ => false).machine.config = .default := by
    rw [hstep, loaded_of_fits (by decide)]
  have hrandom : ((loaded [0x60, 0x05]).step fun _ => false).machine.random = .ofSeed 0 := by
    rw [hstep, loaded_of_fits (by decide)]
  generalize ((loaded [0x60, 0x05]).step fun _ => false).machine = m at hm hregister hconfig hrandom
  obtain ⟨hfits, _, _, _, _, hsame⟩ := loading_forgets hm [0x12, 0x00]
  obtain ⟨_, hlarge, _⟩ := loading_forgets hm (List.replicate 3585 0)
  have hsize : (List.replicate 3585 (0 : UInt8)).length = 3585 := List.length_replicate
  rw [hsize] at hlarge
  exact ⟨m, hm, hregister, (hfits (by decide)).2, (hlarge (by decide)).1,
    hsame _ (.new .default (.ofSeed 0)) hconfig.symm hrandom.symm⟩

end Machine

end ChipEight

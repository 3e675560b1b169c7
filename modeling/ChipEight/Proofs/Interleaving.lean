import ChipEight.Proofs.Countdown
import ChipEight.Proofs.Frame
import ChipEight.Proofs.FreedSlots

/-!
# Steps and ticks in any order

A host makes steps and ticks in turn. Only three instructions look at the timers or set them; a step
that fetches none of them does the same under any timers and leaves them as they are, whether it is
carried out, waits or faults. So the order of such steps and the ticks among them does not matter.
-/
namespace ChipEight

/-- The instruction reads a timer or sets one. -/
def Instruction.timed : Instruction → Bool
  | .readDelay _ | .setDelay _ | .setSound _ => true
  | _ => false

namespace Opcode

/-- The words that stand for these instructions. -/
def Timed (o : Opcode) : Prop := o.Transfers 0x07 ∨ o.Transfers 0x15 ∨ o.Transfers 0x18

theorem timed_eq_false {o : Opcode} {i : Instruction} (hdecode : o.decode? = some i)
    (huntimed : ¬ o.Timed) : i.timed = false := by
  have hstands := standsFor_of_decode? hdecode
  cases i with
  | readDelay x => exact absurd (.inl hstands.1) huntimed
  | setDelay x => exact absurd (.inr (.inl hstands.1)) huntimed
  | setSound x => exact absurd (.inr (.inr hstands.1)) huntimed
  | _ => rfl

end Opcode

namespace Processor

variable {p q : Processor} {i : Instruction} {flow : Flow} {random : Random.Stream}

theorem timers_of_execute (h : p.execute random i = .ok (q, flow)) (huntimed : i.timed = false) :
    q.delay = p.delay ∧ q.sound = p.sound := by
  have hleaves := leaves_execute h
  constructor
  · refine hleaves.delay fun x hi => ?_
    rw [hi] at huntimed
    cases huntimed
  · refine hleaves.sound fun x hi => ?_
    rw [hi] at huntimed
    cases huntimed

/-- The end of an instruction, with other timers. -/
def retimed (delay sound : UInt8) (ended : Except Fault.Cause (Processor × Flow)) :
    Except Fault.Cause (Processor × Flow) :=
  ended.map fun (q, flow) => (q.withTimers delay sound, flow)

variable (p) (delay sound : UInt8)

theorem retimed_guarded {c : Prop} [Decidable c] (cause : Fault.Cause) :
    retimed delay sound (if c then .ok (p, flow) else .error cause) =
      if c then .ok (p.withTimers delay sound, flow) else .error cause := by
  split
  · rfl
  · rfl

theorem drawSprite_withTimers (x y : Register) (rows : Nat) :
    (p.withTimers delay sound).drawSprite x y rows =
      retimed delay sound (p.drawSprite x y rows) := by
  have hreaches : (p.withTimers delay sound).reaches rows = p.reaches rows := rfl
  have hsprite : (p.withTimers delay sound).sprite x y rows = p.sprite x y rows := rfl
  have hscreen : (p.withTimers delay sound).screen = p.screen := rfl
  rw [drawSprite, drawSprite, hreaches, hsprite, hscreen]
  split
  · split
    · rfl
    · rfl
  · rfl

theorem enter_withTimers (target : Target) :
    (p.withTimers delay sound).enter target = retimed delay sound (p.enter target) := by
  have hpush : (p.withTimers delay sound).stack.push? ((p.withTimers delay sound).pc + 2) =
      p.stack.push? (p.pc + 2) := rfl
  rw [enter, enter, hpush]
  split
  · rfl
  · rfl

theorem leave_withTimers : (p.withTimers delay sound).leave = retimed delay sound p.leave := by
  have hpop : (p.withTimers delay sound).stack.pop? = p.stack.pop? := rfl
  rw [leave, leave, hpop]
  split
  · rfl
  · rfl

theorem awaitKey_withTimers (x : Register) :
    Except.ok ((p.withTimers delay sound).awaitKey x) =
      retimed delay sound (.ok (p.awaitKey x)) := by
  have hkeys : (p.withTimers delay sound).keys = p.keys := rfl
  rw [awaitKey, awaitKey, hkeys]
  split
  · rfl
  · rfl

/-- Other instructions are carried out, or refused, under any timers alike. -/
theorem execute_withTimers (h : i.timed = false) :
    (p.withTimers delay sound).execute random i =
      retimed delay sound (p.execute random i) := by
  cases i with
  | readDelay | setDelay | setSound => cases h
  | draw x y rows => exact p.drawSprite_withTimers delay sound x y rows
  | call target => exact p.enter_withTimers delay sound target
  | ret => exact p.leave_withTimers delay sound
  | awaitKey x => exact p.awaitKey_withTimers delay sound x
  | decimal | store | load =>
    symm
    apply retimed_guarded
  | operate operation => cases operation <;> rfl
  | _ => rfl

end Processor

namespace Machine

/-- What a host does to a running machine. -/
inductive Turn
  | step (pad : Keypad)
  | tick

/-- The machine after some turns, the results of the steps and the tones of the ticks. -/
structure Played where
  machine : Machine
  results : List (Except Fault Flow)
  tones : List Tone

def play (m : Machine) : List Turn → Played
  | [] => ⟨m, [], []⟩
  | .step pad :: turns =>
    let outcome := m.step pad
    let rest := outcome.machine.play turns
    { rest with results := outcome.result :: rest.results }
  | .tick :: turns =>
    let rest := m.tick.2.play turns
    { rest with tones := m.tick.1 :: rest.tones }

/-- The turns that make one step for each keypad, in this order, and a number of ticks among
them. -/
inductive Interleaves : List Keypad → Nat → List Turn → Prop
  | nil : Interleaves [] 0 []
  | step {pads : List Keypad} {ticks : Nat} {turns : List Turn} (pad : Keypad)
      (h : Interleaves pads ticks turns) : Interleaves (pad :: pads) ticks (.step pad :: turns)
  | tick {pads : List Keypad} {ticks : Nat} {turns : List Turn}
      (h : Interleaves pads ticks turns) : Interleaves pads (ticks + 1) (.tick :: turns)

/-- The word that is next has nothing to do with the timers. -/
def Timeless (m : Machine) : Prop := ∀ o, m.processor.opcode? = some o → ¬ o.Timed

/-- Steps under these keypads, with no tick among them, fetch no word that has to do with the
timers. -/
def Untimed (m : Machine) : List Keypad → Prop
  | [] => True
  | pad :: pads => m.Timeless ∧ (m.step pad).machine.Untimed pads

/-- The tones of a number of ticks from a sound timer on. -/
def tonesFrom (sound : UInt8) : Nat → List Tone
  | 0 => []
  | ticks + 1 => .ofSound sound :: tonesFrom (lowered sound 1) ticks

variable {m n : Machine} {pad : Keypad} {result : Except Fault Flow} {pads : List Keypad}
  {turns : List Turn} {ticks : Nat}

theorem Stepped.timers (h : m.Stepped pad result n) (hword : m.Timeless) :
    n.processor.delay = m.processor.delay ∧ n.processor.sound = m.processor.sound := by
  cases h with
  | unfetched => exact ⟨rfl, rfl⟩
  | unknown => exact ⟨rfl, rfl⟩
  | refused => exact ⟨rfl, rfl⟩
  | executed hfetch hdecode hexecute =>
    have htimers := Processor.timers_of_execute hexecute
      (Opcode.timed_eq_false hdecode (hword _ hfetch))
    exact htimers

/-- A step that has nothing to do with the timers and ticks before it change places. -/
theorem Stepped.countedDown (h : m.Stepped pad result n) (hword : m.Timeless) (ticks : Nat) :
    (m.countedDown ticks).Stepped pad result (n.countedDown ticks) := by
  obtain ⟨hdelay, hsound⟩ := h.timers hword
  have hsame : ∀ i : Instruction, i.timed = false →
      ((m.countedDown ticks).sample pad).processor.execute m.random i =
        Processor.retimed (lowered m.processor.delay ticks) (lowered m.processor.sound ticks)
          ((m.sample pad).processor.execute m.random i) :=
    fun i htimed => (m.sample pad).processor.execute_withTimers _ _ htimed
  cases h with
  | unfetched hfetch => exact .unfetched hfetch
  | unknown hfetch hdecode => exact .unknown hfetch hdecode
  | @refused o i cause hfetch hdecode hexecute =>
    have hrefused := hsame i (Opcode.timed_eq_false hdecode (hword o hfetch))
    rw [hexecute] at hrefused
    exact .refused hfetch hdecode hrefused
  | @executed o i p flow hfetch hdecode hexecute =>
    have hexecuted := hsame i (Opcode.timed_eq_false hdecode (hword o hfetch))
    -- the timers that the ticks lower are those that the step leaves
    rw [hexecute, ← hdelay, ← hsound] at hexecuted
    exact .executed hfetch hdecode hexecuted

theorem step_countedDown (hword : m.Timeless) (pad : Keypad) (ticks : Nat) :
    ((m.countedDown ticks).step pad).result = (m.step pad).result ∧
      ((m.countedDown ticks).step pad).machine = (m.step pad).machine.countedDown ticks :=
  ((m.stepped pad).countedDown hword ticks).eq

/-- Ticks do not change which instructions the steps fetch. -/
theorem Untimed.countedDown (h : m.Untimed pads) (ticks : Nat) :
    (m.countedDown ticks).Untimed pads := by
  induction pads generalizing m with
  | nil => trivial
  | cons pad pads ih =>
    obtain ⟨hword, hrest⟩ := h
    refine ⟨hword, ?_⟩
    rw [(step_countedDown hword pad ticks).2]
    exact ih hrest

/-- Steps alone, begun some ticks later, end that many ticks later with the same results. -/
theorem play_steps_countedDown (h : m.Untimed pads) (ticks : Nat) :
    (m.countedDown ticks).play (pads.map .step) =
      { m.play (pads.map .step) with
        machine := (m.play (pads.map .step)).machine.countedDown ticks } := by
  induction pads generalizing m with
  | nil => rfl
  | cons pad pads ih =>
    obtain ⟨hword, hrest⟩ := h
    obtain ⟨hresult, hmachine⟩ := step_countedDown hword pad ticks
    rw [List.map_cons, play, play, hresult, hmachine, ih hrest]

/-- Any order comes to the steps alone and the ticks after them. -/
theorem play_of_interleaves (h : Interleaves pads ticks turns) (huntimed : m.Untimed pads) :
    m.play turns =
      ⟨(m.play (pads.map .step)).machine.countedDown ticks, (m.play (pads.map .step)).results,
        tonesFrom m.processor.sound ticks⟩ := by
  induction h generalizing m with
  | nil =>
    rw [countedDown_zero]
    rfl
  | step pad h ih =>
    obtain ⟨hword, hrest⟩ := huntimed
    have hsound : (m.step pad).machine.processor.sound = m.processor.sound :=
      ((m.stepped pad).timers hword).2
    rw [play, ih hrest, hsound]
    rfl
  | @tick pads ticks turns h ih =>
    have htone : m.tick.1 = .ofSound m.processor.sound := rfl
    have hsound : (m.countedDown 1).processor.sound = lowered m.processor.sound 1 := rfl
    rw [play, tick_eq_countedDown, ih (huntimed.countedDown 1), play_steps_countedDown huntimed 1,
      countedDown_countedDown, hsound, Nat.add_comm 1 ticks, htone]
    rfl

/-- Steps that have nothing to do with the timers when they are made alone, and ticks among them:
every order leads to the same machine, with the same results of the steps and the same tones of the
ticks, also where steps wait or fault, or overwrite the instructions that follow. -/
theorem order_of_ticks_is_free (m : Machine) (huntimed : m.Untimed pads) {others : List Turn}
    (hturns : Interleaves pads ticks turns) (hothers : Interleaves pads ticks others) :
    m.play turns = m.play others := by
  rw [play_of_interleaves hturns huntimed, play_of_interleaves hothers huntimed]

section Detour

/-- The machine at an address of the program with a call, its timers running. -/
def humming (pc : UInt16) (keys : KeySet) : Machine :=
  { detouring pc .empty keys with processor := (detouring pc .empty keys).processor.withTimers 3 2 }

theorem untimed_humming :
    (humming 0x200 .empty).Untimed [fun _ => false, fun _ => false] := by
  have hskip : (humming 0x200 .empty).processor.opcode? = some (.ofBytes 0xE0 0x9E) :=
    opcode?_detouring (i := 0) (by decide)
  have hcall : (humming 0x202 (.ofKeypad fun _ => false)).processor.opcode? =
      some (.ofBytes 0x22 0x06) := opcode?_detouring (i := 2) (by decide)
  have hstep : ((humming 0x200 .empty).step fun _ => false).machine =
      humming 0x202 (.ofKeypad fun _ => false) := (step_of_execute hskip rfl rfl).1
  refine ⟨?_, ?_, trivial⟩
  · intro o hfetch
    cases hskip.symm.trans hfetch
    rintro (h | h | h) <;> exact absurd h.1 (by decide)
  · intro o hfetch
    rw [hstep] at hfetch
    cases hcall.symm.trans hfetch
    rintro (h | h | h) <;> exact absurd h.1 (by decide)

/-- Two ticks before a skip and a call, and one tick before each of them. -/
theorem ticks_around_call :
    (humming 0x200 .empty).play [.tick, .tick, .step fun _ => false, .step fun _ => false] =
      (humming 0x200 .empty).play [.tick, .step fun _ => false, .tick, .step fun _ => false] :=
  order_of_ticks_is_free _ untimed_humming
    (.tick (.tick (.step _ (.step _ .nil)))) (.tick (.step _ (.tick (.step _ .nil))))

end Detour

end Machine

end ChipEight

import ChipEight.Machine.Readings
import ChipEight.Proofs.Calls
import ChipEight.Proofs.FreshStart

/-!
# Freed stack slots

Return addresses that earlier calls left behind have no influence. Pushing and popping, where they
are carried out and where they are refused, are operations on the live addresses alone: a call
overwrites the freed slot that it takes, and a return reads a slot in use. So what can be read of a
machine determines all that can be read of it later.
-/
namespace ChipEight

/-- Options with one image are both empty, or both hold something with that image. -/
theorem cases_of_map_eq {α β : Type} {f : α → β} {a b : Option α} (h : a.map f = b.map f) :
    (a = none ∧ b = none) ∨ ∃ x y, a = some x ∧ b = some y ∧ f x = f y := by
  cases a with
  | none => exact .inl ⟨rfl, Option.map_eq_none_iff.mp h.symm⟩
  | some x =>
    obtain ⟨y, rfl, hxy⟩ := Option.map_eq_some_iff.mp h.symm
    exact .inr ⟨x, y, rfl, rfl, hxy.symm⟩

namespace CallStack

variable {s t : CallStack}

/-- Pushing is an operation on the live addresses. -/
theorem map_live_push? (s : CallStack) (address : UInt16) :
    (s.push? address).map live =
      if s.live.length < 16 then some (s.live ++ [address]) else none := by
  rw [length_live]
  by_cases hdepth : s.depth.val < 16
  · have hpush : s.push? address = some _ := dif_pos hdepth
    rw [if_pos hdepth, hpush, Option.map_some, live_push? hpush]
  · have hpush : s.push? address = none := dif_neg hdepth
    rw [if_neg hdepth, hpush, Option.map_none]

theorem live_of_pop?_eq_none (h : s.pop? = none) : s.live = [] := by
  obtain ⟨slots, depth, hdepth⟩ := s
  cases depth with
  | zero => exact List.take_zero
  | succ depth => cases h

/-- Popping is an operation on the live addresses. -/
theorem map_live_pop? (s : CallStack) :
    s.pop?.map (fun popped => (popped.1, popped.2.live)) =
      s.live.getLast?.map fun address => (address, s.live.dropLast) := by
  cases hpop : s.pop? with
  | none => rw [live_of_pop?_eq_none hpop, List.getLast?_nil, Option.map_none, Option.map_none]
  | some popped => simp [live_pop? hpop]

theorem depth_eq_of_live (h : s.live = t.live) : s.depth = t.depth := by
  apply Fin.ext
  rw [← length_live, ← length_live, h]

end CallStack

namespace Processor

/-- The processors that differ from `p` in freed stack slots at most. -/
inductive Resembles (p : Processor) : Processor → Prop
  | intro (stack : CallStack) (hlive : p.stack.live = stack.live) : Resembles p { p with stack }

/-- Ends of an instruction that differ in freed stack slots at most. -/
inductive EndsAlike : Except Fault.Cause (Processor × Flow) →
    Except Fault.Cause (Processor × Flow) → Prop
  | ok {p q : Processor} (h : p.Resembles q) (flow : Flow) :
      EndsAlike (.ok (p, flow)) (.ok (q, flow))
  | error (cause : Fault.Cause) : EndsAlike (.error cause) (.error cause)

variable {p q : Processor}

theorem Resembles.refl (p : Processor) : p.Resembles p := .intro p.stack rfl

theorem endsAlike_guarded {c : Prop} [Decidable c] {flow : Flow} {cause : Fault.Cause}
    (h : p.Resembles q) :
    EndsAlike (if c then .ok (p, flow) else .error cause)
      (if c then .ok (q, flow) else .error cause) := by
  split
  · exact .ok h flow
  · exact .error cause

theorem Resembles.drawSprite (h : p.Resembles q) (x y : Register) (rows : Nat) :
    EndsAlike (p.drawSprite x y rows) (q.drawSprite x y rows) := by
  obtain ⟨stack, hlive⟩ := h
  have hreaches : Processor.reaches { p with stack } rows = p.reaches rows := rfl
  have hsprite : Processor.sprite { p with stack } x y rows = p.sprite x y rows := rfl
  rw [Processor.drawSprite, Processor.drawSprite, hreaches, hsprite]
  dsimp only
  split
  · split
    · exact .error _
    · refine .ok ?_ .draw
      exact .intro stack hlive
  · exact .error _

theorem Resembles.enter (h : p.Resembles q) (target : Target) :
    EndsAlike (p.enter target) (q.enter target) := by
  obtain ⟨stack, hlive⟩ := h
  have hpush : (p.stack.push? (p.pc + 2)).map CallStack.live =
      (stack.push? (p.pc + 2)).map CallStack.live := by
    rw [CallStack.map_live_push?, CallStack.map_live_push?, hlive]
  rw [Processor.enter, Processor.enter]
  dsimp only
  rcases cases_of_map_eq hpush with ⟨hfull, hfull'⟩ | ⟨s, t, hs, ht, hlives⟩
  · rw [hfull, hfull']
    exact .error _
  · rw [hs, ht]
    refine .ok ?_ .jump
    exact .intro t hlives

theorem Resembles.leave (h : p.Resembles q) : EndsAlike p.leave q.leave := by
  obtain ⟨stack, hlive⟩ := h
  have hpop : p.stack.pop?.map (fun popped => (popped.1, popped.2.live)) =
      stack.pop?.map fun popped => (popped.1, popped.2.live) := by
    rw [CallStack.map_live_pop?, CallStack.map_live_pop?, hlive]
  rw [Processor.leave, Processor.leave]
  dsimp only
  rcases cases_of_map_eq hpop with ⟨hempty, hempty'⟩ | ⟨⟨address, s⟩, ⟨other, t⟩, hs, ht, hsame⟩
  · rw [hempty, hempty']
    exact .error _
  · obtain ⟨rfl, hlives⟩ := Prod.mk.inj hsame
    rw [hs, ht]
    refine .ok ?_ .jump
    exact .intro t hlives

theorem Resembles.awaitKey (h : p.Resembles q) (x : Register) :
    EndsAlike (.ok (p.awaitKey x)) (.ok (q.awaitKey x)) := by
  obtain ⟨stack, hlive⟩ := h
  rw [Processor.awaitKey, Processor.awaitKey]
  dsimp only
  split
  · refine .ok ?_ .next
    exact .intro stack hlive
  · refine .ok ?_ .awaitKey
    exact .intro stack hlive

/-- The step lemma, one case for each instruction. -/
theorem Resembles.execute (h : p.Resembles q) (random : Random.Stream) (i : Instruction) :
    EndsAlike (p.execute random i) (q.execute random i) := by
  cases i with
  | ret => exact h.leave
  | call target => exact h.enter target
  | draw x y rows => exact h.drawSprite x y rows
  | awaitKey x => exact h.awaitKey x
  | decimal x | store x | load x =>
    obtain ⟨stack, hlive⟩ := h
    refine endsAlike_guarded ?_
    exact .intro stack hlive
  | operate operation x y =>
    obtain ⟨stack, hlive⟩ := h
    refine .ok ?_ .next
    cases operation <;> exact .intro stack hlive
  | _ =>
    obtain ⟨stack, hlive⟩ := h
    refine .ok ?_ _
    exact .intro stack hlive

end Processor

namespace Machine

/-- The machines that differ from `m` in freed stack slots and configuration at most. -/
inductive Resembles (m : Machine) : Machine → Prop
  | intro (config : Config) {q : Processor} (h : m.processor.Resembles q) :
      Resembles m { m with processor := q, config }

/-- Outcomes with one result, of machines that resemble each other. -/
structure Outcome.Resembles (o o' : Outcome) : Prop where
  machine : o.machine.Resembles o'.machine
  result : o.result = o'.result

variable {m n k : Machine} {pad : Keypad}

theorem resembles_of_readings (h : m.readings = n.readings)
    (hperiod : m.clock.period = n.clock.period) : m.Resembles n := by
  obtain ⟨⟨_, _, _, _, _, _, _, _, _, _, _⟩, ⟨_, _⟩, _, _⟩ := m
  obtain ⟨⟨_, _, _, _, _, _, _, _, _, _, _⟩, ⟨_, _⟩, _, config⟩ := n
  simp only [readings, Readings.mk.injEq] at h hperiod
  obtain ⟨rfl, rfl, rfl, -, hlive, rfl, rfl, rfl, rfl, rfl, rfl, rfl, rfl, rfl⟩ := h
  subst hperiod
  exact .intro config (.intro _ hlive)

theorem Resembles.readings (h : m.Resembles n) : m.readings = n.readings := by
  obtain ⟨_, stack, hlive⟩ := h
  simp only [Machine.readings, hlive, CallStack.depth_eq_of_live hlive]

theorem Resembles.sample (h : m.Resembles n) (pad : Keypad) :
    (m.sample pad).Resembles (n.sample pad) := by
  obtain ⟨config, stack, hlive⟩ := h
  refine .intro config ?_
  exact .intro stack hlive

theorem Resembles.processor (h : m.Resembles n) : m.processor.Resembles n.processor := by
  obtain ⟨_, hprocessor⟩ := h
  exact hprocessor

/-- A step of the one machine is a step of the other, with the same end. -/
theorem Resembles.stepped {result : Except Fault Flow} (h : m.Resembles n)
    (hm : m.Stepped pad result k) : ∃ l, n.Stepped pad result l ∧ k.Resembles l := by
  have hsample := h.sample pad
  have hprocessor := hsample.processor
  obtain ⟨config, stack, hlive⟩ := h
  -- fetching and decoding do not look at the stack, so both machines get as far
  cases hm with
  | unfetched hfetch => exact ⟨_, .unfetched hfetch, hsample⟩
  | unknown hfetch hdecode => exact ⟨_, .unknown hfetch hdecode, hsample⟩
  | @refused _ i _ hfetch hdecode hexecute =>
    have hends := hprocessor.execute m.random i
    rw [hexecute] at hends
    generalize hother : Processor.execute _ m.random i = ended at hends
    cases hends with
    | error cause => exact ⟨_, .refused hfetch hdecode hother, hsample⟩
  | @executed _ i _ _ hfetch hdecode hexecute =>
    have hends := hprocessor.execute m.random i
    rw [hexecute] at hends
    generalize hother : Processor.execute _ m.random i = ended at hends
    cases hends with
    | ok hlike flow => exact ⟨_, .executed hfetch hdecode hother, .intro config hlike⟩

theorem Resembles.step (h : m.Resembles n) (pad : Keypad) :
    (m.step pad).Resembles (n.step pad) := by
  obtain ⟨l, hn, hlike⟩ := h.stepped (m.stepped pad)
  obtain ⟨hresult, hmachine⟩ := hn.eq
  rw [← hmachine] at hlike
  exact ⟨hlike, hresult.symm⟩

theorem Outcome.Resembles.steps {o o' : Outcome} (h : o.Resembles o') (pad : Keypad) (count : Nat) :
    (o.steps pad count).Resembles (o'.steps pad count) := by
  induction count generalizing o o' with
  | zero => exact h
  | succ count ih =>
    have hstopped : o.stopped = o'.stopped := by
      rw [Outcome.stopped, Outcome.stopped, h.result]
    rw [Outcome.steps, Outcome.steps, hstopped]
    split
    · exact h
    · have hnext := h.machine.step pad
      exact ih ⟨hnext.machine, hnext.result⟩

theorem Resembles.run (h : m.Resembles n) (count : Nat) (pad : Keypad) :
    (m.run count pad).Resembles (n.run count pad) := by
  have hstart : (Outcome.start m).Resembles (Outcome.start n) := ⟨h, rfl⟩
  exact hstart.steps pad count

theorem Resembles.reset (h : m.Resembles n) : m.reset.Resembles n.reset := by
  obtain ⟨config, stack, hlive⟩ := h
  exact .intro config (.refl .initial)

theorem Resembles.load (h : m.Resembles n) (program : List UInt8) :
    (m.load program).result = (n.load program).result ∧
      (m.load program).machine.Resembles (n.load program).machine := by
  have hreset := h.reset
  obtain ⟨config, _⟩ := h
  have hload : ∀ k : Machine,
      k.reset.processor.load? program = Processor.initial.load? program := fun _ => rfl
  rw [Machine.load, Machine.load, hload, hload]
  cases Processor.initial.load? program with
  | none => exact ⟨rfl, hreset⟩
  | some p => exact ⟨rfl, .intro config (.refl p)⟩

theorem Resembles.tick (h : m.Resembles n) :
    m.tick.1 = n.tick.1 ∧ m.tick.2.Resembles n.tick.2 := by
  obtain ⟨config, stack, hlive⟩ := h
  refine ⟨rfl, .intro config ?_⟩
  exact .intro stack hlive

theorem Resembles.ticks (h : m.Resembles n) (count : Nat) :
    (m.ticks count).1 = (n.ticks count).1 ∧ (m.ticks count).2.Resembles (n.ticks count).2 := by
  induction count generalizing m n with
  | zero => exact ⟨rfl, h⟩
  | succ count ih =>
    obtain ⟨htone, hticked⟩ := h.tick
    obtain ⟨hcalls, hrest⟩ := ih hticked
    rw [ticks_succ, ticks_succ, htone, hcalls]
    exact ⟨rfl, hrest⟩

theorem Resembles.elapse (h : m.Resembles n) (dt : Duration) :
    (m.elapse dt).ticks = (n.elapse dt).ticks ∧ (m.elapse dt).calls = (n.elapse dt).calls ∧
      (m.elapse dt).machine.Resembles (n.elapse dt).machine := by
  obtain ⟨config, hq⟩ := h
  have hclocked : Resembles { m with clock := (m.clock.elapse dt).2 }
      { m with clock := (m.clock.elapse dt).2, processor := _, config } := .intro config hq
  obtain ⟨hcalls, hrest⟩ := hclocked.ticks (m.clock.elapse dt).1.toNat
  exact ⟨rfl, hcalls, hrest⟩

theorem Resembles.advance (h : m.Resembles n) (dt : Duration) :
    (∃ e, m.advance dt = .error e ∧ n.advance dt = .error e) ∨
      (m.advance dt = .ok (m.elapse dt) ∧ n.advance dt = .ok (n.elapse dt)) := by
  obtain ⟨config, _⟩ := h
  rw [Machine.advance, Machine.advance]
  cases m.clock.advance dt with
  | error e => exact .inl ⟨e, rfl, rfl⟩
  | ok due => exact .inr ⟨rfl, rfl⟩

/-- Requests get the same replies. -/
theorem Resembles.reply (h : m.Resembles n) (request : Request) :
    m.reply request = n.reply request := by
  cases request with
  | load program => exact congrArg (Except.ok ∘ Reply.loaded) (h.load program).1
  | reset => rfl
  | step pad => exact congrArg (Except.ok ∘ Reply.stepped) (h.step pad).result
  | run count pad => exact congrArg (Except.ok ∘ Reply.stepped) (h.run count pad).result
  | tick => exact congrArg (Except.ok ∘ Reply.ticked) h.tick.1
  | takeDrawn =>
    obtain ⟨_, _, _⟩ := h
    rfl
  | advance dt =>
    obtain ⟨hticks, hcalls, -⟩ := h.elapse dt
    rw [Machine.reply, Machine.reply]
    rcases h.advance dt with ⟨e, hm, hn⟩ | ⟨hm, hn⟩
    · rw [hm, hn]
    · rw [hm, hn, Except.map, Except.map, hticks, hcalls]

/-- Both serve a request and the machines resemble each other again, or neither does. -/
inductive ServedAlike : Except Clock.Error Machine → Except Clock.Error Machine → Prop
  | ok {m n : Machine} (h : m.Resembles n) : ServedAlike (.ok m) (.ok n)
  | error (e : Clock.Error) : ServedAlike (.error e) (.error e)

/-- The step lemma. -/
theorem Resembles.serve (h : m.Resembles n) (request : Request) :
    ServedAlike (m.serve request) (n.serve request) := by
  cases request with
  | load program => exact .ok (h.load program).2
  | reset => exact .ok h.reset
  | step pad => exact .ok (h.step pad).machine
  | run count pad => exact .ok (h.run count pad).machine
  | tick => exact .ok h.tick.2
  | takeDrawn =>
    obtain ⟨config, stack, hlive⟩ := h
    refine .ok (.intro config ?_)
    exact .intro stack hlive
  | advance dt =>
    obtain ⟨-, -, hmachine⟩ := h.elapse dt
    rw [Machine.serve, Machine.serve]
    rcases h.advance dt with ⟨e, hm, hn⟩ | ⟨hm, hn⟩
    · rw [hm, hn]
      exact .error e
    · rw [hm, hn]
      exact .ok hmachine

theorem ServedAlike.readings {r r' : Except Clock.Error Machine} (h : ServedAlike r r') :
    r.map Machine.readings = r'.map Machine.readings := by
  cases h with
  | ok h => exact congrArg Except.ok h.readings
  | error e => rfl

theorem Resembles.dumps (h : m.Resembles n) :
    m.processor.memory.listing = n.processor.memory.listing ∧
      m.processor.screen.lines = n.processor.screen.lines := by
  obtain ⟨_, _, _⟩ := h
  exact ⟨rfl, rfl⟩

/-- The run lemma. -/
theorem Resembles.sights (h : m.Resembles n) (requests : List Request) :
    m.sights requests = n.sights requests := by
  induction requests generalizing m n with
  | nil => rfl
  | cons request rest ih =>
    -- the replies are the same, and the machines behind them resemble each other again
    have hserved := h.serve request
    rw [Machine.sights, Machine.sights, converse, converse, view, view, h.reply request]
    cases n.reply request with
    | error e => rfl
    | ok reply =>
      generalize m.serve request = served at hserved
      generalize n.serve request = other at hserved
      cases hserved with
      | error e => rfl
      | @ok k l hlike =>
        obtain ⟨hlisting, hlines⟩ := hlike.dumps
        show Except.ok (View.sight _) :: k.sights rest = Except.ok (View.sight _) :: l.sights rest
        rw [ih hlike, View.sight, View.sight, hlike.readings, hlisting, hlines]

/-- Two machines that requests led to and that read the same: each request gets the same reply and
the same calls of the buzzer from both, they read the same after it, and so do the dumps. This goes
on for any requests one after another, so what is left in freed stack slots never shows. -/
theorem readings_determine_future (hm : m.Reachable) (hn : n.Reachable)
    (h : m.readings = n.readings) :
    (∀ request, m.reply request = n.reply request ∧
      (m.serve request).map Machine.readings = (n.serve request).map Machine.readings) ∧
    (∀ count, m.processor.memory.listing count = n.processor.memory.listing count) ∧
    m.processor.screen.lines = n.processor.screen.lines ∧
    ∀ requests, m.sights requests = n.sights requests := by
  have hlike := resembles_of_readings h (hm.period.trans hn.period.symm)
  obtain ⟨hlisting, hlines⟩ := hlike.dumps
  exact ⟨fun request => ⟨hlike.reply request, (hlike.serve request).readings⟩,
    fun count => congrFun hlisting count, hlines, hlike.sights⟩

section Detour

/-- A program that makes a call on its way to 208, unless key 0 is down at its first step. -/
def detour : List UInt8 := [0xE0, 0x9E, 0x22, 0x06, 0x12, 0x08, 0x00, 0xEE]

/-- The machine at an address of the program. -/
def detouring (pc : UInt16) (stack : CallStack) (keys : KeySet) : Machine :=
  ⟨{ Processor.initial with pc, stack, keys, memory := Memory.initial.store 512 detour },
    .timers, .ofSeed 0, .default⟩

theorem reachable_detouring : (detouring 0x200 .empty .empty).Reachable := by
  have hloaded := reachable_loaded detour
  rw [loaded_of_fits (by decide)] at hloaded
  exact hloaded

theorem opcode?_detouring {i : Nat} (hi : i + 1 < detour.length) :
    (Memory.initial.store 512 detour).opcode? (512 + i) = some (.ofBytes detour[i] detour[i + 1]) :=
  opcode?_store _ (by decide) hi

theorem Reachable.step {p : Processor} {o : Opcode} {i : Instruction} {flow : Flow}
    (hm : m.Reachable) (pad : Keypad) (hfetch : m.processor.opcode? = some o)
    (hdecode : o.decode? = some i)
    (hexecute : (m.sample pad).processor.execute m.random i = .ok (p, flow)) :
    Reachable { m with processor := p, random := m.random.skip i.draws } :=
  .serve (.step pad) hm (congrArg Except.ok (step_of_execute hfetch hdecode hexecute).1)

/-- The way with the call leaves an address behind. -/
theorem reachable_with_call :
    ∃ stack : CallStack, stack.live = [] ∧ stack.slots.get Register.offset = 0x204 ∧
      (detouring 0x208 stack (.ofKeypad fun _ => false)).Reachable := by
  have hgone := reachable_detouring.step (fun _ => false)
    (opcode?_detouring (i := 0) (by decide)) rfl rfl
  have hcalled := hgone.step (fun _ => false) (opcode?_detouring (i := 2) (by decide)) rfl rfl
  have hreturned := hcalled.step (fun _ => false) (opcode?_detouring (i := 6) (by decide)) rfl rfl
  have harrived := hreturned.step (fun _ => false) (opcode?_detouring (i := 4) (by decide)) rfl rfl
  exact ⟨_, rfl, rfl, harrived⟩

theorem reachable_without_call :
    (detouring 0x208 .empty (.ofKeypad fun _ => false)).Reachable := by
  have hskipped := reachable_detouring.step (fun key => key = 0)
    (opcode?_detouring (i := 0) (by decide)) rfl rfl
  exact hskipped.step (fun _ => false) (opcode?_detouring (i := 4) (by decide)) rfl rfl

/-- A freed slot differs, and nothing else. -/
theorem detour_leaves_no_trace :
    ∃ m n : Machine, m.Reachable ∧ n.Reachable ∧
      m.processor.stack.slots.get Register.offset ≠ n.processor.stack.slots.get Register.offset ∧
      ∀ requests, m.sights requests = n.sights requests := by
  obtain ⟨stack, hlive, hslot, hcalled⟩ := reachable_with_call
  have hsame : (detouring 0x208 stack (.ofKeypad fun _ => false)).readings =
      (detouring 0x208 .empty (.ofKeypad fun _ => false)).readings :=
    Resembles.readings (.intro .default (.intro .empty hlive))
  obtain ⟨_, _, _, hsights⟩ := readings_determine_future hcalled reachable_without_call hsame
  refine ⟨_, _, hcalled, reachable_without_call, ?_, hsights⟩
  show stack.slots.get Register.offset ≠ 0
  rw [hslot]
  decide

end Detour

end Machine

end ChipEight

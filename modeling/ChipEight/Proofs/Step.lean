import ChipEight.Machine.Step

/-!
# The ends of a step

A step ends in one of four ways. Three of them are faults, and each of those leaves the machine with
nothing but its keys sampled; the cases keep what was fetched, decoded and executed. Where an
executed instruction goes and what it does to the call stack is `Control`, with one case for each
way to go on; everything that follows the program counter or the stack through a step starts from
it.
-/
namespace ChipEight

namespace Machine

/-- How a step ends, and with which machine. -/
inductive Stepped (m : Machine) (pad : Keypad) : Except Fault Flow → Machine → Prop
  | unfetched (hfetch : m.processor.opcode? = none) :
      Stepped m pad (.error ⟨m.processor.pc, .beyondMemory m.processor.pc.toNat⟩) (m.sample pad)
  | unknown {o : Opcode} (hfetch : m.processor.opcode? = some o) (hdecode : o.decode? = none) :
      Stepped m pad (.error ⟨m.processor.pc, .unknownOpcode o⟩) (m.sample pad)
  | refused {o : Opcode} {i : Instruction} {cause : Fault.Cause}
      (hfetch : m.processor.opcode? = some o) (hdecode : o.decode? = some i)
      (hexecute : (m.sample pad).processor.execute m.random i = .error cause) :
      Stepped m pad (.error ⟨m.processor.pc, cause⟩) (m.sample pad)
  | executed {o : Opcode} {i : Instruction} {p : Processor} {flow : Flow}
      (hfetch : m.processor.opcode? = some o) (hdecode : o.decode? = some i)
      (hexecute : (m.sample pad).processor.execute m.random i = .ok (p, flow)) :
      Stepped m pad (.ok flow) { m with processor := p, random := m.random.skip i.draws }

theorem stepped (m : Machine) (pad : Keypad) :
    m.Stepped pad (m.step pad).result (m.step pad).machine := by
  have hsampled : (m.sample pad).processor.opcode? = m.processor.opcode? := rfl
  simp only [step, hsampled]
  cases hfetch : m.processor.opcode? with
  | none => exact .unfetched hfetch
  | some o =>
    dsimp only
    cases hdecode : o.decode? with
    | none => exact .unknown hfetch hdecode
    | some i =>
      have hrandom : (m.sample pad).random = m.random := rfl
      simp only [perform, hrandom]
      cases hexecute : (m.sample pad).processor.execute m.random i with
      | error cause => exact .refused hfetch hdecode hexecute
      | ok reached => exact .executed hfetch hdecode hexecute

/-- A step ends in one way only. -/
theorem Stepped.eq {m n : Machine} {pad : Keypad} {result : Except Fault Flow}
    (h : m.Stepped pad result n) : (m.step pad).result = result ∧ (m.step pad).machine = n := by
  have hsampled : (m.sample pad).processor.opcode? = m.processor.opcode? := rfl
  have hrandom : (m.sample pad).random = m.random := rfl
  cases h with
  | unfetched hfetch =>
    simp only [step, hsampled, hfetch]
    trivial
  | unknown hfetch hdecode =>
    simp only [step, hsampled, hfetch, hdecode]
    trivial
  | refused hfetch hdecode hexecute =>
    simp only [step, hsampled, hfetch, hdecode, perform, hrandom, hexecute]
    trivial
  | executed hfetch hdecode hexecute =>
    simp only [step, hsampled, hfetch, hdecode, perform, hrandom, hexecute]
    trivial

theorem step_of_execute {m : Machine} {pad : Keypad} {o : Opcode} {i : Instruction}
    {p : Processor} {flow : Flow} (hfetch : m.processor.opcode? = some o)
    (hdecode : o.decode? = some i)
    (hexecute : (m.sample pad).processor.execute m.random i = .ok (p, flow)) :
    (m.step pad).machine = { m with processor := p, random := m.random.skip i.draws } ∧
      (m.step pad).result = .ok flow :=
  (Stepped.executed hfetch hdecode hexecute).eq.symm

/-- A step that is carried out carries out the instruction of its word. -/
theorem execute_of_step {m : Machine} {pad : Keypad} {o : Opcode} {i : Instruction} {flow : Flow}
    (hfetch : m.processor.opcode? = some o) (hdecode : o.decode? = some i)
    (h : (m.step pad).result = .ok flow) :
    (m.sample pad).processor.execute m.random i = .ok ((m.step pad).machine.processor, flow) := by
  have hs := m.stepped pad
  rw [h] at hs
  generalize (m.step pad).machine = n at hs ⊢
  cases hs with
  | executed hfetched hdecoded hexecute =>
    obtain rfl := Option.some.inj (hfetched.symm.trans hfetch)
    obtain rfl := Option.some.inj (hdecoded.symm.trans hdecode)
    exact hexecute

/-- A decoded word faults exactly if its instruction is refused, and for the same cause. -/
theorem step_eq_error_iff_execute {m : Machine} {o : Opcode} {i : Instruction}
    (hfetch : m.processor.opcode? = some o) (hdecode : o.decode? = some i) {pad : Keypad}
    {a : UInt16} {cause : Fault.Cause} :
    (m.step pad).result = .error ⟨a, cause⟩ ↔
      a = m.processor.pc ∧ (m.sample pad).processor.execute m.random i = .error cause := by
  cases hexecute : (m.sample pad).processor.execute m.random i with
  | error found =>
    rw [(Stepped.refused hfetch hdecode hexecute).eq.1]
    constructor
    · intro h
      cases h
      exact ⟨rfl, rfl⟩
    · rintro ⟨rfl, hsame⟩
      cases hsame
      rfl
  | ok reached =>
    rw [(Stepped.executed hfetch hdecode hexecute).eq.1]
    exact iff_of_false nofun fun h => nomatch h.2

/-- A fault names the instruction that it stopped at and undoes all of it. -/
theorem step_of_fault {m : Machine} {pad : Keypad} {fault : Fault}
    (h : (m.step pad).result = .error fault) :
    (m.step pad).machine = m.sample pad ∧ fault.pc = m.processor.pc := by
  have hs := m.stepped pad
  rw [h] at hs
  generalize (m.step pad).machine = n at hs ⊢
  cases hs with
  | unfetched => exact ⟨rfl, rfl⟩
  | unknown => exact ⟨rfl, rfl⟩
  | refused => exact ⟨rfl, rfl⟩

end Machine

/-- The flow of an instruction that goes on with the following one whatever it finds. -/
def Instruction.straight? : Instruction → Option Flow
  | .ret | .jump _ | .call _ | .skip .. | .jumpFrom _ | .awaitKey _ => none
  | .clear | .draw .. => some .draw
  | .setSound _ => some .sound
  | _ => some .next

namespace Processor

/-- The flow, program counter and call stack that an instruction leads to. -/
inductive Control (p : Processor) : Instruction → Flow → UInt16 → CallStack → Prop
  | straight {i : Instruction} {flow : Flow} (h : i.straight? = some flow) :
      Control p i flow (p.pc + 2) p.stack
  | skip (condition : Condition) (wanted : Bool) :
      Control p (.skip condition wanted) .next
        (p.skipIf (p.holds condition = wanted)).pc p.stack
  | jump (target : Target) : Control p (.jump target) .jump (UInt16.ofNat target) p.stack
  | jumpFrom (target : Target) :
      Control p (.jumpFrom target) .jump
        (UInt16.ofNat (target + (p.v Register.offset).toNat)) p.stack
  | call (target : Target) {stack : CallStack} (h : p.stack.push? (p.pc + 2) = some stack) :
      Control p (.call target) .jump (UInt16.ofNat target) stack
  | ret {address : UInt16} {stack : CallStack} (h : p.stack.pop? = some (address, stack)) :
      Control p .ret .jump address stack
  | key (x : Register) {key : Key} (h : p.keys.first? = some key) :
      Control p (.awaitKey x) .next (p.pc + 2) p.stack
  | wait (x : Register) (h : p.keys.first? = none) :
      Control p (.awaitKey x) .awaitKey p.pc p.stack

variable {p q : Processor} {flow : Flow}

theorem control_drawSprite {x y : Register} {rows : Fin 16}
    (h : p.drawSprite x y rows = .ok (q, flow)) :
    p.Control (.draw x y rows) flow q.pc q.stack := by
  rw [drawSprite] at h
  split at h
  · split at h
    · cases h
    · cases h
      exact .straight rfl
  · cases h

theorem control_of_reaches {i : Instruction} {length : Nat} {cause : Fault.Cause}
    {carried : Processor × Flow}
    (hi : p.Control i carried.2 carried.1.pc carried.1.stack)
    (h : (if p.reaches length then Except.ok carried else .error cause) = .ok (q, flow)) :
    p.Control i flow q.pc q.stack := by
  split at h
  · cases h
    exact hi
  · cases h

theorem control_enter {target : Target} (h : p.enter target = .ok (q, flow)) :
    p.Control (.call target) flow q.pc q.stack := by
  rw [enter] at h
  split at h
  case h_1 stack hpush =>
    cases h
    exact .call target hpush
  case h_2 => cases h

theorem control_leave (h : p.leave = .ok (q, flow)) : p.Control .ret flow q.pc q.stack := by
  rw [leave] at h
  split at h
  case h_1 address stack hpop =>
    cases h
    exact .ret hpop
  case h_2 => cases h

theorem control_awaitKey (x : Register) (h : p.awaitKey x = (q, flow)) :
    p.Control (.awaitKey x) flow q.pc q.stack := by
  rw [awaitKey] at h
  split at h
  case h_1 key hkey =>
    cases h
    exact .key x hkey
  case h_2 hkey =>
    cases h
    exact .wait x hkey

theorem control_writeResult (x : Register) (r : UInt8 × Option Bool) :
    (p.writeResult x r).pc = p.pc ∧ (p.writeResult x r).stack = p.stack := by
  obtain ⟨result, flag⟩ := r
  cases flag with
  | none => exact ⟨rfl, rfl⟩
  | some flag => exact ⟨rfl, rfl⟩

/-- Every instruction that is carried out goes on in one of the ways of `Control`. -/
theorem control_execute {random : Random.Stream} {i : Instruction}
    (h : p.execute random i = .ok (q, flow)) : p.Control i flow q.pc q.stack := by
  cases i with
  | ret => exact control_leave h
  | call target => exact control_enter h
  | draw x y rows => exact control_drawSprite h
  | decimal x | store x | load x => exact control_of_reaches (.straight rfl) h
  | awaitKey x => exact control_awaitKey x (Except.ok.inj h)
  | jump target =>
    cases h
    exact .jump target
  | jumpFrom target =>
    cases h
    exact .jumpFrom target
  | skip condition wanted =>
    cases h
    exact .skip condition wanted
  | operate operation x y =>
    cases h
    obtain ⟨hpc, hstack⟩ := control_writeResult (p := p.advance) x (operation.apply (p.v x) (p.v y))
    rw [hpc, hstack]
    exact .straight rfl
  | _ =>
    cases h
    exact .straight rfl

end Processor

end ChipEight

import ChipEight.Proofs.Drawing
import ChipEight.Proofs.InstructionTable

/-!
# When a step faults

For each kind of fault the words that can raise it and the states in which they do. A word of the
instruction table that is in none of these states is carried out.
-/
namespace ChipEight

namespace CallStack

theorem push?_eq_none_iff {s : CallStack} {address : UInt16} :
    s.push? address = none ↔ s.depth.val = 16 := by
  have hdepth := s.depth.isLt
  rw [push?]
  split
  case isTrue hroom => exact iff_of_false (Option.some_ne_none _) (Nat.ne_of_lt hroom)
  case isFalse hfull => exact iff_of_true rfl (by omega)

theorem pop?_eq_none_iff {s : CallStack} : s.pop? = none ↔ s.depth.val = 0 := by
  obtain ⟨slots, depth, hdepth⟩ := s
  cases depth with
  | zero => exact iff_of_true rfl rfl
  | succ depth => exact iff_of_false (Option.some_ne_none _) (Nat.succ_ne_zero depth)

end CallStack

namespace Processor

/-- The word reads or writes through the index register beyond the end of memory. -/
inductive Overreaches (p : Processor) (o : Opcode) : Prop
  | draw (h : o.family.val = 0xD) (hbeyond : 4096 < p.index.toNat + o.n)
  | decimal (h : o.Transfers 0x33) (hbeyond : 4096 < p.index.toNat + 3)
  | store (h : o.Transfers 0x55) (hbeyond : 4096 < p.index.toNat + o.x + 1)
  | load (h : o.Transfers 0x65) (hbeyond : 4096 < p.index.toNat + o.x + 1)

/-- The word draws a sprite that lies in memory and has a set bit that lands off the screen. -/
structure SticksOut (p : Processor) (o : Opcode) : Prop where
  draws : o.family.val = 0xD
  within : p.index.toNat + o.n ≤ 4096
  off : ∃ r c, p.SpriteBit o r c ∧ ¬ (p.landing o r c).OnScreen

/-- The word cannot be carried out, for the given cause. -/
inductive Fails (p : Processor) (o : Opcode) : Fault.Cause → Prop
  | overflow (h : o.family.val = 0x2) (hfull : p.stack.depth.val = 16) : Fails p o .stackOverflow
  | underflow (h : o.word = 0x00EE) (hempty : p.stack.depth.val = 0) : Fails p o .stackUnderflow
  | beyondMemory (h : p.Overreaches o) : Fails p o (.memoryOutOfBounds (max p.index.toNat 4096))
  | offScreen {r c : Nat} (h : o.family.val = 0xD) (hwithin : p.index.toNat + o.n ≤ 4096)
      (hfirst : p.FirstOff o r c) :
      Fails p o (.displayOutOfBounds (p.landing o r c).x (p.landing o r c).y)

variable {p : Processor} {o : Opcode} {cause : Fault.Cause}

theorem reaches_eq_false_iff {length : Nat} :
    p.reaches length = false ↔ 4096 < p.index.toNat + length :=
  decide_eq_false_iff_not.trans Nat.not_le

/-- A word fails exactly if the instruction that it stands for is refused. -/
theorem fails_of_refusal {i : Instruction} (hstands : o.StandsFor i) (h : p.Refusal i cause) :
    p.Fails o cause := by
  cases h with
  | underflow hpop => exact .underflow hstands (CallStack.pop?_eq_none_iff.mp hpop)
  | overflow target hpush => exact .overflow hstands.1 (CallStack.push?_eq_none_iff.mp hpush)
  | beyondMemory hreach hbeyond =>
    rw [reaches_eq_false_iff] at hbeyond
    apply Fails.beyondMemory
    cases i with
    | draw =>
      cases hreach
      obtain ⟨hfamily, rfl, rfl, rfl⟩ := hstands
      exact .draw hfamily hbeyond
    | decimal =>
      cases hreach
      exact .decimal hstands.1 hbeyond
    | store =>
      cases hreach
      obtain ⟨hword, rfl⟩ := hstands
      exact .store hword hbeyond
    | load =>
      cases hreach
      obtain ⟨hword, rfl⟩ := hstands
      exact .load hword hbeyond
    | _ => cases hreach
  | offScreen hreach hdraw =>
    obtain ⟨hfamily, rfl, rfl, rfl⟩ := hstands
    obtain ⟨r, c, hfirst, rfl⟩ := find?_pixels_sprite_iff.mp (Screen.draw_eq_error_iff.mp hdraw)
    exact .offScreen hfamily (of_decide_eq_true hreach) hfirst

theorem Fails.exists_refusal (h : p.Fails o cause) :
    ∃ i, o.StandsFor i ∧ p.Refusal i cause := by
  cases h with
  | overflow h hfull =>
    exact ⟨.call o.nnn, ⟨h, rfl⟩, .overflow _ (CallStack.push?_eq_none_iff.mpr hfull)⟩
  | underflow h hempty => exact ⟨.ret, h, .underflow (CallStack.pop?_eq_none_iff.mpr hempty)⟩
  | beyondMemory h =>
    cases h with
    | draw h hbeyond =>
      exact ⟨.draw o.x o.y o.n, ⟨h, rfl, rfl, rfl⟩,
        .beyondMemory rfl (reaches_eq_false_iff.mpr hbeyond)⟩
    | decimal h hbeyond =>
      exact ⟨.decimal o.x, ⟨h, rfl⟩, .beyondMemory rfl (reaches_eq_false_iff.mpr hbeyond)⟩
    | store h hbeyond =>
      exact ⟨.store o.x, ⟨h, rfl⟩, .beyondMemory rfl (reaches_eq_false_iff.mpr hbeyond)⟩
    | load h hbeyond =>
      exact ⟨.load o.x, ⟨h, rfl⟩, .beyondMemory rfl (reaches_eq_false_iff.mpr hbeyond)⟩
  | @offScreen r c h hwithin hfirst =>
    have hdraw := Screen.draw_eq_error_iff (s := p.screen).mpr
      (find?_pixels_sprite_iff.mpr ⟨r, c, hfirst, rfl⟩)
    exact ⟨.draw o.x o.y o.n, ⟨h, rfl, rfl, rfl⟩, .offScreen (decide_eq_true hwithin) hdraw⟩

theorem fails_stackOverflow_iff :
    p.Fails o .stackOverflow ↔ o.family.val = 0x2 ∧ p.stack.depth.val = 16 := by
  constructor
  · intro h
    cases h with
    | overflow hcall hfull => exact ⟨hcall, hfull⟩
  · rintro ⟨hcall, hfull⟩
    exact .overflow hcall hfull

theorem fails_stackUnderflow_iff :
    p.Fails o .stackUnderflow ↔ o.word = 0x00EE ∧ p.stack.depth.val = 0 := by
  constructor
  · intro h
    cases h with
    | underflow hret hempty => exact ⟨hret, hempty⟩
  · rintro ⟨hret, hempty⟩
    exact .underflow hret hempty

theorem fails_memoryOutOfBounds_iff {address : Nat} :
    p.Fails o (.memoryOutOfBounds address) ↔
      address = max p.index.toNat 4096 ∧ p.Overreaches o := by
  constructor
  · intro h
    cases h with
    | beyondMemory hbeyond => exact ⟨rfl, hbeyond⟩
  · rintro ⟨rfl, hbeyond⟩
    exact .beyondMemory hbeyond

theorem exists_fails_displayOutOfBounds_iff :
    (∃ x y, p.Fails o (.displayOutOfBounds x y)) ↔ p.SticksOut o := by
  constructor
  · rintro ⟨_, _, hfails⟩
    cases hfails with
    | offScreen hdraws hwithin hfirst => exact ⟨hdraws, hwithin, _, _, hfirst.set, hfirst.off⟩
  · rintro ⟨hdraws, hwithin, r, c, hset, hoff⟩
    obtain ⟨s, d, hfirst⟩ := exists_firstOff hset hoff
    exact ⟨_, _, .offScreen hdraws hwithin hfirst⟩

/-- No check looks at the keys. -/
theorem refusal_withKeys_iff {i : Instruction} {keys : KeySet} :
    (p.withKeys keys).Refusal i cause ↔ p.Refusal i cause := by
  constructor
  all_goals
    intro h
    cases h with
    | underflow h => exact .underflow h
    | overflow target h => exact .overflow target h
    | beyondMemory hreach h => exact .beyondMemory hreach h
    | offScreen hreach h => exact .offScreen hreach h

end Processor

namespace Machine

variable {m : Machine} {pad : Keypad} {w : Opcode}

/-- Apart from unknown words, a fetched word faults exactly if it fails. -/
theorem step_eq_error_iff (hfetch : m.processor.opcode? = some w) (pad : Keypad)
    {cause : Fault.Cause} (hknown : ∀ o, cause ≠ .unknownOpcode o) :
    (m.step pad).result = .error ⟨m.processor.pc, cause⟩ ↔ m.processor.Fails w cause := by
  cases hdecode : w.decode? with
  | none =>
    rw [(Stepped.unknown hfetch hdecode).eq.1]
    constructor
    · intro h
      cases h
      exact absurd rfl (hknown w)
    · intro hfails
      obtain ⟨i, hstands, -⟩ := hfails.exists_refusal
      rw [Opcode.decode?_of_standsFor hstands] at hdecode
      cases hdecode
  | some i =>
    have hstands := Opcode.standsFor_of_decode? hdecode
    rw [step_eq_error_iff_execute hfetch hdecode]
    constructor
    · rintro ⟨-, hexecute⟩
      have hrefusal := Processor.refusal_execute hexecute
      exact Processor.fails_of_refusal hstands (Processor.refusal_withKeys_iff.mp hrefusal)
    · intro hfails
      obtain ⟨j, hother, hrefusal⟩ := hfails.exists_refusal
      obtain rfl := Opcode.eq_of_standsFor hstands hother
      exact ⟨rfl, (Processor.refusal_withKeys_iff.mpr hrefusal).execute m.random⟩

/-- A word of the instruction table that does not fail is carried out. -/
theorem step_eq_ok_of_not_fails (hfetch : m.processor.opcode? = some w) (hword : w.InTable)
    (pad : Keypad) (hnot : ∀ cause, ¬ m.processor.Fails w cause) :
    ∃ flow, (m.step pad).result = .ok flow := by
  obtain ⟨i, hdecode⟩ := Option.isSome_iff_exists.mp (w.isSome_decode?_iff.mpr (.inl hword))
  cases hresult : (m.step pad).result with
  | ok flow => exact ⟨flow, rfl⟩
  | error fault =>
    obtain ⟨-, hexecute⟩ := (step_eq_error_iff_execute hfetch hdecode).mp hresult
    have hrefusal := Processor.refusal_withKeys_iff.mp (Processor.refusal_execute hexecute)
    have hstands := Opcode.standsFor_of_decode? hdecode
    exact absurd (Processor.fails_of_refusal hstands hrefusal) (hnot _)

/-- Every fault but that of an unknown word, told from word and state. Behind memory nothing is
fetched, and the fault names the program counter, or the end of memory if that lies further on. A
fetched word overflows the stack exactly if it is a call and all slots are in use, and underflows it
exactly if it is a return and none is. It leaves memory exactly if what it draws, stores or loads at
the index register ends past memory, and then the fault names the first address outside memory that
it reaches for. It leaves the screen exactly if it draws a sprite with a set bit off the screen. All
other words of the instruction table are carried out. -/
theorem fault_iff (m : Machine) (pad : Keypad) :
    (0xFFE < m.processor.pc.toNat →
      (m.step pad).result =
        .error ⟨m.processor.pc, .memoryOutOfBounds (max m.processor.pc.toNat 4096)⟩) ∧
    (m.processor.pc.toNat ≤ 0xFFE → ∃ w, m.processor.opcode? = some w ∧
      (∀ fault, (m.step pad).result = .error fault → fault.pc = m.processor.pc) ∧
      ((m.step pad).result = .error ⟨m.processor.pc, .stackOverflow⟩ ↔
        w.family.val = 0x2 ∧ m.processor.stack.depth.val = 16) ∧
      ((m.step pad).result = .error ⟨m.processor.pc, .stackUnderflow⟩ ↔
        w.word = 0x00EE ∧ m.processor.stack.depth.val = 0) ∧
      (∀ address, (m.step pad).result = .error ⟨m.processor.pc, .memoryOutOfBounds address⟩ ↔
        address = max m.processor.index.toNat 4096 ∧ m.processor.Overreaches w) ∧
      ((∃ x y, (m.step pad).result = .error ⟨m.processor.pc, .displayOutOfBounds x y⟩) ↔
        m.processor.SticksOut w) ∧
      (w.InTable → ¬ (w.family.val = 0x2 ∧ m.processor.stack.depth.val = 16) →
        ¬ (w.word = 0x00EE ∧ m.processor.stack.depth.val = 0) → ¬ m.processor.Overreaches w →
        ¬ m.processor.SticksOut w → ∃ flow, (m.step pad).result = .ok flow)) := by
  constructor
  · intro hbehind
    have hnone : m.processor.opcode? = none := if_neg (show ¬ _ + 2 ≤ 4096 by omega)
    exact (Stepped.unfetched hnone).eq.1
  intro hwithin
  have hfetch := m.processor.memory.opcode?_of_le (a := m.processor.pc.toNat) (by omega)
  change m.processor.opcode? = _ at hfetch
  generalize Opcode.ofBytes _ _ = w at hfetch
  refine ⟨w, hfetch, fun fault h => (step_of_fault h).2, ?_, ?_, ?_, ?_, ?_⟩
  · exact (step_eq_error_iff hfetch pad (by simp)).trans Processor.fails_stackOverflow_iff
  · exact (step_eq_error_iff hfetch pad (by simp)).trans Processor.fails_stackUnderflow_iff
  · intro address
    exact (step_eq_error_iff hfetch pad (by simp)).trans Processor.fails_memoryOutOfBounds_iff
  · have hdisplay : ∀ x y,
        (m.step pad).result = .error ⟨m.processor.pc, .displayOutOfBounds x y⟩ ↔ _ :=
      fun x y => step_eq_error_iff hfetch pad (by simp)
    simp only [hdisplay]
    exact Processor.exists_fails_displayOutOfBounds_iff
  · intro hword hover hunder hreach hout
    refine step_eq_ok_of_not_fails hfetch hword pad ?_
    rintro _ (⟨hcall, hfull⟩ | ⟨hret, hempty⟩ | hbeyond | ⟨hdraws, hin, hfirst⟩)
    · exact hover ⟨hcall, hfull⟩
    · exact hunder ⟨hret, hempty⟩
    · exact hreach hbeyond
    · exact hout ⟨hdraws, hin, _, _, hfirst.set, hfirst.off⟩

end Machine

end ChipEight

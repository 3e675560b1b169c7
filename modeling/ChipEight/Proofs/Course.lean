import ChipEight.Proofs.Calls
import ChipEight.Proofs.InstructionTable

/-!
# The course of a program

How a step that is carried out goes on, told from the word that it fetches, the state before it and
the keys that are down: the flow that it gives back, and where it leaves the program counter. The
conditional skips come in pairs of words that ask the same and take opposite answers.
-/
namespace ChipEight

namespace Opcode

/-- The word chooses the address where the program goes on. -/
def Jumps (o : Opcode) : Prop :=
  o.word = 0x00EE ∨ o.family.val = 0x1 ∨ o.family.val = 0x2 ∨ o.family.val = 0xB

/-- The word asks for a key, and none is down. -/
def Waits (o : Opcode) (pad : Keypad) : Prop := o.Transfers 0x0A ∧ ∀ key, pad key = false

/-- The word changes the screen. -/
def Paints (o : Opcode) : Prop := o.word = 0x00E0 ∨ o.family.val = 0xD

/-- Two words that skip under opposite conditions. -/
inductive Opposite (o o' : Opcode) : Prop
  | byte (h : o.family.val = 0x3) (h' : o'.family.val = 0x4) (hx : o'.x = o.x) (hnn : o'.nn = o.nn)
  | register (h : o.family.val = 0x5 ∧ o.n.val = 0x0) (h' : o'.family.val = 0x9 ∧ o'.n.val = 0x0)
      (hx : o'.x = o.x) (hy : o'.y = o.y)
  | key (h : o.family.val = 0xE ∧ o.nn.toNat = 0x9E) (h' : o'.family.val = 0xE ∧ o'.nn.toNat = 0xA1)
      (hx : o'.x = o.x)

variable {o o' : Opcode}

theorem Opposite.exists_condition (h : o.Opposite o') :
    ∃ condition, o.StandsFor (.skip condition true) ∧ o'.StandsFor (.skip condition false) := by
  cases h with
  | byte h h' hx hnn => exact ⟨.holdsByte o.x o.nn, ⟨h, rfl, rfl⟩, ⟨h', hx, hnn⟩⟩
  | register h h' hx hy => exact ⟨.sameByte o.x o.y, ⟨h.1, rfl, rfl⟩, ⟨h'.1, h'.2, hx, hy⟩⟩
  | key h h' hx => exact ⟨.keyDown o.x, ⟨h.1, h.2, rfl⟩, ⟨h'.1, h'.2, hx⟩⟩

end Opcode

namespace Processor

/-- The key with the number in register `x` is down. A number above 15 is that of no key. -/
def KeyDown (p : Processor) (pad : Keypad) (x : Register) : Prop :=
  ∃ key : Key, key.val = (p.v x).toNat ∧ pad key = true

/-- The word is a conditional skip, and its condition holds. -/
inductive Skips (p : Processor) (pad : Keypad) (o : Opcode) : Prop
  | byte (h : o.family.val = 0x3) (holds : p.v o.x = o.nn)
  | otherByte (h : o.family.val = 0x4) (holds : p.v o.x ≠ o.nn)
  | register (h : o.family.val = 0x5 ∧ o.n.val = 0x0) (holds : p.v o.x = p.v o.y)
  | otherRegister (h : o.family.val = 0x9 ∧ o.n.val = 0x0) (holds : p.v o.x ≠ p.v o.y)
  | keyDown (h : o.family.val = 0xE ∧ o.nn.toNat = 0x9E) (holds : p.KeyDown pad o.x)
  | keyUp (h : o.family.val = 0xE ∧ o.nn.toNat = 0xA1) (holds : ¬ p.KeyDown pad o.x)

variable {p : Processor} {o : Opcode} {i : Instruction} {pc : UInt16} {stack : CallStack}
  {pad : Keypad} {condition : Condition} {wanted : Bool}

/-- What a skip of register `x` finds among the sampled keys is what the keypad answers. -/
theorem holds_keyDown_iff {x : Register} :
    (p.withKeys (.ofKeypad pad)).holds (.keyDown x) = true ↔ p.KeyDown pad x := by
  have hv : (p.withKeys (.ofKeypad pad)).v x = p.v x := rfl
  rw [holds, hv, Key.ofNat]
  by_cases hkey : (p.v x).toNat < Key.count
  · rw [dif_pos hkey]
    show (KeySet.ofKeypad pad).contains ⟨_, hkey⟩ = true ↔ _
    rw [KeySet.contains_ofKeypad]
    constructor
    · exact fun hdown => ⟨_, rfl, hdown⟩
    · rintro ⟨key, hnumber, hdown⟩
      obtain rfl : key = ⟨(p.v x).toNat, hkey⟩ := Fin.ext hnumber
      exact hdown
  · rw [dif_neg hkey]
    refine iff_of_false Bool.false_ne_true ?_
    rintro ⟨key, hnumber, -⟩
    exact hkey (hnumber ▸ key.isLt)

theorem Skips.exists_skip (h : p.Skips pad o) :
    ∃ condition wanted, o.StandsFor (.skip condition wanted) ∧
      (p.withKeys (.ofKeypad pad)).holds condition = wanted := by
  cases h with
  | byte h hholds =>
    exact ⟨.holdsByte o.x o.nn, true, ⟨h, rfl, rfl⟩, decide_eq_true hholds⟩
  | otherByte h hholds =>
    exact ⟨.holdsByte o.x o.nn, false, ⟨h, rfl, rfl⟩, decide_eq_false hholds⟩
  | register h hholds =>
    exact ⟨.sameByte o.x o.y, true, ⟨h.1, rfl, rfl⟩, decide_eq_true hholds⟩
  | otherRegister h hholds =>
    exact ⟨.sameByte o.x o.y, false, ⟨h.1, h.2, rfl, rfl⟩, decide_eq_false hholds⟩
  | keyDown h hholds =>
    exact ⟨.keyDown o.x, true, ⟨h.1, h.2, rfl⟩, holds_keyDown_iff.mpr hholds⟩
  | keyUp h hholds =>
    exact ⟨.keyDown o.x, false, ⟨h.1, h.2, rfl⟩,
      Bool.eq_false_iff.mpr (mt holds_keyDown_iff.mp hholds)⟩

theorem skips_of_holds (hword : o.InTable) (hstands : o.StandsFor (.skip condition wanted))
    (hholds : (p.withKeys (.ofKeypad pad)).holds condition = wanted) : p.Skips pad o := by
  cases condition with
  | holdsByte =>
    cases wanted with
    | true =>
      obtain ⟨hfamily, rfl, rfl⟩ := hstands
      exact .byte hfamily (of_decide_eq_true hholds)
    | false =>
      obtain ⟨hfamily, rfl, rfl⟩ := hstands
      exact .otherByte hfamily (of_decide_eq_false hholds)
  | sameByte =>
    cases wanted with
    | true =>
      obtain ⟨hfamily, rfl, rfl⟩ := hstands
      have hlast := (Opcode.inTable_iff_last hfamily rfl).mp hword
      exact .register ⟨hfamily, hlast⟩ (of_decide_eq_true hholds)
    | false =>
      obtain ⟨hfamily, hlast, rfl, rfl⟩ := hstands
      exact .otherRegister ⟨hfamily, hlast⟩ (of_decide_eq_false hholds)
  | keyDown =>
    cases wanted with
    | true =>
      obtain ⟨hfamily, hbyte, rfl⟩ := hstands
      exact .keyDown ⟨hfamily, hbyte⟩ (holds_keyDown_iff.mp hholds)
    | false =>
      obtain ⟨hfamily, hbyte, rfl⟩ := hstands
      exact .keyUp ⟨hfamily, hbyte⟩ (mt holds_keyDown_iff.mpr (Bool.eq_false_iff.mp hholds))

/-- A word of the instruction table skips if the instruction that it stands for does. -/
theorem skips_iff (hword : o.InTable) (hstands : o.StandsFor i) :
    p.Skips pad o ↔ ∃ condition wanted, i = .skip condition wanted ∧
      (p.withKeys (.ofKeypad pad)).holds condition = wanted := by
  constructor
  · intro h
    obtain ⟨condition, wanted, hskip, hholds⟩ := h.exists_skip
    exact ⟨condition, wanted, Opcode.eq_of_standsFor hstands hskip, hholds⟩
  · rintro ⟨condition, wanted, rfl, hholds⟩
    exact skips_of_holds hword hstands hholds

/-- The flow of an instruction that is carried out. -/
def flow (p : Processor) : Instruction → Flow
  | .ret | .jump _ | .call _ | .jumpFrom _ => .jump
  | .clear | .draw .. => .draw
  | .setSound _ => .sound
  | .awaitKey x => (p.awaitKey x).2
  | _ => .next

theorem Control.flow_eq {flow : Flow} (h : p.Control i flow pc stack) : flow = p.flow i := by
  cases h with
  | straight hstraight => cases i <;> cases hstraight <;> rfl
  | key x hkey =>
    show _ = (p.awaitKey x).2
    rw [awaitKey, hkey]
  | wait x hnone =>
    show _ = (p.awaitKey x).2
    rw [awaitKey, hnone]
  | skip | jump | jumpFrom | call | ret => rfl

theorem flow_awaitKey (x : Register) :
    p.flow (.awaitKey x) = .next ∨ p.flow (.awaitKey x) = .awaitKey := by
  show (p.awaitKey x).2 = _ ∨ (p.awaitKey x).2 = _
  rw [awaitKey]
  split
  · exact .inl rfl
  · exact .inr rfl

theorem flow_eq_jump_iff (hstands : o.StandsFor i) : p.flow i = .jump ↔ o.Jumps := by
  constructor
  · intro hflow
    cases i with
    | ret => exact .inl hstands
    | jump => exact .inr (.inl hstands.1)
    | call => exact .inr (.inr (.inl hstands.1))
    | jumpFrom => exact .inr (.inr (.inr hstands.1))
    | awaitKey x => rcases p.flow_awaitKey x with h | h <;> cases h.symm.trans hflow
    | _ => cases hflow
  · rintro (hret | hjump | hcall | hoffset)
    · obtain rfl := Opcode.eq_of_standsFor (j := .ret) hstands hret
      rfl
    · obtain rfl := Opcode.eq_of_standsFor (j := .jump o.nnn) hstands ⟨hjump, rfl⟩
      rfl
    · obtain rfl := Opcode.eq_of_standsFor (j := .call o.nnn) hstands ⟨hcall, rfl⟩
      rfl
    · obtain rfl := Opcode.eq_of_standsFor (j := .jumpFrom o.nnn) hstands ⟨hoffset, rfl⟩
      rfl

theorem flow_eq_draw_iff (hstands : o.StandsFor i) : p.flow i = .draw ↔ o.Paints := by
  constructor
  · intro hflow
    cases i with
    | clear => exact .inl hstands
    | draw => exact .inr hstands.1
    | awaitKey x => rcases p.flow_awaitKey x with h | h <;> cases h.symm.trans hflow
    | _ => cases hflow
  · rintro (hclear | hdraw)
    · obtain rfl := Opcode.eq_of_standsFor (j := .clear) hstands hclear
      rfl
    · obtain rfl := Opcode.eq_of_standsFor (j := .draw o.x o.y o.n) hstands ⟨hdraw, rfl, rfl, rfl⟩
      rfl

theorem flow_eq_sound_iff (hstands : o.StandsFor i) : p.flow i = .sound ↔ o.Transfers 0x18 := by
  constructor
  · intro hflow
    cases i with
    | setSound => exact hstands.1
    | awaitKey x => rcases p.flow_awaitKey x with h | h <;> cases h.symm.trans hflow
    | _ => cases hflow
  · intro hsound
    obtain rfl := Opcode.eq_of_standsFor (j := .setSound o.x) hstands ⟨hsound, rfl⟩
    rfl

theorem flow_eq_awaitKey_iff (hstands : o.StandsFor i) :
    (p.withKeys (.ofKeypad pad)).flow i = .awaitKey ↔ o.Waits pad := by
  have hfirst := KeySet.first?_ofKeypad_eq_none_iff pad
  constructor
  · intro hflow
    cases i with
    | awaitKey x =>
      change ((p.withKeys (.ofKeypad pad)).awaitKey x).2 = _ at hflow
      rw [awaitKey] at hflow
      split at hflow
      case h_1 => cases hflow
      case h_2 hnone => exact ⟨hstands.1, hfirst.mp hnone⟩
    | _ => cases hflow
  · rintro ⟨hword, hup⟩
    obtain rfl := Opcode.eq_of_standsFor (j := .awaitKey o.x) hstands ⟨hword, rfl⟩
    have hnone : (p.withKeys (.ofKeypad pad)).keys.first? = none := hfirst.mpr hup
    show ((p.withKeys (.ofKeypad pad)).awaitKey o.x).2 = _
    rw [awaitKey, hnone]

namespace Control

variable {flow : Flow}

theorem pc_of_target (h : p.Control i flow pc stack) (hstands : o.StandsFor i)
    (htarget : o.family.val = 0x1 ∨ o.family.val = 0x2) : pc.toNat = o.nnn := by
  rcases htarget with hjump | hcall
  · obtain rfl := Opcode.eq_of_standsFor (j := .jump o.nnn) hstands ⟨hjump, rfl⟩
    cases h with
    | straight hstraight => cases hstraight
    | jump => exact toNat_target o.nnn
  · obtain rfl := Opcode.eq_of_standsFor (j := .call o.nnn) hstands ⟨hcall, rfl⟩
    cases h with
    | straight hstraight => cases hstraight
    | call => exact toNat_target o.nnn

theorem pc_of_offset (h : p.Control i flow pc stack) (hstands : o.StandsFor i)
    (hoffset : o.family.val = 0xB) : pc.toNat = o.nnn + (p.v Register.offset).toNat := by
  obtain rfl := Opcode.eq_of_standsFor (j := .jumpFrom o.nnn) hstands ⟨hoffset, rfl⟩
  cases h with
  | straight hstraight => cases hstraight
  | jumpFrom =>
    have htarget := o.nnn.isLt
    have hbyte := (p.v Register.offset).toNat_lt
    rw [UInt16.toNat_ofNat']
    exact Nat.mod_eq_of_lt (by omega)

theorem live_of_ret (h : p.Control i flow pc stack) (hstands : o.StandsFor i)
    (hret : o.word = 0x00EE) : p.stack.live = stack.live ++ [pc] := by
  obtain rfl := Opcode.eq_of_standsFor (j := .ret) hstands hret
  cases h with
  | straight hstraight => cases hstraight
  | ret hpop => exact CallStack.live_pop? hpop

theorem pc_of_wait (h : p.Control i .awaitKey pc stack) : pc = p.pc := by
  generalize hflow : Flow.awaitKey = flow at h
  cases h with
  | wait => rfl
  | straight hstraight =>
    subst hflow
    cases i <;> cases hstraight
  | skip | jump | jumpFrom | call | ret | key => cases hflow

/-- Where a program goes that neither jumps nor waits. -/
theorem pc_of_next (h : p.Control i flow pc stack) (hpc : p.pc.toNat + 2 ≤ 4096)
    (hjump : flow ≠ .jump) (hwait : flow ≠ .awaitKey) :
    (∃ condition wanted, i = .skip condition wanted ∧ p.holds condition = wanted) ∧
      pc.toNat = p.pc.toNat + 4 ∨
    (¬ ∃ condition wanted, i = .skip condition wanted ∧ p.holds condition = wanted) ∧
      pc.toNat = p.pc.toNat + 2 := by
  cases h with
  | straight hstraight =>
    refine .inr ⟨?_, toNat_add_two hpc⟩
    rintro ⟨condition, wanted, rfl, -⟩
    cases hstraight
  | skip condition wanted =>
    rw [toNat_skipIf hpc]
    by_cases hholds : p.holds condition = wanted
    · exact .inl ⟨⟨condition, wanted, rfl, hholds⟩, by rw [decide_eq_true hholds, if_pos rfl]⟩
    · refine .inr ⟨?_, by rw [decide_eq_false hholds, if_neg Bool.false_ne_true]⟩
      rintro ⟨_, _, hsame, hother⟩
      cases hsame
      exact hholds hother
  | key =>
    refine .inr ⟨?_, toNat_add_two hpc⟩
    rintro ⟨_, _, hsame, -⟩
    cases hsame
  | wait => exact absurd rfl hwait
  | jump | jumpFrom | call | ret => exact absurd rfl hjump

end Control

/-- The answer to a skip depends on registers and keys only. -/
theorem holds_withKeys {q : Processor} (h : q.registers = p.registers) (keys : KeySet)
    (condition : Condition) :
    (q.withKeys keys).holds condition = (p.withKeys keys).holds condition := by
  have hv : ∀ x, (q.withKeys keys).v x = (p.withKeys keys).v x :=
    fun x => congrArg (Vector.get · x) h
  cases condition with
  | holdsByte => rw [holds, holds, hv]
  | sameByte => rw [holds, holds, hv, hv]
  | keyDown =>
    rw [holds, holds, hv]
    rfl

end Processor

namespace Machine

/-- How a step on the word `o` goes on that is carried out: the flow, and the program counter of the
machine `n` after it. -/
structure Course (m : Machine) (o : Opcode) (pad : Keypad) (flow : Flow) (n : Machine) : Prop where
  jump : flow = .jump ↔ o.Jumps
  wait : flow = .awaitKey ↔ o.Waits pad
  draw : flow = .draw ↔ o.Paints
  sound : flow = .sound ↔ o.Transfers 0x18
  next : flow = .next ↔ ¬ o.Jumps ∧ ¬ o.Waits pad ∧ ¬ o.Paints ∧ ¬ o.Transfers 0x18
  ret : o.word = 0x00EE → m.returns = n.returns ++ [n.processor.pc]
  target : o.family.val = 0x1 ∨ o.family.val = 0x2 → n.processor.pc.toNat = o.nnn
  offset : o.family.val = 0xB →
    n.processor.pc.toNat = o.nnn + (m.processor.v Register.offset).toNat
  stalled : flow = .awaitKey → n.processor.pc = m.processor.pc
  skipped : flow ≠ .jump → flow ≠ .awaitKey → m.processor.Skips pad o →
    n.processor.pc.toNat = m.processor.pc.toNat + 4
  straight : flow ≠ .jump → flow ≠ .awaitKey → ¬ m.processor.Skips pad o →
    n.processor.pc.toNat = m.processor.pc.toNat + 2

variable {m n : Machine} {pad : Keypad} {o o' : Opcode} {flow : Flow}

theorem course_of_step (h : (m.step pad).result = .ok flow) :
    ∃ o, m.processor.opcode? = some o ∧ (o.InTable → m.Course o pad flow (m.step pad).machine) := by
  have hs := m.stepped pad
  rw [h] at hs
  generalize (m.step pad).machine = n at hs ⊢
  cases hs with
  | @executed o i q flow hfetch hdecode hexecute =>
    refine ⟨o, hfetch, fun hword => ?_⟩
    have hstands := Opcode.standsFor_of_decode? hdecode
    have hcontrol := Processor.control_execute hexecute
    have hpc : m.processor.pc.toNat + 2 ≤ 4096 := Memory.le_of_opcode? hfetch
    have hflow := hcontrol.flow_eq
    have hjump : flow = .jump ↔ o.Jumps := hflow ▸ Processor.flow_eq_jump_iff hstands
    have hwait : flow = .awaitKey ↔ o.Waits pad := hflow ▸ Processor.flow_eq_awaitKey_iff hstands
    have hdraw : flow = .draw ↔ o.Paints := hflow ▸ Processor.flow_eq_draw_iff hstands
    have hsound : flow = .sound ↔ o.Transfers 0x18 := hflow ▸ Processor.flow_eq_sound_iff hstands
    have hskips : m.processor.Skips pad o ↔ ∃ condition wanted, i = .skip condition wanted ∧
        (m.sample pad).processor.holds condition = wanted := Processor.skips_iff hword hstands
    have hnext := hcontrol.pc_of_next hpc
    rw [← hskips] at hnext
    constructor
    case jump => exact hjump
    case wait => exact hwait
    case draw => exact hdraw
    case sound => exact hsound
    case next =>
      rw [← hjump, ← hwait, ← hdraw, ← hsound]
      cases flow <;> decide
    case ret => exact hcontrol.live_of_ret hstands
    case target => exact hcontrol.pc_of_target hstands
    case offset => exact hcontrol.pc_of_offset hstands
    case stalled =>
      rintro rfl
      exact hcontrol.pc_of_wait
    case skipped =>
      intro hstays hgoes hskips
      rcases hnext hstays hgoes with ⟨-, hpc⟩ | ⟨hnot, -⟩
      · exact hpc
      · exact absurd hskips hnot
    case straight =>
      intro hstays hgoes hnot
      rcases hnext hstays hgoes with ⟨hskips, -⟩ | ⟨-, hpc⟩
      · exact absurd hskips hnot
      · exact hpc

/-- A step leaves the program counter `length` bytes further on. -/
def MovesBy (m : Machine) (pad : Keypad) (length : Nat) : Prop :=
  (m.step pad).machine.processor.pc.toNat = m.processor.pc.toNat + length

/-- A skip is always carried out. -/
theorem moves_of_skip {condition : Condition} {wanted : Bool}
    (hfetch : m.processor.opcode? = some o) (hstands : o.StandsFor (.skip condition wanted))
    (pad : Keypad) :
    (m.step pad).result = .ok .next ∧
      m.MovesBy pad
        (if decide ((m.sample pad).processor.holds condition = wanted) then 4 else 2) := by
  have hpc : m.processor.pc.toNat + 2 ≤ 4096 := Memory.le_of_opcode? hfetch
  have hexecute : (m.sample pad).processor.execute m.random (.skip condition wanted) =
      .ok (_, .next) := rfl
  obtain ⟨hmachine, hresult⟩ :=
    step_of_execute hfetch (Opcode.decode?_of_standsFor hstands) hexecute
  refine ⟨hresult, ?_⟩
  rw [MovesBy, hmachine]
  exact Processor.toNat_skipIf (p := (m.sample pad).processor) hpc _

/-- Of two words with opposite conditions exactly one skips. -/
theorem moves_of_opposite (hm : m.processor.opcode? = some o) (hn : n.processor.opcode? = some o')
    (h : o.Opposite o') (hregisters : n.processor.registers = m.processor.registers)
    (pad : Keypad) :
    (m.step pad).result = .ok .next ∧ (n.step pad).result = .ok .next ∧
      (m.MovesBy pad 4 ∧ n.MovesBy pad 2 ∨ m.MovesBy pad 2 ∧ n.MovesBy pad 4) := by
  obtain ⟨condition, hskip, hskip'⟩ := h.exists_condition
  obtain ⟨hresult, hmoves⟩ := moves_of_skip hm hskip pad
  obtain ⟨hresult', hmoves'⟩ := moves_of_skip hn hskip' pad
  have hsame :
      (n.sample pad).processor.holds condition = (m.sample pad).processor.holds condition :=
    Processor.holds_withKeys hregisters (.ofKeypad pad) condition
  rw [hsame] at hmoves'
  refine ⟨hresult, hresult', ?_⟩
  cases hholds : (m.sample pad).processor.holds condition with
  | true =>
    rw [hholds] at hmoves hmoves'
    exact .inl ⟨hmoves, hmoves'⟩
  | false =>
    rw [hholds] at hmoves hmoves'
    exact .inr ⟨hmoves, hmoves'⟩

/-- The flow of a step that is carried out and the program counter after it, for every word of the
instruction table. The flow is a jump exactly for returns, jumps and calls: a return goes to the
last live address, which it takes off the stack, the others to the address of the word, to which
family B adds register 0 without a bound. It is a wait exactly where a key is asked for and none is
down, and then the program counter stays. Every other word goes on behind itself, or behind the word
after it if it is a skip whose condition holds. Of two words that ask the same and skip on opposite
answers, exactly one skips, whatever the machine they are fetched by. -/
theorem control_flow_of_step (m : Machine) (pad : Keypad) :
    (∀ flow, (m.step pad).result = .ok flow → ∃ o, m.processor.opcode? = some o ∧
      (o.InTable → m.Course o pad flow (m.step pad).machine)) ∧
    ∀ (n : Machine) (o o' : Opcode), m.processor.opcode? = some o →
      n.processor.opcode? = some o' → o.Opposite o' →
      n.processor.registers = m.processor.registers →
      (m.step pad).result = .ok .next ∧ (n.step pad).result = .ok .next ∧
        (m.MovesBy pad 4 ∧ n.MovesBy pad 2 ∨ m.MovesBy pad 2 ∧ n.MovesBy pad 4) :=
  ⟨fun _ h => course_of_step h,
    fun _ _ _ hm hn h hregisters => moves_of_opposite hm hn h hregisters pad⟩

/-- On registers of zeros, the word that skips if register 5 holds zero does, and its opposite goes
on with the next word. -/
theorem opposite_words_part (pad : Keypad) :
    ((loaded [0x35, 0x00]).step pad).result = .ok .next ∧
    ((loaded [0x45, 0x00]).step pad).result = .ok .next ∧
    ((loaded [0x35, 0x00]).step pad).machine.processor.pc.toNat = 0x204 ∧
    ((loaded [0x45, 0x00]).step pad).machine.processor.pc.toNat = 0x202 := by
  have hfetch := first_opcode?_loaded [0x35, 0x00] (by decide) (by decide)
  have hother := first_opcode?_loaded [0x45, 0x00] (by decide) (by decide)
  have hpc : (loaded [0x35, 0x00]).processor.pc = 512 := pc_loaded (by decide)
  have hpc' : (loaded [0x45, 0x00]).processor.pc = 512 := pc_loaded (by decide)
  have hregisters : (loaded [0x45, 0x00]).processor.registers = Registers.zero ∧
      (loaded [0x35, 0x00]).processor.registers = Registers.zero := by
    rw [loaded_of_fits (by decide), loaded_of_fits (by decide)]
    exact ⟨rfl, rfl⟩
  have hzero : (loaded [0x35, 0x00]).processor.v 5 = 0 := by
    rw [Processor.v, hregisters.2]
    decide
  obtain ⟨hcourse, hopposite⟩ := control_flow_of_step (loaded [0x35, 0x00]) pad
  obtain ⟨hresult, hresult', hmoves⟩ := hopposite _ _ _ hfetch hother
    (.byte (by decide) (by decide) (by decide) (by decide)) (hregisters.1.trans hregisters.2.symm)
  obtain ⟨o, hfetched, hcourse⟩ := hcourse .next hresult
  obtain rfl := Option.some.inj (hfetch.symm.trans hfetched)
  have hskips := (hcourse (by decide)).skipped nofun nofun (.byte (by decide) hzero)
  refine ⟨hresult, hresult', by rw [hskips, hpc]; rfl, ?_⟩
  rcases hmoves with ⟨-, hnext⟩ | ⟨hnext, -⟩
  · rw [hnext, hpc']
    rfl
  · rw [MovesBy, hskips] at hnext
    omega

end Machine

end ChipEight

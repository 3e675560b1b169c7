import ChipEight.Proofs.InPlace.Execute

/-!
# Words and steps in place

The tables of words in place have for each word the arm of the instruction that it decodes to: its
name, and work that ends as the instruction does. Skips need a program counter that was fetched
from: only then do two more bytes fit its word. So the step in place ends as the step of the machine
does: the same flow and the image of the same machine, or the same fault and the image of the
machine with its keys sampled.
-/
namespace ChipEight

namespace InPlace

open Work

section Skip

/-- After a skip the program counter is at most four bytes on, so it does not leave its word. -/
theorem skip_moved (m : Machine) (hpc : m.processor.pc.toNat + 2 ≤ 4096) {skipped : Bool}
    {condition : Condition} {wanted : Bool}
    (h : skipped = decide (m.processor.holds condition = wanted)) :
    (do forwardIf skipped; return .next : Work Flow).run (moved m) =
      answer m (.skip condition wanted) := by
  rw [run_bind, moved, forwardIf_image m (by omega), andThen_done, h]
  rfl

theorem keyDown_moved (m : Machine) (x : Register) :
    (keyDown (m.processor.v x)).run (moved m) =
      .done (m.processor.holds (.keyDown x)) (moved m) := by
  have hkeys : (moved m).keys = m.processor.keys := rfl
  rw [keyDown, run_bind, run_state, andThen_done, hkeys, Processor.holds]
  cases Key.ofNat (m.processor.v x).toNat with
  | ok key => rfl
  | error e => rfl

end Skip

section Dispatch

variable {m : Machine} {o : Opcode} {i : Instruction}

/-- A lookup in the tables changes nothing, and what it finds has the name of an instruction and
ends as the instruction does. -/
def Finds (m : Machine) (o : Opcode) (lookup : Work Arm) (i : Option Instruction) : Prop :=
  ∃ work, lookup.run (moved m) = .done ⟨i.map Instruction.mnemonic, work⟩ (moved m) ∧
    work.run (moved m) = reply m o i

theorem finds_named {work : Work Flow} (h : work.run (moved m) = answer m i) :
    Finds m o (named i.mnemonic work) (some i) := ⟨work, rfl, h⟩

theorem finds_unknown : Finds m o (unknown m.processor.pc o) none := ⟨_, rfl, rfl⟩

theorem finds_operate (m : Machine) (o : Opcode) :
    Finds m o (operate m.processor.pc o)
      (o.operation?.map fun operation => .operate operation o.x o.y) := by
  have hresult (operation : Operation) := writeResult_moved m o.x
    (operation.apply (m.processor.v o.x) (m.processor.v o.y))
  unfold Finds
  rw [operate, run_bind, register_moved, andThen_done, run_bind, register_moved, andThen_done]
  fun_cases Opcode.operation? o with
  | case1 h =>
    simp only [h]
    exact finds_named (i := .operate .copy o.x o.y) (hresult .copy)
  | case2 h =>
    simp only [h]
    exact finds_named (i := .operate .or o.x o.y) (hresult .or)
  | case3 h =>
    simp only [h]
    exact finds_named (i := .operate .and o.x o.y) (hresult .and)
  | case4 h =>
    simp only [h]
    exact finds_named (i := .operate .xor o.x o.y) (hresult .xor)
  | case5 h =>
    simp only [h]
    exact finds_named (i := .operate .add o.x o.y) (hresult .add)
  | case6 h =>
    simp only [h]
    exact finds_named (i := .operate .subtract o.x o.y) (hresult .subtract)
  | case7 h =>
    simp only [h]
    exact finds_named (i := .operate .shiftRight o.x o.y) (hresult .shiftRight)
  | case8 h =>
    simp only [h]
    exact finds_named (i := .operate .subtractFrom o.x o.y) (hresult .subtractFrom)
  | case9 h =>
    simp only [h]
    exact finds_named (i := .operate .shiftLeft o.x o.y) (hresult .shiftLeft)
  | case10 =>
    split <;> first | contradiction | exact finds_unknown

/-- Family 0 fixes register `x` by a check of its own. -/
theorem word_eq_iff (hf : o.family.val = 0x0) {w : UInt16} (hw : w.toNat < 256) :
    o.word = w ↔ o.x.val = 0 ∧ o.nn.toNat = w.toNat := by
  have hbytes := o.toNat_eq_bytes
  have hx := o.x.isLt
  have hnn := o.nn.toNat_lt
  rw [← UInt16.toNat_inj]
  show o.toNat = w.toNat ↔ o.x.val = 0 ∧ _
  omega

theorem finds_system (m : Machine) (hf : o.family.val = 0x0) :
    Finds m o (miscellaneous m.processor.pc o) o.system? := by
  have hclear := word_eq_iff hf (w := 0x00E0) (by decide)
  have hret := word_eq_iff hf (w := 0x00EE) (by decide)
  fun_cases Opcode.system? o with
  | case1 h =>
    obtain ⟨hx, hnn⟩ := hclear.mp h
    have hnn : o.nn.toNat = 0xE0 := hnn
    simp only [miscellaneous, hf, hnn, if_pos hx]
    exact finds_named (i := .clear) rfl
  | case2 _ h =>
    obtain ⟨hx, hnn⟩ := hret.mp h
    have hnn : o.nn.toNat = 0xEE := hnn
    simp only [miscellaneous, hf, hnn, if_pos hx]
    exact finds_named (i := .ret) (leave_moved m)
  | case3 hnotClear hnotRet =>
    rw [miscellaneous, hf]
    split
    case h_1 hnn =>
      rw [if_neg fun hx => hnotClear (hclear.mpr ⟨hx, hnn⟩)]
      exact finds_unknown
    case h_2 hnn =>
      rw [if_neg fun hx => hnotRet (hret.mpr ⟨hx, hnn⟩)]
      exact finds_unknown
    all_goals first | contradiction | exact finds_unknown

theorem finds_keySkip (hpc : m.processor.pc.toNat + 2 ≤ 4096) (hf : o.family.val = 0xE) :
    Finds m o (miscellaneous m.processor.pc o) o.keySkip? := by
  fun_cases Opcode.keySkip? o with
  | case1 h =>
    simp only [miscellaneous, hf, h]
    refine finds_named (i := .skip (.keyDown o.x) true) ?_
    rw [run_bind, register_moved, andThen_done, run_bind, keyDown_moved, andThen_done]
    exact skip_moved m hpc (by simp)
  | case2 h =>
    simp only [miscellaneous, hf, h]
    refine finds_named (i := .skip (.keyDown o.x) false) ?_
    rw [run_bind, register_moved, andThen_done, run_bind, keyDown_moved, andThen_done]
    exact skip_moved m hpc (by simp)
  | case3 hdown hup =>
    rw [miscellaneous, hf]
    split <;> first | contradiction | exact finds_unknown

theorem finds_transfer (m : Machine) (hf : o.family.val = 0xF) :
    Finds m o (miscellaneous m.processor.pc o) o.transfer? := by
  fun_cases Opcode.transfer? o with
  | case1 h =>
    simp only [miscellaneous, hf, h]
    refine finds_named (i := .readDelay o.x) ?_
    rw [run_bind, run_state, andThen_done, run_bind, setRegister_moved]
    rfl
  | case2 h =>
    simp only [miscellaneous, hf, h]
    exact finds_named (i := .awaitKey o.x) (awaitKey_moved m o.x)
  | case3 h =>
    simp only [miscellaneous, hf, h]
    refine finds_named (i := .setDelay o.x) ?_
    rw [run_bind, register_moved]
    rfl
  | case4 h =>
    simp only [miscellaneous, hf, h]
    refine finds_named (i := .setSound o.x) ?_
    rw [run_bind, register_moved]
    rfl
  | case5 h =>
    simp only [miscellaneous, hf, h]
    refine finds_named (i := .addIndex o.x) ?_
    rw [run_bind, register_moved]
    rfl
  | case6 h =>
    simp only [miscellaneous, hf, h]
    refine finds_named (i := .glyph o.x) ?_
    rw [run_bind, register_moved]
    exact glyph_moved m o.x
  | case7 h =>
    simp only [miscellaneous, hf, h]
    exact finds_named (i := .decimal o.x) (storeDecimal_moved m o.x)
  | case8 h =>
    simp only [miscellaneous, hf, h]
    exact finds_named (i := .store o.x) (storeRegisters_moved m o.x)
  | case9 h =>
    simp only [miscellaneous, hf, h]
    exact finds_named (i := .load o.x) (loadRegisters_moved m o.x)
  | case10 hread hawait hdelay hsound hadd hglyph hdecimal hstore hload =>
    rw [miscellaneous, hf]
    split <;> first | contradiction | exact finds_unknown

/-- The tables know the words that decode, and no others. -/
theorem finds_arm (hpc : m.processor.pc.toNat + 2 ≤ 4096) (o : Opcode) :
    Finds m o (arm m.processor.pc o) o.decode? := by
  fun_cases Opcode.decode? o with
  | case1 h =>
    simp only [arm, h]
    exact finds_system m h
  | case2 h =>
    simp only [arm, h]
    exact finds_named (i := .jump o.nnn) rfl
  | case3 h =>
    simp only [arm, h]
    exact finds_named (i := .call o.nnn) (enter_moved m o)
  | case4 h =>
    simp only [arm, h]
    refine finds_named (i := .skip (.holdsByte o.x o.nn) true) ?_
    rw [run_bind, register_moved]
    exact skip_moved m hpc (by simp [Processor.holds])
  | case5 h =>
    simp only [arm, h]
    refine finds_named (i := .skip (.holdsByte o.x o.nn) false) ?_
    rw [run_bind, register_moved]
    exact skip_moved m hpc (by simp [Processor.holds])
  | case6 h =>
    simp only [arm, h]
    refine finds_named (i := .skip (.sameByte o.x o.y) true) ?_
    rw [run_bind, register_moved, andThen_done, run_bind, register_moved]
    exact skip_moved m hpc (by simp [Processor.holds])
  | case7 h =>
    simp only [arm, h]
    refine finds_named (i := .setByte o.x o.nn) ?_
    rw [run_bind, setRegister_moved]
    rfl
  | case8 h =>
    simp only [arm, h]
    refine finds_named (i := .addByte o.x o.nn) ?_
    rw [run_bind, register_moved, andThen_done, run_bind, setRegister_moved]
    rfl
  | case9 h =>
    simp only [arm, h]
    exact finds_operate m o
  | case10 h hn =>
    simp only [arm, h]
    rw [if_neg (not_not.mpr hn)]
    refine finds_named (i := .skip (.sameByte o.x o.y) false) ?_
    rw [run_bind, register_moved, andThen_done, run_bind, register_moved]
    exact skip_moved m hpc (by simp [Processor.holds])
  | case11 h hn =>
    simp only [arm, h]
    rw [if_pos hn]
    exact finds_unknown
  | case12 h =>
    simp only [arm, h]
    exact finds_named (i := .setIndex o.nnn) rfl
  | case13 h =>
    simp only [arm, h]
    exact finds_named (i := .jumpFrom o.nnn) (jumpFrom_moved m o.nnn)
  | case14 h =>
    simp only [arm, h]
    exact finds_named (i := .random o.x o.nn) (random_moved m o.x o.nn)
  | case15 h =>
    simp only [arm, h]
    exact finds_named (i := .draw o.x o.y o.n) (draw_moved m o)
  | case16 h =>
    simp only [arm, h]
    exact finds_keySkip hpc h
  | case17 h0 h1 h2 h3 h4 h5 h6 h7 h8 h9 hA hB hC hD hE =>
    have hf : o.family.val = 0xF := by
      have hlt := o.family.isLt
      simp only [imp_false] at *
      omega
    simp only [arm, hf]
    exact finds_transfer m hf

/-- Every word in place ends as its instruction does. -/
theorem execute_moved (hpc : m.processor.pc.toNat + 2 ≤ 4096) (o : Opcode) :
    (execute m.processor.pc o).run (moved m) = reply m o o.decode? := by
  obtain ⟨work, hfound, hwork⟩ := finds_arm hpc o
  rw [execute, run_bind, hfound, andThen_done, hwork]

end Dispatch

end InPlace

/-- What a machine does with a fetched word. -/
def Machine.carried (m : Machine) (o : Opcode) : Machine.Outcome :=
  match o.decode? with
  | none => .faulted m (.unknownOpcode o) []
  | some i => m.perform o i

namespace InPlace

open Work

theorem fetch?_inPlace (m : Machine) : fetch? m.inPlace = m.processor.opcode? := by
  rw [fetch?, Processor.opcode?]
  by_cases h : m.processor.pc.toNat + 2 ≤ 4096
  · have hpc : m.inPlace.pc.toNat + 2 ≤ 4096 := h
    have hhigh := m.processor.memory.byte_eq_getElem (i := m.processor.pc.toNat) (by omega)
    have hlow := m.processor.memory.byte_eq_getElem (i := m.processor.pc.toNat + 1) (by omega)
    rw [dif_pos hpc, Memory.opcode?_of_le _ h, hhigh, hlow]
    rfl
  · have hpc : ¬ m.inPlace.pc.toNat + 2 ≤ 4096 := h
    have hnone : m.processor.memory.opcode? m.processor.pc.toNat = none := if_neg h
    rw [dif_neg hpc, hnone]

/-- Putting the program counter back undoes all that a faulting instruction did. -/
theorem onFault_reply (m : Machine) (o : Opcode) :
    ((reply m o o.decode?).onFault fun s => { s with pc := m.processor.pc }) =
      (m.carried o).inPlace := by
  rw [Machine.carried]
  cases o.decode? with
  | none => rfl
  | some i =>
    change (answer m i).onFault _ = (m.perform o i).inPlace
    simp only [answer, Machine.perform]
    cases m.processor.execute m.random i with
    | error cause => rfl
    | ok next => rfl

theorem carryOut_inPlace (m : Machine) {o : Opcode} (h : m.processor.opcode? = some o) :
    (carryOut m.processor.pc o).run m.inPlace = (m.carried o).inPlace := by
  have hpc : m.processor.pc.toNat + 2 ≤ 4096 := Memory.le_of_opcode? h
  have hforward : forward.run m.inPlace = .done () (moved m) := forward_image m (by omega)
  rw [carryOut, run_bind, hforward, andThen_done, ← onFault_reply, ← execute_moved hpc]

/-- The simulation: from the image of a machine, the step in place neither crashes nor ends
anywhere but in the image of what the step of the machine gives. -/
theorem step_inPlace (m : Machine) (pad : Keypad) :
    (step pad).run m.inPlace = (m.step pad).inPlace := by
  have hfetch : fetch? { m.inPlace with keys := .ofKeypad pad } =
      (m.sample pad).processor.opcode? := fetch?_inPlace (m.sample pad)
  rw [step, run_bind, run_change, andThen_done, run_bind, run_state, andThen_done]
  cases h : (m.sample pad).processor.opcode? with
  | none =>
    simp only [hfetch, h, Machine.step]
    rfl
  | some o =>
    simp only [hfetch, h, Machine.step]
    exact carryOut_inPlace (m.sample pad) h

end InPlace

end ChipEight

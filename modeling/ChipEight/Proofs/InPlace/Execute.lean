import ChipEight.Proofs.InPlace.Sprite

/-!
# Instructions in place do what instructions do

Carried out on the image of a machine whose program counter has moved on, an instruction ends as
`Processor.execute` says. Nothing is changed before the last check of an instruction, so a fault
leaves the image with nothing but the moved program counter.
-/
namespace ChipEight.InPlace

open Work

/-- The image of a machine whose program counter has moved on. -/
def moved (m : Machine) : State := image m m.processor.advance

/-- The end of an instruction in place. -/
def answer (m : Machine) (i : Instruction) : Result Flow :=
  match m.processor.execute m.random i with
  | .error cause => .fault ⟨m.processor.pc, cause⟩ (moved m)
  | .ok (p, flow) => .done flow (image { m with random := m.random.skip i.draws } p)

/-- The end of a word in place, in the instruction table or not. -/
def reply (m : Machine) (o : Opcode) : Option Instruction → Result Flow
  | some i => answer m i
  | none => .fault ⟨m.processor.pc, .unknownOpcode o⟩ (moved m)

theorem register_moved (m : Machine) (x : Register) :
    (register x).run (moved m) = .done (m.processor.v x) (moved m) :=
  register_image m m.processor.advance x

theorem setRegister_moved (m : Machine) (x : Register) (b : UInt8) :
    (setRegister x b).run (moved m) =
      .done () (image m (m.processor.advance.setRegister x b)) :=
  setRegister_image m m.processor.advance x b

theorem run_within_of_reaches {m : Machine} {length : Nat} (h : m.processor.reaches length = true)
    (s : State) :
    (within m.processor.pc m.processor.index.toNat length).run s = .done () s := by
  have hle : m.processor.index.toNat + length ≤ Memory.size := of_decide_eq_true h
  have hsum : m.processor.index.toNat + length < 4294967296 := Nat.lt_of_le_of_lt hle (by decide)
  rw [within, run_bind, run_sumIndex hsum, andThen_done, if_neg (Nat.not_lt.mpr hle), run_pure]

theorem run_within_of_not_reaches {m : Machine} {length : Nat}
    (h : ¬ m.processor.reaches length = true) (hlength : length ≤ 16) (s : State) :
    (within m.processor.pc m.processor.index.toNat length).run s =
      .fault ⟨m.processor.pc, m.processor.beyondMemory⟩ s := by
  have hlt : Memory.size < m.processor.index.toNat + length :=
    Nat.not_le.mp fun hle => h (decide_eq_true hle)
  have hindex := m.processor.index.toNat_lt
  rw [within, run_bind, run_sumIndex (by omega), andThen_done, if_pos hlt, run_raise]
  rfl

section Stack

theorem toNat_depth (s : CallStack) : (UInt8.ofNat s.depth).toNat = s.depth := by
  have h := s.depth.isLt
  rw [UInt8.toNat_ofNat']
  change s.depth.val % 256 = s.depth.val
  omega

theorem enter_moved (m : Machine) (o : Opcode) :
    (enter m.processor.pc o).run (moved m) = answer m (.call o.nnn) := by
  have hsp : (moved m).stackPointer.toNat = m.processor.stack.depth :=
    toNat_depth m.processor.stack
  rw [enter, run_bind, run_state, andThen_done, hsp]
  by_cases hd : m.processor.stack.depth.val < 16
  · have hroom : ¬ CallStack.capacity ≤ m.processor.stack.depth.val := Nat.not_le.mpr hd
    have hcount : (moved m).stackPointer.toNat + (1 : UInt8).toNat < 256 := by
      rw [hsp]
      change m.processor.stack.depth.val + 1 < 256
      omega
    have hnext : (moved m).stackPointer + 1 = UInt8.ofNat (m.processor.stack.depth + 1) := by
      rw [UInt8.ofNat_add]
      rfl
    have hpush : m.processor.stack.push? (m.processor.pc + 2) = some _ := dif_pos hd
    rw [answer, Processor.execute, Processor.enter, hpush, if_neg hroom, run_bind, run_put _ hd,
      andThen_done, run_bind, run_change, andThen_done, run_bind, run_sumByte hcount, andThen_done,
      hnext]
    rfl
  · have hfull : CallStack.capacity ≤ m.processor.stack.depth.val := Nat.not_lt.mp hd
    have hpush : m.processor.stack.push? (m.processor.pc + 2) = none := dif_neg hd
    rw [answer, Processor.execute, Processor.enter, hpush, if_pos hfull, run_raise]

theorem leave_moved (m : Machine) :
    (leave m.processor.pc).run (moved m) = answer m .ret := by
  have hsp : (moved m).stackPointer = UInt8.ofNat m.processor.stack.depth := rfl
  have hslots : (moved m).stack = m.processor.stack.slots := rfl
  rw [leave, run_bind, run_state, andThen_done]
  cases hs : m.processor.stack with
  | mk slots depth =>
    obtain ⟨d, hd⟩ := depth
    rw [hs] at hsp hslots
    cases d with
    | zero =>
      have hzero : (moved m).stackPointer = 0 := hsp
      rw [answer, Processor.execute, Processor.leave, hs, if_pos hzero, run_raise]
      rfl
    | succ d =>
      have hlt : d < 16 := Nat.lt_of_succ_lt_succ hd
      have hne : ¬ (moved m).stackPointer = 0 := by
        rw [hsp]
        intro h
        have hzero := congrArg UInt8.toNat h
        rw [UInt8.toNat_ofNat'] at hzero
        change (d + 1) % 256 = 0 at hzero
        omega
      have hdown : (moved m).stackPointer - 1 = UInt8.ofNat d := by
        rw [hsp, UInt8.ofNat_add]
        exact UInt8.add_sub_cancel _ _
      have hindex : (UInt8.ofNat d).toNat = d := by
        rw [UInt8.toNat_ofNat']
        change d % 256 = d
        omega
      have hitem : slots[(UInt8.ofNat d).toNat] = slots.get ⟨d, hlt⟩ := by
        simp only [hindex]
        rfl
      rw [answer, Processor.execute, Processor.leave, hs, if_neg hne, run_bind, run_change,
        andThen_done, hdown, run_bind, hslots, run_item _ (by omega), andThen_done,
        hitem]
      rfl

end Stack

section Registers

theorem writeResult_moved (m : Machine) (x : Register) (r : UInt8 × Option Bool) :
    (writeResult x r).run (moved m) =
      .done .next (image m (m.processor.advance.writeResult x r)) := by
  obtain ⟨result, flag⟩ := r
  cases flag with
  | none =>
    rw [writeResult, run_bind, setRegister_moved, andThen_done]
    rfl
  | some flag =>
    rw [writeResult, run_bind, setRegister_moved, andThen_done, run_bind,
      setRegister_image m _ Register.flag, andThen_done]
    rfl

theorem jumpFrom_moved (m : Machine) (target : Target) :
    (do let a ← register 0
        let pc ← sum (UInt16.ofNat target) a.toUInt16
        goTo pc
        return .jump : Work Flow).run (moved m) = answer m (.jumpFrom target) := by
  have htarget := target.isLt
  have hoffset := (m.processor.v Register.offset).toNat_lt
  have hregister : (register 0).run (moved m) = .done (m.processor.v Register.offset) (moved m) :=
    register_moved m Register.offset
  have hsum : (UInt16.ofNat target).toNat + (m.processor.v Register.offset).toUInt16.toNat <
      65536 := by
    rw [UInt16.toNat_ofNat']
    change _ % 65536 + (m.processor.v Register.offset).toNat < 65536
    omega
  have hpc : UInt16.ofNat target + (m.processor.v Register.offset).toUInt16 =
      UInt16.ofNat (target + (m.processor.v Register.offset).toNat) := by
    rw [UInt16.ofNat_add, UInt16.ofNat_uInt8ToNat]
  rw [run_bind, hregister, andThen_done, run_bind, run_sum hsum, andThen_done, hpc]
  rfl

theorem random_moved (m : Machine) (x : Register) (mask : UInt8) :
    (do let s ← state
        change fun s => { s with random := s.random.skip 1 }
        setRegister x (mask &&& s.random.byte)
        return .next : Work Flow).run (moved m) = answer m (.random x mask) := by
  rw [run_bind, run_state, andThen_done, run_bind, run_change, andThen_done, run_bind]
  change (Work.run _ (moved { m with random := m.random.skip 1 })).andThen _ = _
  rw [setRegister_moved]
  rfl

theorem awaitKey_moved (m : Machine) (x : Register) :
    (awaitKey m.processor.pc x).run (moved m) = answer m (.awaitKey x) := by
  have hkeys : (moved m).keys = m.processor.keys := rfl
  rw [awaitKey, run_bind, run_state, andThen_done, hkeys, answer, Processor.execute,
    Processor.awaitKey]
  cases m.processor.keys.first? with
  | none => rfl
  | some key =>
    rw [run_bind, setRegister_moved, andThen_done]
    rfl

/-- The glyph of the largest digit lies far below the largest word. -/
theorem glyph_moved (m : Machine) (x : Register) :
    (glyph (m.processor.v x)).run (moved m) = answer m (.glyph x) := by
  have hlt := (m.processor.v x).toNat_lt
  have hdigit : (m.processor.v x).toUInt16.toNat = (m.processor.v x).toNat := rfl
  have hproduct : (m.processor.v x).toUInt16.toNat * (UInt16.ofNat Font.height).toNat < 65536 := by
    rw [hdigit]
    change _ * 5 < 65536
    omega
  have hindex : UInt16.ofNat Font.start + (m.processor.v x).toUInt16 * UInt16.ofNat Font.height =
      UInt16.ofNat (Font.start + Font.height * (m.processor.v x).toNat) := by
    rw [UInt16.ofNat_add, UInt16.ofNat_mul, UInt16.mul_comm]
    congr 2
    exact UInt16.toNat_inj.mp (by rw [hdigit, UInt16.toNat_ofNat']; omega)
  have hsum : (UInt16.ofNat Font.start).toNat +
      ((m.processor.v x).toUInt16 * UInt16.ofNat Font.height).toNat < 65536 := by
    rw [UInt16.toNat_mul]
    change 0 + _ % 65536 < 65536
    omega
  rw [glyph, run_bind, run_product hproduct, andThen_done, run_bind, run_sum hsum, andThen_done,
    hindex]
  rfl

end Registers

section Memory

/-- The digit in front needs no remainder: no byte has more than three digits. -/
theorem decimalDigits_eq (b : UInt8) :
    Processor.decimalDigits b = [b / 100 % 10, b / 10 % 10, b % 10] := by
  have hfront : b / 100 % 10 = b / 100 := by
    apply UInt8.toNat_inj.mp
    have hlt := b.toNat_lt
    rw [UInt8.toNat_mod, UInt8.toNat_div]
    change b.toNat / 100 % 10 = b.toNat / 100
    omega
  rw [Processor.decimalDigits, hfront]

theorem storeDecimal_moved (m : Machine) (x : Register) :
    (storeDecimal m.processor.pc x).run (moved m) = answer m (.decimal x) := by
  have hindex : (moved m).index = m.processor.index := rfl
  rw [storeDecimal, run_bind, run_state, andThen_done, hindex, run_bind, answer,
    Processor.execute, Processor.storeDecimal]
  by_cases h : m.processor.reaches 3 = true
  · have hle : m.processor.index.toNat + 3 ≤ 4096 := of_decide_eq_true h
    rw [run_within_of_reaches h, andThen_done, if_pos h, run_bind, register_moved, andThen_done,
      run_bind, moved, setByte_image m _ (by omega), andThen_done, run_bind,
      setByte_image m _ (by omega), andThen_done, run_bind, setByte_image m _ (by omega),
      andThen_done, decimalDigits_eq]
    rfl
  · rw [run_within_of_not_reaches h (by omega), andThen_fault, if_neg h]

theorem storeRegisters_moved (m : Machine) (x : Register) :
    (storeRegisters m.processor.pc x).run (moved m) = answer m (.store x) := by
  have hindex : (moved m).index = m.processor.index := rfl
  have hregisters : (moved m).registers = m.processor.registers := rfl
  have hmemory : (moved m).memory = m.processor.memory.cells := rfl
  rw [storeRegisters, run_bind, run_state, andThen_done, hindex, hregisters, hmemory, run_bind,
    answer, Processor.execute, Processor.storeRegisters]
  by_cases h : m.processor.reaches (x + 1) = true
  · have hle : m.processor.index.toNat + (x + 1) ≤ 4096 := of_decide_eq_true h
    have hlen := m.processor.registers.length_upTo x
    rw [run_within_of_reaches h, andThen_done, if_pos h, run_bind, items_registers, andThen_done,
      run_bind, putItems_memory _ (by omega), andThen_done]
    rfl
  · rw [run_within_of_not_reaches h (by omega), andThen_fault, if_neg h]

theorem loadRegisters_moved (m : Machine) (x : Register) :
    (loadRegisters m.processor.pc x).run (moved m) = answer m (.load x) := by
  have hindex : (moved m).index = m.processor.index := rfl
  have hregisters : (moved m).registers = m.processor.registers := rfl
  have hmemory : (moved m).memory = m.processor.memory.cells := rfl
  rw [loadRegisters, run_bind, run_state, andThen_done, hindex, hregisters, hmemory, run_bind,
    answer, Processor.execute, Processor.loadRegisters]
  by_cases h : m.processor.reaches (x + 1) = true
  · have hle : m.processor.index.toNat + (x + 1) ≤ 4096 := of_decide_eq_true h
    have hlen := m.processor.memory.length_slice m.processor.index.toNat (x + 1)
    rw [run_within_of_reaches h, andThen_done, if_pos h, run_bind, items_memory _ hle,
      andThen_done, run_bind, putItems_registers _ x hlen, andThen_done]
    rfl
  · rw [run_within_of_not_reaches h (by omega), andThen_fault, if_neg h]

end Memory

section Draw

theorem spriteRows_moved (m : Machine) {rows : Nat} (hrows : rows ≤ 15)
    (h : m.processor.index.toNat + rows ≤ 4096) :
    (spriteRows rows).run (moved m) =
      .done (m.processor.memory.slice m.processor.index.toNat rows) (moved m) := by
  have hmemory : (moved m).memory = m.processor.memory.cells := rfl
  have hindex : (moved m).index = m.processor.index := rfl
  have hlen := m.processor.memory.length_slice m.processor.index.toNat rows
  rw [spriteRows, run_bind, run_state, andThen_done, run_bind, hmemory, hindex, items_memory _ h,
    andThen_done, if_neg (by omega), run_pure]

theorem draw_moved (m : Machine) (o : Opcode) :
    (draw m.processor.pc o).run (moved m) = answer m (.draw o.x o.y o.n) := by
  have hn := o.n.isLt
  have hindex : (moved m).index = m.processor.index := rfl
  obtain ⟨sprite, hsprite⟩ : ∃ s, s = m.processor.sprite o.x o.y o.n := ⟨_, rfl⟩
  have hcheck : checkSprite m.processor.pc (m.processor.v o.x).toNat (m.processor.v o.y).toNat
      (m.processor.memory.slice m.processor.index.toNat o.n) =
        forM sprite.pixels (refuse m.processor.pc) := by
    subst hsprite
    exact checkSprite_eq _ (m.processor.sprite o.x o.y o.n)
  have hflip : flipSprite (m.processor.v o.x).toNat (m.processor.v o.y).toNat
      (m.processor.memory.slice m.processor.index.toNat o.n) =
        sprite.pixels.foldlM flip false := by
    subst hsprite
    exact flipSprite_eq (m.processor.sprite o.x o.y o.n)
  rw [draw, run_bind, register_moved, andThen_done, run_bind, register_moved, andThen_done,
    run_bind, run_state, andThen_done, hindex, run_bind, answer, Processor.execute,
    Processor.drawSprite, ← hsprite]
  by_cases h : m.processor.reaches o.n = true
  · have hle : m.processor.index.toNat + o.n ≤ 4096 := of_decide_eq_true h
    rw [run_within_of_reaches h, andThen_done, if_pos h, run_bind,
      spriteRows_moved m (by omega) hle, andThen_done, run_bind, hcheck, hflip, forM_refuse,
      Screen.draw]
    cases hfind : sprite.pixels.find? (¬ ·.OnScreen) with
    | some q => rfl
    | none =>
      have hon : ∀ q ∈ sprite.pixels, q.OnScreen := by
        intro q hq
        simpa using List.find?_eq_none.mp hfind q hq
      rw [andThen_done, run_bind, moved, foldlM_flip m _ hon sprite.nodup_pixels, andThen_done,
        run_bind, setRegister_image m _ Register.flag, andThen_done]
      rfl
  · rw [run_within_of_not_reaches h (by omega), andThen_fault, if_neg h]

end Draw

end ChipEight.InPlace

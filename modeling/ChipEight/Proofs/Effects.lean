import ChipEight.Proofs.Draws

/-!
# What a step may change

For every part of the machine the words that can change it, and what they make of it. A step that is
carried out changes nothing besides, the program counter and the sampled keys apart.
-/
namespace ChipEight

/-- The three bytes from `start` on are the decimal digits of `value`. -/
structure Memory.HoldsDigits (m : Memory) (start value : Nat) : Prop where
  hundreds : m.byte start ≤ 9
  tens : m.byte (start + 1) ≤ 9
  units : m.byte (start + 2) ≤ 9
  sum : 100 * (m.byte start).toNat + 10 * (m.byte (start + 1)).toNat +
    (m.byte (start + 2)).toNat = value

/-- There is one way only to write a number with three digits. -/
theorem Memory.HoldsDigits.eq {m : Memory} {start value : Nat} (h : m.HoldsDigits start value) :
    (m.byte start).toNat = value / 100 ∧ (m.byte (start + 1)).toNat = value / 10 % 10 ∧
      (m.byte (start + 2)).toNat = value % 10 := by
  have hhundreds : (m.byte start).toNat ≤ 9 := UInt8.le_iff_toNat_le.mp h.hundreds
  have htens : (m.byte (start + 1)).toNat ≤ 9 := UInt8.le_iff_toNat_le.mp h.tens
  have hunits : (m.byte (start + 2)).toNat ≤ 9 := UInt8.le_iff_toNat_le.mp h.units
  have hsum := h.sum
  omega

/-- All but the `length` bytes from `start` on are the same in both memories. -/
def Memory.SameOutside (m n : Memory) (start length : Nat) : Prop :=
  ∀ a, a < start ∨ start + length ≤ a → n.byte a = m.byte a

namespace Opcode

/-- The word has register `r` for a destination. -/
def Destination (o : Opcode) (r : Register) : Prop :=
  r = o.x ∧ (o.family.val ∈ [0x6, 0x7, 0x8, 0xC] ∨ o.Transfers 0x07 ∨ o.Transfers 0x0A) ∨
    r ≤ o.x ∧ o.Transfers 0x65

/-- The word writes the flag register, wherever its result goes. -/
def SetsFlag (o : Opcode) : Prop :=
  o.family.val = 0x8 ∧ (4 ≤ o.n.val ∧ o.n.val ≤ 7 ∨ o.n.val = 0xE) ∨ o.family.val = 0xD

variable {o : Opcode} {i : Instruction} {r : Register}

theorem setsFlag_of_digit {operation : Operation} (hfamily : o.family.val = 0x8)
    (hdigit : o.n.val = operation.digit) (h : operation.setsFlag = true) : o.SetsFlag := by
  refine .inl ⟨hfamily, ?_⟩
  rw [hdigit]
  revert h
  cases operation <;> decide

/-- The registers that an instruction writes are destinations of its word or the flag register. -/
theorem writes_of_standsFor (h : o.StandsFor i) (hwrites : i.Writes r) :
    o.Destination r ∨ r = Register.flag ∧ o.SetsFlag := by
  cases i with
  | setByte | addByte | random =>
    obtain ⟨hfamily, rfl, -⟩ := h
    exact .inl (.inl ⟨hwrites, .inl (by simp [hfamily])⟩)
  | readDelay =>
    obtain ⟨hword, rfl⟩ := h
    exact .inl (.inl ⟨hwrites, .inr (.inl hword)⟩)
  | awaitKey =>
    obtain ⟨hword, rfl⟩ := h
    exact .inl (.inl ⟨hwrites, .inr (.inr hword)⟩)
  | load =>
    obtain ⟨hword, rfl⟩ := h
    exact .inl (.inr ⟨hwrites, hword⟩)
  | draw => exact .inr ⟨hwrites, .inr h.1⟩
  | operate =>
    obtain ⟨hfamily, hdigit, rfl, -⟩ := h
    rcases hwrites with hresult | ⟨hsets, hflag⟩
    · exact .inl (.inl ⟨hresult, .inl (by simp [hfamily])⟩)
    · exact .inr ⟨hflag, setsFlag_of_digit hfamily hdigit hsets⟩
  | _ => exact hwrites.elim

end Opcode

namespace Processor

/-- What the word `o` may make of `p`: the parts of `q` that it keeps, and what the others become.
Program counter and sampled keys are left out. -/
structure Effects (p : Processor) (o : Opcode) (q : Processor) : Prop where
  memory : ¬ o.Transfers 0x33 → ¬ o.Transfers 0x55 → q.memory = p.memory
  decimal : o.Transfers 0x33 → q.index = p.index ∧
    q.memory.HoldsDigits p.index.toNat (p.v o.x).toNat ∧
    p.memory.SameOutside q.memory p.index.toNat 3
  store : o.Transfers 0x55 →
    (∀ r ≤ o.x, q.memory.byte (p.index.toNat + r) = p.v r) ∧
    p.memory.SameOutside q.memory p.index.toNat (o.x + 1)
  screen : o.word ≠ 0x00E0 → o.family.val ≠ 0xD → q.screen = p.screen ∧ q.drawn = p.drawn
  stack : o.family.val ≠ 0x2 → o.word ≠ 0x00EE → q.stack = p.stack
  call : o.family.val = 0x2 → q.stack.depth.val = p.stack.depth.val + 1 ∧
    ∀ k : Fin 16, q.stack.slots.get k =
      if p.stack.depth.val = k.val then p.pc + 2 else p.stack.slots.get k
  ret : o.word = 0x00EE →
    p.stack.depth.val = q.stack.depth.val + 1 ∧ q.stack.slots = p.stack.slots
  delay : ¬ o.Transfers 0x15 → q.delay = p.delay
  setDelay : o.Transfers 0x15 → q.delay = p.v o.x
  sound : ¬ o.Transfers 0x18 → q.sound = p.sound
  setSound : o.Transfers 0x18 → q.sound = p.v o.x
  index : ¬ o.MovesIndex → q.index = p.index
  addIndex : o.Transfers 0x1E → q.index.toNat = (p.index.toNat + (p.v o.x).toNat) % 65536
  waiting : ¬ o.Transfers 0x0A → q.waiting = p.waiting
  registers : ∀ r, q.v r ≠ p.v r → o.Destination r ∨ r = Register.flag ∧ o.SetsFlag

variable {p q : Processor} {o : Opcode} {i : Instruction} {flow : Flow} {random : Random.Stream}

theorem digits_of_byte (b : UInt8) :
    b / 100 ≤ 9 ∧ b / 10 % 10 ≤ 9 ∧ b % 10 ≤ 9 ∧
      100 * (b / 100).toNat + 10 * (b / 10 % 10).toNat + (b % 10).toNat = b.toNat := by
  have hb := b.toNat_lt
  have hhundreds : (b / 100).toNat = b.toNat / 100 := UInt8.toNat_div ..
  have htens : (b / 10 % 10).toNat = b.toNat / 10 % 10 := by
    rw [UInt8.toNat_mod, UInt8.toNat_div]
    rfl
  have hunits : (b % 10).toNat = b.toNat % 10 := UInt8.toNat_mod ..
  simp only [UInt8.le_iff_toNat_le, hhundreds, htens, hunits, show (9 : UInt8).toNat = 9 from rfl]
  omega

theorem holdsDigits_store {m : Memory} {start : Nat} (hfits : start + 3 ≤ 4096) (b : UInt8) :
    (m.store start (decimalDigits b)).HoldsDigits start b.toNat := by
  have hbyte : ∀ k, (hk : k < 3) →
      (m.store start (decimalDigits b)).byte (start + k) = (decimalDigits b)[k] :=
    fun k hk => m.byte_store_of_lt hfits hk
  have hhundreds : (m.store start (decimalDigits b)).byte start = b / 100 := hbyte 0 (by omega)
  have htens : (m.store start (decimalDigits b)).byte (start + 1) = b / 10 % 10 :=
    hbyte 1 (by omega)
  have hunits : (m.store start (decimalDigits b)).byte (start + 2) = b % 10 := hbyte 2 (by omega)
  obtain ⟨hh, ht, hu, hsum⟩ := digits_of_byte b
  rw [← hhundreds, ← htens, ← hunits] at hsum
  exact ⟨hhundreds ▸ hh, htens ▸ ht, hunits ▸ hu, hsum⟩

theorem memory_storeDecimal {x : Register} (h : p.storeDecimal x = .ok (q, flow)) :
    q.memory.HoldsDigits p.index.toNat (p.v x).toNat ∧
      p.memory.SameOutside q.memory p.index.toNat 3 := by
  obtain ⟨hreach, hstored⟩ := of_guarded h
  cases hstored
  constructor
  · exact holdsDigits_store (of_decide_eq_true hreach) (p.v x)
  · intro a ha
    exact p.memory.byte_store_of_outside ha

theorem memory_storeRegisters {x : Register} (h : p.storeRegisters x = .ok (q, flow)) :
    (∀ r ≤ x, q.memory.byte (p.index.toNat + r) = p.v r) ∧
      p.memory.SameOutside q.memory p.index.toNat (x + 1) := by
  obtain ⟨hreach, hstored⟩ := of_guarded h
  cases hstored
  have hlength := p.registers.length_upTo x
  have hfits : p.index.toNat + (x + 1) ≤ 4096 := of_decide_eq_true hreach
  constructor
  · intro r hr
    have hlt : r.val < (p.registers.upTo x).length := by
      rw [hlength]
      exact Nat.lt_succ_of_le hr
    exact (p.memory.byte_store_of_lt (by omega) hlt).trans (p.registers.getElem_upTo hlt)
  · intro a ha
    exact p.memory.byte_store_of_outside (by omega)

/-- An instruction has the effects of its word, whatever the keys. -/
theorem effects_execute {keys : KeySet} (hdecode : o.decode? = some i)
    (h : (p.withKeys keys).execute random i = .ok (q, flow)) : p.Effects o q := by
  have hstands := Opcode.standsFor_of_decode? hdecode
  have hleaves := leaves_execute h
  -- what is kept follows from the words that the instruction does not have; for what is set, the
  -- word gives the instruction back, and its execution is opened
  constructor
  case memory =>
    intro hdecimal hstore
    refine hleaves.memory ?_ ?_
    · rintro x rfl
      exact hdecimal hstands.1
    · rintro x rfl
      exact hstore hstands.1
  case decimal =>
    intro hword
    obtain rfl := Opcode.eq_of_standsFor (j := .decimal o.x) hstands ⟨hword, rfl⟩
    exact ⟨hleaves.index rfl, memory_storeDecimal (p := p.withKeys keys) h⟩
  case store =>
    intro hword
    obtain rfl := Opcode.eq_of_standsFor (j := .store o.x) hstands ⟨hword, rfl⟩
    exact memory_storeRegisters (p := p.withKeys keys) h
  case screen =>
    intro hclear hdraw
    have hpaints := hstands.spares.paints hclear hdraw
    exact ⟨hleaves.unpainted hpaints, hleaves.drawn hpaints⟩
  case stack =>
    intro hcall hret
    refine hleaves.stack ?_ ?_
    · rintro target rfl
      exact hcall hstands.1
    · rintro rfl
      exact hret hstands
  case call =>
    intro hfamily
    obtain rfl := Opcode.eq_of_standsFor (j := .call o.nnn) hstands ⟨hfamily, rfl⟩
    obtain ⟨stack, hpush, rfl⟩ := exists_of_enter h
    exact CallStack.slots_push? hpush
  case ret =>
    intro hword
    obtain rfl := Opcode.eq_of_standsFor (j := .ret) hstands hword
    obtain ⟨address, stack, hpop, rfl⟩ := exists_of_leave h
    obtain ⟨hdepth, hslots, -⟩ := CallStack.slots_pop? hpop
    exact ⟨hdepth, hslots⟩
  case delay =>
    intro hword
    refine hleaves.delay ?_
    rintro x rfl
    exact hword hstands.1
  case setDelay =>
    intro hword
    obtain rfl := Opcode.eq_of_standsFor (j := .setDelay o.x) hstands ⟨hword, rfl⟩
    cases h
    rfl
  case sound =>
    intro hword
    refine hleaves.sound ?_
    rintro x rfl
    exact hword hstands.1
  case setSound =>
    intro hword
    obtain rfl := Opcode.eq_of_standsFor (j := .setSound o.x) hstands ⟨hword, rfl⟩
    cases h
    rfl
  case index => exact fun hindex => hleaves.index (hstands.spares.movesIndex hindex)
  case addIndex =>
    intro hword
    obtain rfl := Opcode.eq_of_standsFor (j := .addIndex o.x) hstands ⟨hword, rfl⟩
    cases h
    exact UInt16.toNat_add ..
  case waiting =>
    intro hword
    refine hleaves.waiting ?_
    rintro x rfl
    exact hword hstands.1
  case registers =>
    intro r hchanged
    have hwrites : i.Writes r := by
      by_contra hnot
      exact hchanged (hleaves.registers r hnot)
    exact Opcode.writes_of_standsFor hstands hwrites

end Processor

namespace Machine

variable {m : Machine} {pad : Keypad} {flow : Flow}

/-- A step that is carried out changes of the processor what its word may change, the random stream
only if the word takes a random byte, and the timer clock and the configuration never. -/
theorem step_effects (h : (m.step pad).result = .ok flow) :
    ∃ o, m.processor.opcode? = some o ∧
      m.processor.Effects o (m.step pad).machine.processor ∧
      (o.family.val ≠ 0xC → (m.step pad).machine.random = m.random) ∧
      (m.step pad).machine.clock = m.clock ∧ (m.step pad).machine.config = m.config := by
  have hs := m.stepped pad
  rw [h] at hs
  generalize (m.step pad).machine = n at hs ⊢
  cases hs with
  | @executed o i q flow hfetch hdecode hexecute =>
    refine ⟨o, hfetch, Processor.effects_execute hdecode hexecute, ?_, rfl, rfl⟩
    intro hfamily
    show m.random.skip i.draws = m.random
    rw [(Opcode.standsFor_of_decode? hdecode).spares.draws hfamily]
    rfl

/-- A machine about to store the digits of register 1, which holds 254, at address 768. -/
def aboutToStore : Machine :=
  (((loaded [0x61, 0xFE, 0xA3, 0x00, 0xF1, 0x33]).step fun _ => false).machine.step
    fun _ => false).machine

/-- The three digits are stored, the byte behind them is not touched, and the index register
stays. -/
theorem digits_are_stored :
    ((aboutToStore.step fun _ => true).machine.processor.memory.byte 768).toNat = 2 ∧
    ((aboutToStore.step fun _ => true).machine.processor.memory.byte 769).toNat = 5 ∧
    ((aboutToStore.step fun _ => true).machine.processor.memory.byte 770).toNat = 4 ∧
    (aboutToStore.step fun _ => true).machine.processor.memory.byte 771 = 0 ∧
    (aboutToStore.step fun _ => true).machine.processor.index = 768 := by
  have hstate : (aboutToStore.step fun _ => true).result = .ok .next ∧
      aboutToStore.processor.opcode? = some ⟨0xF133⟩ ∧ aboutToStore.processor.index = 768 ∧
      aboutToStore.processor.v 1 = 254 ∧ aboutToStore.processor.memory.byte 771 = 0 := by
    decide +kernel
  generalize aboutToStore = m at hstate ⊢
  obtain ⟨hresult, hfetch, hindex, hvalue, hbehind⟩ := hstate
  obtain ⟨o, hfetched, heffects, -⟩ := step_effects hresult
  obtain rfl := Option.some.inj (hfetched.symm.trans hfetch)
  have hword : Opcode.Transfers ⟨0xF133⟩ 0x33 := by
    constructor <;> decide
  obtain ⟨hkept, hdigits, houtside⟩ := heffects.decimal hword
  rw [hindex] at hkept hdigits houtside
  rw [show Opcode.x ⟨0xF133⟩ = 1 by decide, hvalue] at hdigits
  obtain ⟨hhundreds, htens, hunits⟩ := hdigits.eq
  exact ⟨hhundreds, htens, hunits, (houtside 771 (by decide)).trans hbehind, hkept⟩

end Machine

end ChipEight

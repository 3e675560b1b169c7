import ChipEight.Proofs.Drawing
import ChipEight.Proofs.Effects

/-!
# Storing registers and loading them back

A block of registers goes to memory and comes back unchanged, and a block that was loaded is stored
where it was without a change to memory. Both ways the index register ends behind the block.
-/
namespace ChipEight

theorem Memory.eq_of_byte {m n : Memory} (h : ∀ a, m.byte a = n.byte a) : m = n := by
  apply Memory.ext
  apply Vector.ext
  intro a ha
  have hbyte := h a
  simpa only [byte, Vector.getElem?_eq_getElem ha, Option.getD_some] using hbyte

namespace Opcode

variable {o : Opcode}

theorem decode?_of_store (h : o.Transfers 0x55) : o.decode? = some (.store o.x) :=
  decode?_of_standsFor ⟨h, rfl⟩

theorem decode?_of_load (h : o.Transfers 0x65) : o.decode? = some (.load o.x) :=
  decode?_of_standsFor ⟨h, rfl⟩

end Opcode

namespace Processor

/-- What `q` is after `p` stored registers 0 to `x`. -/
structure StoresBlock (p q : Processor) (x : Register) : Prop where
  fits : p.index.toNat + (x + 1) ≤ 4096
  block : ∀ r ≤ x, q.memory.byte (p.index.toNat + r) = p.v r
  outside : p.memory.SameOutside q.memory p.index.toNat (x + 1)
  index : q.index.toNat = p.index.toNat + (x + 1)

/-- What `q` is after `p` loaded registers 0 to `x`. -/
structure LoadsBlock (p q : Processor) (x : Register) : Prop where
  fits : p.index.toNat + (x + 1) ≤ 4096
  block : ∀ r ≤ x, q.v r = p.memory.byte (p.index.toNat + r)
  above : ∀ r, x < r → q.v r = p.v r
  memory : q.memory = p.memory
  screen : q.screen = p.screen
  drawn : q.drawn = p.drawn
  index : q.index.toNat = p.index.toNat + (x + 1)

variable {p q : Processor} {x : Register} {flow : Flow} {keys : KeySet}

/-- Memory ends long before the index register wraps around. -/
theorem toNat_indexPast (h : p.index.toNat + (x + 1) ≤ 4096) :
    (p.indexPast x).toNat = p.index.toNat + (x + 1) := by
  have hx := x.isLt
  have hlength : (UInt16.ofNat (x + 1)).toNat = x + 1 := by
    rw [UInt16.toNat_ofNat']
    exact Nat.mod_eq_of_lt (by omega)
  rw [indexPast, UInt16.toNat_add, hlength]
  exact Nat.mod_eq_of_lt (by omega)

theorem storesBlock (h : (p.withKeys keys).storeRegisters x = .ok (q, flow)) :
    p.StoresBlock q x := by
  obtain ⟨hblock, houtside⟩ := memory_storeRegisters h
  obtain ⟨hreach, hstored⟩ := of_guarded h
  cases hstored
  have hfits : p.index.toNat + (x + 1) ≤ 4096 := of_decide_eq_true hreach
  exact ⟨hfits, hblock, houtside, toNat_indexPast hfits⟩

theorem loadsBlock (h : (p.withKeys keys).loadRegisters x = .ok (q, flow)) :
    p.LoadsBlock q x := by
  obtain ⟨hreach, hloaded⟩ := of_guarded h
  cases hloaded
  have hfits : p.index.toNat + (x + 1) ≤ 4096 := of_decide_eq_true hreach
  constructor
  case fits => exact hfits
  case block =>
    intro r hr
    have hlt : r.val < x + 1 := Nat.lt_succ_of_le hr
    show (p.registers.replaceUpTo x (p.memory.slice p.index.toNat (x + 1))).get r = _
    rw [Registers.get_replaceUpTo, if_pos hr, Memory.getD_slice, if_pos hlt]
  case above => exact fun r hr => v_loaded_of_lt _ (Fin.not_le.mpr hr)
  case memory => rfl
  case screen => rfl
  case drawn => rfl
  case index => exact toNat_indexPast hfits

/-- Storing what is there already changes no byte. -/
theorem StoresBlock.memory_eq (h : p.StoresBlock q x)
    (hsame : ∀ r ≤ x, p.v r = p.memory.byte (p.index.toNat + r)) : q.memory = p.memory := by
  apply Memory.eq_of_byte
  intro a
  by_cases hin : p.index.toNat ≤ a ∧ a < p.index.toNat + (x + 1)
  · obtain ⟨r, rfl⟩ := Nat.exists_eq_add_of_le hin.1
    have hr : r ≤ x.val := by omega
    have hx := x.isLt
    have hstored := h.block ⟨r, by omega⟩ hr
    rw [hsame ⟨r, by omega⟩ hr] at hstored
    exact hstored
  · exact h.outside a (by omega)

end Processor

namespace Machine

variable {m n : Machine} {o o' : Opcode} {pad : Keypad} {flow : Flow}

theorem storesBlock_of_step (hfetch : m.processor.opcode? = some o) (hword : o.Transfers 0x55)
    (h : (m.step pad).result = .ok flow) :
    m.processor.StoresBlock (m.step pad).machine.processor o.x :=
  Processor.storesBlock (execute_of_step hfetch (Opcode.decode?_of_store hword) h)

theorem loadsBlock_of_step (hfetch : m.processor.opcode? = some o) (hword : o.Transfers 0x65)
    (h : (m.step pad).result = .ok flow) :
    m.processor.LoadsBlock (m.step pad).machine.processor o.x :=
  Processor.loadsBlock (execute_of_step hfetch (Opcode.decode?_of_load hword) h)

/-- Nothing but the end of memory stops a block. -/
theorem step_of_fits (hfetch : m.processor.opcode? = some o)
    (hword : o.Transfers 0x55 ∨ o.Transfers 0x65)
    (hfits : m.processor.index.toNat + (o.x + 1) ≤ 4096) (pad : Keypad) :
    (m.step pad).result = .ok .next := by
  have hreaches : (m.sample pad).processor.reaches (o.x + 1) = true := decide_eq_true hfits
  rcases hword with hstore | hload
  · have hexecute : (m.sample pad).processor.execute m.random (.store o.x) = .ok (_, .next) :=
      if_pos hreaches
    exact (step_of_execute hfetch (Opcode.decode?_of_store hstore) hexecute).2
  · have hexecute : (m.sample pad).processor.execute m.random (.load o.x) = .ok (_, .next) :=
      if_pos hreaches
    exact (step_of_execute hfetch (Opcode.decode?_of_load hload) hexecute).2

/-- Machine `m` moves a block of registers, and `n`, which may be a later state of it, is about to
move a block of as many registers at the same place, where memory holds what the first step left.
If the first step stores and the second loads, the second is carried out too: the registers are
those that were stored, the registers above, memory and the screen stay as they are, and both steps
leave the index register behind the block. If the first step loads, and the registers are still
those that it left, a second step that stores is carried out and changes no byte of memory. -/
theorem register_block_round_trip (hfetch : m.processor.opcode? = some o)
    (hstep : (m.step pad).result = .ok flow) (hfetch' : n.processor.opcode? = some o')
    (hx : o'.x = o.x) (hindex : n.processor.index = m.processor.index)
    (hblock : ∀ r ≤ o.x, n.processor.memory.byte (m.processor.index.toNat + r) =
      (m.step pad).machine.processor.memory.byte (m.processor.index.toNat + r)) (pad' : Keypad) :
    (o.Transfers 0x55 → o'.Transfers 0x65 →
      (n.step pad').result = .ok .next ∧
      (∀ r ≤ o.x, (n.step pad').machine.processor.v r = m.processor.v r) ∧
      (∀ r, o.x < r → (n.step pad').machine.processor.v r = n.processor.v r) ∧
      (n.step pad').machine.processor.memory = n.processor.memory ∧
      (n.step pad').machine.processor.screen = n.processor.screen ∧
      (n.step pad').machine.processor.drawn = n.processor.drawn ∧
      (m.step pad).machine.processor.index.toNat = m.processor.index.toNat + (o.x + 1) ∧
      (n.step pad').machine.processor.index.toNat = m.processor.index.toNat + (o.x + 1)) ∧
    (o.Transfers 0x65 → o'.Transfers 0x55 →
      (∀ r ≤ o.x, n.processor.v r = (m.step pad).machine.processor.v r) →
      (n.step pad').result = .ok .next ∧
      (n.step pad').machine.processor.memory = n.processor.memory ∧
      (m.step pad).machine.processor.index.toNat = m.processor.index.toNat + (o.x + 1) ∧
      (n.step pad').machine.processor.index.toNat = m.processor.index.toNat + (o.x + 1)) := by
  constructor
  · intro hword hword'
    have hstores := storesBlock_of_step hfetch hword hstep
    have hfits := hstores.fits
    rw [← hindex, ← hx] at hfits
    have hresult := step_of_fits hfetch' (.inr hword') hfits pad'
    have hloads := loadsBlock_of_step hfetch' hword' hresult
    rw [hx] at hloads
    refine ⟨hresult, ?_, hloads.above, hloads.memory, hloads.screen, hloads.drawn, hstores.index,
      hindex ▸ hloads.index⟩
    intro r hr
    rw [hloads.block r hr, hindex, hblock r hr, hstores.block r hr]
  · intro hword hword' hregisters
    have hloads := loadsBlock_of_step hfetch hword hstep
    have hfits := hloads.fits
    rw [← hindex, ← hx] at hfits
    have hresult := step_of_fits hfetch' (.inl hword') hfits pad'
    have hstores := storesBlock_of_step hfetch' hword' hresult
    rw [hx] at hstores
    refine ⟨hresult, hstores.memory_eq ?_, hloads.index, hindex ▸ hstores.index⟩
    intro r hr
    rw [hregisters r hr, hloads.block r hr, hindex, hblock r hr, hloads.memory]

section Shuttle

/-- Stores registers 0 and 1, points the index register at them again and loads them. -/
def shuttle : List UInt8 := [0xF1, 0x55, 0xA3, 0x00, 0xF1, 0x65]

/-- The machine at an address of the program, the block at address 768. -/
def shuttling (pc : UInt16) (v0 : UInt8) (memory : Memory) : Machine :=
  ⟨{ Processor.initial with
      pc, index := 768, registers := Registers.zero.write Register.offset v0
      memory := memory.store 512 shuttle },
    .timers, .ofSeed 0, .default⟩

theorem v_shuttling (pc : UInt16) (v0 : UInt8) (memory : Memory) (r : Register) :
    (shuttling pc v0 memory).processor.v r = (Registers.zero.write Register.offset v0).get r := rfl

/-- Memory after registers 0 and 1 were stored, of which the first held 254. -/
def blockInMemory : Memory := Memory.initial.store 768 [254, 0]

theorem byte_shuttling {r : Register} (hr : r.val ≤ 1) (pc : UInt16) (v0 : UInt8) :
    (shuttling pc v0 blockInMemory).processor.memory.byte (768 + r.val) =
      (Registers.zero.write Register.offset 254).get r := by
  have houtside : 768 + r.val < 512 ∨ 512 + shuttle.length ≤ 768 + r.val :=
    .inr (Nat.le_add_right_of_le (by decide))
  have hlt : r.val < [(254 : UInt8), 0].length := Nat.lt_succ_of_le hr
  have hbyte : blockInMemory.byte (768 + r.val) = [254, 0][r.val] :=
    Memory.initial.byte_store_of_lt (by decide) hlt
  have hvalue : ∀ r : Register, ∀ hlt : r.val < [(254 : UInt8), 0].length,
      [(254 : UInt8), 0][r.val] = (Registers.zero.write Register.offset 254).get r := by
    decide
  exact (Memory.byte_store_of_outside _ houtside).trans (hbyte.trans (hvalue r hlt))

/-- Register 0 comes back from memory, and storing it once more leaves memory as it is. -/
theorem block_there_and_back :
    ((shuttling 516 0 blockInMemory).step fun _ => true).machine.processor.v Register.offset = 254 ∧
    ((shuttling 512 254 blockInMemory).step fun _ => true).machine.processor.memory =
      blockInMemory.store 512 shuttle := by
  have hstore : ∀ v0 memory,
      (shuttling 512 v0 memory).processor.opcode? = some (.ofBytes 0xF1 0x55) :=
    fun _ memory => opcode?_store memory (by decide) (i := 0) (by decide)
  have hload : (shuttling 516 0 blockInMemory).processor.opcode? = some (.ofBytes 0xF1 0x65) :=
    opcode?_store _ (by decide) (i := 4) (by decide)
  have hwords : (Opcode.ofBytes 0xF1 0x55).Transfers 0x55 ∧
      (Opcode.ofBytes 0xF1 0x65).Transfers 0x65 := by
    constructor <;> constructor <;> decide
  have hlength : (Opcode.ofBytes 0xF1 0x65).x = (Opcode.ofBytes 0xF1 0x55).x := by decide
  -- the first machine stores the block that the second one loads
  have hstored : ((shuttling 512 254 .initial).step fun _ => true).result = .ok .next :=
    step_of_fits (hstore _ _) (.inl hwords.1) (by decide) _
  have hblock := (storesBlock_of_step (hstore _ _) hwords.1 hstored).block
  obtain ⟨hthere, -⟩ := register_block_round_trip (n := shuttling 516 0 blockInMemory) (hstore _ _)
    hstored hload hlength rfl (fun r hr => (byte_shuttling hr _ _).trans (hblock r hr).symm)
    fun _ => true
  obtain ⟨hloaded, hregisters, -, hmemory, -⟩ := hthere hwords.1 hwords.2
  -- the third machine stores it again
  obtain ⟨-, hback⟩ := register_block_round_trip (n := shuttling 512 254 blockInMemory) hload
    hloaded (hstore _ _) hlength.symm rfl (fun r _ => congrArg (Memory.byte · _) hmemory.symm)
    fun _ => true
  obtain ⟨-, hsame, -⟩ := hback hwords.2 hwords.1 fun r hr => by
    rw [hregisters r (hlength ▸ hr), v_shuttling, v_shuttling]
  exact ⟨hregisters Register.offset (Fin.zero_le _), hsame⟩

end Shuttle

end Machine

end ChipEight

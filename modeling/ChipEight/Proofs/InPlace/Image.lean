import ChipEight.InPlace.Request

/-!
# A machine and its words and arrays

Every machine has an image in place. Its stack pointer is the depth of the call stack, so it is at
most sixteen. On images the accesses of registers, memory and sums are those of the processor, and
so is copying between memory and registers item by item; each access is given the bound that its
check in front of it establishes.
-/
namespace ChipEight

def Machine.inPlace (m : Machine) : InPlace.State where
  pc := m.processor.pc
  index := m.processor.index
  registers := m.processor.registers
  stackPointer := UInt8.ofNat m.processor.stack.depth
  stack := m.processor.stack.slots
  delay := m.processor.delay
  sound := m.processor.sound
  keys := m.processor.keys
  waiting := m.processor.waiting
  drawn := m.processor.drawn
  memory := m.processor.memory.cells
  display := m.processor.screen.pixels
  clock := m.clock
  random := m.random
  config := m.config

/-- The end of a step in place. -/
def Machine.Outcome.inPlace (o : Machine.Outcome) : InPlace.Result Flow :=
  match o.result with
  | .ok flow => .done flow o.machine.inPlace
  | .error fault => .fault fault o.machine.inPlace

namespace InPlace

/-- The image of a machine with another processor. -/
def image (m : Machine) (p : Processor) : State := { m with processor := p : Machine }.inPlace

variable {α β : Type} {n : Nat}

namespace Work

@[simp] theorem run_pure (a : α) (s : State) : (pure a : Work α).run s = .done a s := rfl

@[simp] theorem run_bind (w : Work α) (k : α → Work β) (s : State) :
    (w >>= k).run s = (w.run s).andThen k := rfl

@[simp] theorem andThen_done (a : α) (s : State) (k : α → Work β) :
    (Result.done a s).andThen k = (k a).run s := rfl

@[simp] theorem andThen_fault (f : Fault) (s : State) (k : α → Work β) :
    (Result.fault f s).andThen k = .fault f s := rfl

@[simp] theorem run_state (s : State) : state.run s = .done s s := rfl

@[simp] theorem run_change (f : State → State) (s : State) :
    (change f).run s = .done () (f s) := rfl

@[simp] theorem run_raise (f : Fault) (s : State) : (raise f : Work α).run s = .fault f s := rfl

theorem run_item (v : Vector α n) {i : Nat} (h : i < n) (s : State) :
    (item v i).run s = .done v[i] s := by
  rw [item, dif_pos h, run_pure]

theorem run_put (v : Vector α n) {i : Nat} (h : i < n) (a : α) (s : State) :
    (put v i a).run s = .done (v.set i a) s := by
  rw [put, dif_pos h, run_pure]

theorem run_items (v : Vector α n) {start length : Nat} (h : start + length ≤ n) (s : State) :
    (items v start length).run s = .done ((v.toList.drop start).take length) s := by
  rw [items, if_pos h, run_pure]

theorem run_sum {a b : UInt16} (h : a.toNat + b.toNat < 65536) (s : State) :
    (sum a b).run s = .done (a + b) s := by
  rw [sum, if_pos h, run_pure]

theorem run_product {a b : UInt16} (h : a.toNat * b.toNat < 65536) (s : State) :
    (product a b).run s = .done (a * b) s := by
  rw [product, if_pos h, run_pure]

theorem run_sumByte {a b : UInt8} (h : a.toNat + b.toNat < 256) (s : State) :
    (sumByte a b).run s = .done (a + b) s := by
  rw [sumByte, if_pos h, run_pure]

theorem run_sumIndex {a b : Nat} (h : a + b < 4294967296) (s : State) :
    (sumIndex a b).run s = .done (a + b) s := by
  rw [sumIndex, if_pos h, run_pure]

end Work

open Work

theorem register_image (m : Machine) (p : Processor) (x : Register) :
    (register x).run (image m p) = .done (p.v x) (image m p) := by
  rw [register, run_bind, run_state, andThen_done, run_item _ x.isLt]
  rfl

theorem setRegister_image (m : Machine) (p : Processor) (x : Register) (b : UInt8) :
    (setRegister x b).run (image m p) = .done () (image m (p.setRegister x b)) := by
  rw [setRegister, run_bind, run_state, andThen_done, run_bind, run_put _ x.isLt, andThen_done,
    run_change]
  rfl

/-- Moving on from a word that lies in memory. -/
theorem forward_image (m : Machine) {p : Processor} (h : p.pc.toNat + 2 < 65536) :
    forward.run (image m p) = .done () (image m p.advance) := by
  rw [forward, run_bind, run_state, andThen_done, run_bind, run_sum h, andThen_done, run_change]
  rfl

theorem forwardIf_image (m : Machine) {p : Processor} (h : p.pc.toNat + 4 < 65536)
    (skipped : Bool) :
    (forwardIf skipped).run (image m p.advance) = .done () (image m (p.skipIf skipped)) := by
  cases skipped with
  | false => rfl
  | true =>
    have hpc : p.advance.pc.toNat + 2 < 65536 := by
      simp only [Processor.advance, UInt16.toNat_add]
      change (p.pc.toNat + 2) % 65536 + 2 < 65536
      omega
    have htwice : p.advance.advance = p.skipIf true := by
      simp only [Processor.advance, Processor.skipIf, if_true, UInt16.add_assoc]
      rfl
    rw [forwardIf, if_pos rfl, forward_image m hpc, htwice]

end InPlace

theorem Memory.byte_eq_getElem (m : Memory) {i : Nat} (h : i < 4096) : m.byte i = m.cells[i] := by
  simp [byte, h]

theorem Memory.slice_eq (m : Memory) {start length : Nat} (h : start + length ≤ 4096) :
    (m.cells.toList.drop start).take length = m.slice start length := by
  apply List.ext_getElem
  · simp only [slice, List.length_take, List.length_drop, Vector.length_toList, List.length_map,
      List.length_range]
    omega
  · intro i _ hi
    have hlen : i < length := by simpa [slice] using hi
    simp only [slice, List.getElem_take, List.getElem_drop, List.getElem_map, List.getElem_range,
      Vector.getElem_toList]
    exact (m.byte_eq_getElem (by omega)).symm

theorem Memory.length_slice (m : Memory) (start length : Nat) :
    (m.slice start length).length = length := by
  simp [Memory.slice]

namespace InPlace

open Work

theorem setByte_image (m : Machine) (p : Processor) {a : Nat} (h : a < 4096) (b : UInt8) :
    (setByte a b).run (image m p) =
      .done () (image m { p with memory := p.memory.write a b }) := by
  have hset : p.memory.cells.set a b h = (p.memory.write a b).cells := by
    apply Vector.ext
    intro i hi
    simp only [Memory.write, Vector.getElem_set, Vector.getElem_setIfInBounds]
  rw [setByte, run_bind, run_state, andThen_done, run_bind, run_put _ h, andThen_done, run_change]
  change Result.done () { image m p with memory := p.memory.cells.set a b h } = _
  rw [hset]
  rfl

theorem items_memory (p : Memory) {start length : Nat} (h : start + length ≤ 4096) (s : State) :
    (items p.cells start length).run s = .done (p.slice start length) s := by
  rw [run_items _ h, p.slice_eq h]

/-- Writing a block in place is storing it. -/
theorem putItems_memory (p : Memory) {start : Nat} {bytes : List UInt8}
    (h : start + bytes.length ≤ 4096) (s : State) :
    (putItems p.cells start bytes).run s = .done (p.store start bytes).cells s := by
  rw [putItems, if_pos h, run_pure]
  refine congrArg (Result.done · s) (Vector.ext fun i hi => ?_)
  have hget : p.cells.get ⟨i, hi⟩ = p.byte i := (p.byte_eq_getElem hi).symm
  rw [Vector.getElem_ofFn, ← (p.store start bytes).byte_eq_getElem hi, Memory.byte_store, hget]
  show (if start ≤ i then bytes.getD (i - start) (p.byte i) else p.byte i) = _
  by_cases hs : start ≤ i
  · by_cases he : i < start + bytes.length
    · have hsub : i - start < bytes.length := by omega
      rw [if_pos hs, if_pos ⟨hs, he, hi⟩]
      simp [hsub]
    · have hsub : bytes.length ≤ i - start := by omega
      rw [if_pos hs, if_neg (fun h => he h.2.1)]
      simp [hsub]
  · rw [if_neg hs, if_neg (fun h => hs h.1)]

theorem items_registers (v : Registers) (x : Register) (s : State) :
    (items v 0 (x + 1)).run s = .done (v.upTo x) s := by
  rw [run_items _ (by have := x.isLt; omega)]
  rfl

/-- Writing registers from the first on replaces the block up to the last one written. -/
theorem putItems_registers (v : Registers) (x : Register) {bytes : List UInt8}
    (h : bytes.length = x + 1) (s : State) :
    (putItems v 0 bytes).run s = .done (v.replaceUpTo x bytes) s := by
  have hx := x.isLt
  rw [putItems, if_pos (by omega), run_pure]
  refine congrArg (Result.done · s) (Vector.ext fun i hi => ?_)
  have hget := v.get_replaceUpTo x ⟨i, hi⟩ bytes
  change (v.replaceUpTo x bytes)[i] = _ at hget
  rw [Vector.getElem_ofFn, hget]
  by_cases hle : i ≤ x.val
  · have hlt : i < bytes.length := by omega
    simp [Fin.le_def, hle, hlt]
  · have hge : bytes.length ≤ i := by omega
    simp [Fin.le_def, hle, hge]

end InPlace

end ChipEight

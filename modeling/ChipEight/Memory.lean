import ChipEight.Opcode

/-!
# Memory

The machine has 4096 bytes. Programs start at address 512; the bytes below hold the glyphs of the
sixteen digits, five rows of four pixels each. Reading outside memory gives zero and writing there
does nothing, so the checks that raise faults stand with the instructions.
-/
namespace ChipEight

@[ext]
structure Memory where
  cells : Vector UInt8 4096
deriving DecidableEq

namespace Font

def start : Nat := 0

/-- The rows of a glyph, one byte each. -/
def height : Nat := 5

def glyphs : List UInt8 := [
  0xF0, 0x90, 0x90, 0x90, 0xF0,
  0x20, 0x60, 0x20, 0x20, 0x70,
  0xF0, 0x10, 0xF0, 0x80, 0xF0,
  0xF0, 0x10, 0xF0, 0x10, 0xF0,
  0x90, 0x90, 0xF0, 0x10, 0x10,
  0xF0, 0x80, 0xF0, 0x10, 0xF0,
  0xF0, 0x80, 0xF0, 0x90, 0xF0,
  0xF0, 0x10, 0x20, 0x40, 0x40,
  0xF0, 0x90, 0xF0, 0x90, 0xF0,
  0xF0, 0x90, 0xF0, 0x10, 0xF0,
  0xF0, 0x90, 0xF0, 0x90, 0x90,
  0xE0, 0x90, 0xE0, 0x90, 0xE0,
  0xF0, 0x80, 0x80, 0x80, 0xF0,
  0xE0, 0x90, 0x90, 0x90, 0xE0,
  0xF0, 0x80, 0xF0, 0x80, 0xF0,
  0xF0, 0x80, 0xF0, 0x80, 0x80]

/-- Every digit has its glyph. -/
theorem length_glyphs : glyphs.length = 16 * height := rfl

end Font

namespace Memory

def size : Nat := 4096

def programStart : Nat := 512

def programCapacity : Nat := size - programStart

def zero : Memory := ⟨Vector.replicate 4096 0⟩

def byte (m : Memory) (address : Nat) : UInt8 := m.cells[address]?.getD 0

def write (m : Memory) (address : Nat) (b : UInt8) : Memory := ⟨m.cells.setIfInBounds address b⟩

def store (m : Memory) (start : Nat) : List UInt8 → Memory
  | [] => m
  | b :: rest => (m.write start b).store (start + 1) rest

def slice (m : Memory) (start length : Nat) : List UInt8 :=
  (List.range length).map fun i => m.byte (start + i)

/-- The instruction word at an address; its two bytes must both lie in memory. -/
def opcode? (m : Memory) (address : Nat) : Option Opcode :=
  if address + 2 ≤ size then some (.ofBytes (m.byte address) (m.byte (address + 1))) else none

def line (m : Memory) (address : Nat) : String :=
  Text.Hex.fixed 4 address ++ ": " ++ Text.Hex.fixed 2 (m.byte address).toNat ++
    Text.Hex.fixed 2 (m.byte (address + 1)).toNat

/-- A listing of the words in the first `count` program bytes, half words left out. -/
def listing (m : Memory) (count : Nat) : List String :=
  (List.range (min (count / 2) (programCapacity / 2))).map fun k => m.line (programStart + 2 * k)

theorem opcode?_of_le (m : Memory) {a : Nat} (h : a + 2 ≤ 4096) :
    m.opcode? a = some (.ofBytes (m.byte a) (m.byte (a + 1))) := if_pos h

theorem le_of_opcode? {m : Memory} {a : Nat} {o : Opcode} (h : m.opcode? a = some o) :
    a + 2 ≤ 4096 := by
  by_cases hle : a + 2 ≤ 4096
  · exact hle
  · have hnone : m.opcode? a = none := if_neg hle
    rw [hnone] at h
    cases h

theorem byte_write (m : Memory) (a i : Nat) (b : UInt8) :
    (m.write a b).byte i = if a = i ∧ i < size then b else m.byte i := by
  simp only [byte, write, size, Vector.getElem?_setIfInBounds]
  by_cases h : a = i
  · subst h
    by_cases hi : a < 4096 <;> simp [hi]
  · simp [h]

/-- Storing decides the bytes it covers and no others. -/
theorem byte_store (m : Memory) (start i : Nat) (bytes : List UInt8) :
    (m.store start bytes).byte i =
      if start ≤ i ∧ i < start + bytes.length ∧ i < size then bytes.getD (i - start) 0
      else m.byte i := by
  induction bytes generalizing m start with
  | nil => simp [store]; omega
  | cons b rest ih =>
    rw [store, ih, byte_write]
    by_cases he : start = i
    · subst he
      have hn : ¬ start + 1 ≤ start := by omega
      simp [hn]
    · by_cases hs : start + 1 ≤ i
      · have hsub : i - start = (i - (start + 1)) + 1 := by omega
        have hle : start ≤ i := by omega
        simp only [hs, hle, he, true_and, false_and, if_false, List.length_cons, hsub,
          List.getD_cons_succ]
        have : i < start + 1 + rest.length ↔ i < start + (rest.length + 1) := by omega
        simp only [this]
      · have hn : ¬ start ≤ i := by omega
        simp [hs, hn, he]

theorem byte_store_of_lt (m : Memory) {start k : Nat} {bytes : List UInt8}
    (hfits : start + bytes.length ≤ 4096) (hk : k < bytes.length) :
    (m.store start bytes).byte (start + k) = bytes[k] := by
  have hin : start ≤ start + k ∧ start + k < start + bytes.length ∧ start + k < size := by
    have hsize : size = 4096 := rfl
    omega
  rw [byte_store, if_pos hin, Nat.add_sub_cancel_left]
  simp [hk]

theorem byte_store_of_outside (m : Memory) {start i : Nat} {bytes : List UInt8}
    (h : i < start ∨ start + bytes.length ≤ i) : (m.store start bytes).byte i = m.byte i := by
  rw [byte_store, if_neg (by omega)]

/-- Memory before a program is loaded: the glyphs and nothing else. -/
def initial : Memory := zero.store Font.start Font.glyphs

/-- Behind the glyphs memory is zero. -/
theorem byte_initial {a : Nat} (h : 80 ≤ a) : initial.byte a = 0 := by
  have hout : a < Font.start ∨ Font.start + Font.glyphs.length ≤ a := .inr h
  rw [initial, byte_store_of_outside _ hout, byte, zero, Vector.getElem?_replicate]
  split <;> rfl

end Memory

end ChipEight

import ChipEight.Text.Hex

/-!
# Instruction words

An instruction is a sixteen-bit word, read from memory high byte first. Its four hexadecimal digits
are the family and the operands `x`, `y` and `n`; the last two and the last three digits together
are the byte `nn` and the address `nnn`.
-/
namespace ChipEight

@[ext]
structure Opcode where
  word : UInt16
deriving DecidableEq

namespace Opcode

/-- The word of two bytes, high byte first. -/
def ofBytes (high low : UInt8) : Opcode := ⟨UInt16.ofNat (256 * high.toNat + low.toNat)⟩

def toNat (o : Opcode) : Nat := o.word.toNat

/-- The first digit, which names the instruction family. -/
def family (o : Opcode) : Fin 16 := Text.Hex.last (o.toNat / 4096)

def x (o : Opcode) : Fin 16 := Text.Hex.last (o.toNat / 256)

def y (o : Opcode) : Fin 16 := Text.Hex.last (o.toNat / 16)

def n (o : Opcode) : Fin 16 := Text.Hex.last o.toNat

def nn (o : Opcode) : UInt8 := UInt8.ofNat o.toNat

def nnn (o : Opcode) : Fin 4096 := Fin.ofNat 4096 o.toNat

def text (o : Opcode) : String := Text.Hex.fixed 4 o.toNat

theorem toNat_lt (o : Opcode) : o.toNat < 65536 := o.word.toNat_lt

/-- The digits of a word determine it. -/
theorem toNat_eq_digits (o : Opcode) :
    o.toNat = 4096 * o.family + 256 * o.x + 16 * o.y + o.n := by
  have h := o.toNat_lt
  simp only [family, x, y, n, Text.Hex.last]
  omega

theorem toNat_nn (o : Opcode) : o.nn.toNat = 16 * o.y + o.n := by
  have h := o.toNat_lt
  have hnn : o.nn.toNat = o.toNat % 256 := UInt8.toNat_ofNat'
  rw [hnn]
  simp only [y, n, Text.Hex.last]
  omega

theorem toNat_eq_bytes (o : Opcode) : o.toNat = 4096 * o.family + 256 * o.x + o.nn.toNat := by
  rw [toNat_eq_digits, toNat_nn]
  omega

end Opcode

end ChipEight

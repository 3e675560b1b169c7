import ChipEight.Opcode
import ChipEight.Registers

/-!
# Instructions

What the machine can be told to do. The operands are those of the instruction word: registers,
immediate bytes and twelve-bit addresses. The conditional skips come in pairs that differ only in
the answer they wait for, so one constructor holds a condition and that answer.
-/
namespace ChipEight

/-- A twelve-bit address, as an instruction word holds it. -/
abbrev Target := Fin 4096

/-- What a conditional skip asks. -/
inductive Condition
  | holdsByte (x : Register) (byte : UInt8)
  | sameByte (x y : Register)
  | keyDown (x : Register)
deriving DecidableEq

/-- The operations on two registers, of which the first receives the result. -/
inductive Operation
  | copy
  | or
  | and
  | xor
  | add
  | subtract
  | shiftRight
  | subtractFrom
  | shiftLeft
deriving DecidableEq

/-- Result and flag of an operation. Sums, differences and doubled values are taken modulo 256; the
flag is the carry, the absence of a borrow, or the bit that a shift drops. -/
def Operation.apply (a b : UInt8) : Operation → UInt8 × Option Bool
  | .copy => (b, none)
  | .or => (a ||| b, none)
  | .and => (a &&& b, none)
  | .xor => (a ^^^ b, none)
  | .add => (a + b, some (256 ≤ a.toNat + b.toNat))
  | .subtract => (a - b, some (b ≤ a))
  | .shiftRight => (a / 2, some (a % 2 = 1))
  | .subtractFrom => (b - a, some (a ≤ b))
  | .shiftLeft => (a + a, some (128 ≤ a))

inductive Instruction
  | clear
  | ret
  | jump (target : Target)
  | call (target : Target)
  /-- Skip the next instruction when the condition has the wanted answer. -/
  | skip (condition : Condition) (wanted : Bool)
  | setByte (x : Register) (byte : UInt8)
  /-- Add a byte modulo 256, leaving the flag alone. -/
  | addByte (x : Register) (byte : UInt8)
  | operate (operation : Operation) (x y : Register)
  | setIndex (target : Target)
  /-- Continue at an address plus register 0. -/
  | jumpFrom (target : Target)
  | random (x : Register) (mask : UInt8)
  /-- Draw a sprite of `rows` rows at the point in registers `x` and `y`. -/
  | draw (x y : Register) (rows : Fin 16)
  | readDelay (x : Register)
  | awaitKey (x : Register)
  | setDelay (x : Register)
  | setSound (x : Register)
  | addIndex (x : Register)
  | glyph (x : Register)
  | decimal (x : Register)
  | store (x : Register)
  | load (x : Register)
deriving DecidableEq

namespace Instruction

def mnemonic : Instruction → String
  | .clear => "CLS"
  | .ret => "RET"
  | .jump _ => "JP"
  | .call _ => "CALL"
  | .skip (.holdsByte ..) wanted | .skip (.sameByte ..) wanted => if wanted then "SE" else "SNE"
  | .skip (.keyDown _) wanted => if wanted then "SKP" else "SKNP"
  | .setByte .. => "LD"
  | .addByte .. => "ADD"
  | .operate .copy .. => "LD"
  | .operate .or .. => "OR"
  | .operate .and .. => "AND"
  | .operate .xor .. => "XOR"
  | .operate .add .. => "ADD"
  | .operate .subtract .. => "SUB"
  | .operate .shiftRight .. => "SHR"
  | .operate .subtractFrom .. => "SUBN"
  | .operate .shiftLeft .. => "SHL"
  | .setIndex _ => "LD I"
  | .jumpFrom _ => "JP V0"
  | .random .. => "RND"
  | .draw .. => "DRW"
  | .readDelay _ | .setDelay _ => "LD DT"
  | .awaitKey _ => "LD K"
  | .setSound _ => "LD ST"
  | .addIndex _ => "ADD I"
  | .glyph _ => "LD F"
  | .decimal _ => "LD B"
  | .store _ | .load _ => "LD [I]"

def draws : Instruction → Nat
  | .random .. => 1
  | _ => 0

end Instruction

end ChipEight

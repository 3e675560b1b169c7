import ChipEight.Instruction.Basic

/-!
# Decoding

The instruction that a word stands for, family by family. Words outside the table decode to none.
Family 5 looks at its first three digits only; every other family fixes all its digits.
-/
namespace ChipEight.Opcode

/-- Family 0 holds two whole words. -/
def system? (o : Opcode) : Option Instruction :=
  if o.word = 0x00E0 then some .clear
  else if o.word = 0x00EE then some .ret
  else none

/-- Family 8 selects an operation by its last digit. -/
def operation? (o : Opcode) : Option Operation :=
  match o.n.val with
  | 0x0 => some .copy
  | 0x1 => some .or
  | 0x2 => some .and
  | 0x3 => some .xor
  | 0x4 => some .add
  | 0x5 => some .subtract
  | 0x6 => some .shiftRight
  | 0x7 => some .subtractFrom
  | 0xE => some .shiftLeft
  | _ => none

def keySkip? (o : Opcode) : Option Instruction :=
  match o.nn.toNat with
  | 0x9E => some (.skip (.keyDown o.x) true)
  | 0xA1 => some (.skip (.keyDown o.x) false)
  | _ => none

/-- Family F moves between a register and the timers, the keypad and memory. -/
def transfer? (o : Opcode) : Option Instruction :=
  match o.nn.toNat with
  | 0x07 => some (.readDelay o.x)
  | 0x0A => some (.awaitKey o.x)
  | 0x15 => some (.setDelay o.x)
  | 0x18 => some (.setSound o.x)
  | 0x1E => some (.addIndex o.x)
  | 0x29 => some (.glyph o.x)
  | 0x33 => some (.decimal o.x)
  | 0x55 => some (.store o.x)
  | 0x65 => some (.load o.x)
  | _ => none

/-- The instruction of a word, or none outside the instruction table. -/
def decode? (o : Opcode) : Option Instruction :=
  match o.family.val with
  | 0x0 => o.system?
  | 0x1 => some (.jump o.nnn)
  | 0x2 => some (.call o.nnn)
  | 0x3 => some (.skip (.holdsByte o.x o.nn) true)
  | 0x4 => some (.skip (.holdsByte o.x o.nn) false)
  | 0x5 => some (.skip (.sameByte o.x o.y) true)
  | 0x6 => some (.setByte o.x o.nn)
  | 0x7 => some (.addByte o.x o.nn)
  | 0x8 => o.operation?.map fun operation => .operate operation o.x o.y
  | 0x9 => if o.n.val = 0 then some (.skip (.sameByte o.x o.y) false) else none
  | 0xA => some (.setIndex o.nnn)
  | 0xB => some (.jumpFrom o.nnn)
  | 0xC => some (.random o.x o.nn)
  | 0xD => some (.draw o.x o.y o.n)
  | 0xE => o.keySkip?
  | _ => o.transfer?

end ChipEight.Opcode

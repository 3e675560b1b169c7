import ChipEight.Fault
import ChipEight.Instruction.Decode
import ChipEight.Processor.Basic
import ChipEight.Random

/-!
# Executing an instruction

`Processor.execute` carries out one instruction of a processor whose program counter is still at
that instruction, and says how the program goes on. Every check comes before the first change: a
cause is returned without a state. An instruction that takes a random byte reads it from the stream;
the stream itself is moved on by the machine.
-/
namespace ChipEight

/-- How a program goes on after an instruction. -/
inductive Flow
  /-- With the next instruction, or the one after. -/
  | next
  /-- At an address that the instruction chose. -/
  | jump
  /-- With the next instruction, the screen drawn. -/
  | draw
  /-- With the next instruction, the sound timer loaded. -/
  | sound
  /-- With the same instruction, until a key is down. -/
  | awaitKey
deriving DecidableEq

namespace Processor

def advance (p : Processor) : Processor := { p with pc := p.pc + 2 }

/-- The program counter past the instruction, and past the following one if `skipped`. -/
def skipIf (p : Processor) (skipped : Bool) : Processor :=
  { p with pc := if skipped then p.pc + 4 else p.pc + 2 }

def setRegister (p : Processor) (x : Register) (b : UInt8) : Processor :=
  { p with registers := p.registers.write x b }

/-- Writes a result, then its flag: when both go to the flag register, the flag stays. -/
def writeResult (p : Processor) (x : Register) : UInt8 × Option Bool → Processor
  | (result, none) => p.setRegister x result
  | (result, some flag) => { p with registers := (p.registers.write x result).setFlag flag }

/-- The answer to the question of a conditional skip. Numbers above 15 name no key, and no key that
could be down. -/
def holds (p : Processor) : Condition → Bool
  | .holdsByte x byte => p.v x = byte
  | .sameByte x y => p.v x = p.v y
  | .keyDown x =>
    match Key.ofNat (p.v x).toNat with
    | .ok key => p.keys.contains key
    | .error .outOfRange => false

/-- Whether `length` bytes from the index register on lie in memory. -/
def reaches (p : Processor) (length : Nat) : Bool := p.index.toNat + length ≤ Memory.size

/-- The cause of an access through the index register that leaves memory. -/
def beyondMemory (p : Processor) : Fault.Cause := .beyondMemory p.index.toNat

/-- The sprite of `rows` bytes at the index register, placed at the point in registers `x` and
`y`. -/
def sprite (p : Processor) (x y : Register) (rows : Nat) : Sprite :=
  ⟨(p.v x).toNat, (p.v y).toNat, p.memory.slice p.index.toNat rows⟩

/-- Draws a sprite; the flag register tells whether a lit pixel went off. -/
def drawSprite (p : Processor) (x y : Register) (rows : Nat) :
    Except Fault.Cause (Processor × Flow) :=
  if p.reaches rows then
    match p.screen.draw (p.sprite x y rows) with
    | .error pixel => .error (.displayOutOfBounds pixel.x pixel.y)
    | .ok (screen, erased) =>
      .ok ({ p.advance with
        screen, drawn := true, registers := p.registers.setFlag erased }, .draw)
  else .error p.beyondMemory

/-- Loads the least key that is down, or stays at the instruction and waits for one. -/
def awaitKey (p : Processor) (x : Register) : Processor × Flow :=
  match p.keys.first? with
  | some key => ({ p.advance.setRegister x (UInt8.ofNat key) with waiting := false }, .next)
  | none => ({ p with waiting := true }, .awaitKey)

def decimalDigits (b : UInt8) : List UInt8 := [b / 100, b / 10 % 10, b % 10]

/-- Stores the decimal digits of a register at the index register. -/
def storeDecimal (p : Processor) (x : Register) : Except Fault.Cause (Processor × Flow) :=
  if p.reaches 3 then
    .ok ({ p.advance with
      memory := p.memory.store p.index.toNat (decimalDigits (p.v x)) }, .next)
  else .error p.beyondMemory

/-- The index register past a block of registers 0 to `x`. -/
def indexPast (p : Processor) (x : Register) : UInt16 := p.index + UInt16.ofNat (x + 1)

/-- Stores registers 0 to `x` at the index register, which is left past them. -/
def storeRegisters (p : Processor) (x : Register) : Except Fault.Cause (Processor × Flow) :=
  if p.reaches (x + 1) then
    .ok ({ p.advance with
      memory := p.memory.store p.index.toNat (p.registers.upTo x), index := p.indexPast x }, .next)
  else .error p.beyondMemory

/-- Loads registers 0 to `x` from the index register, which is left past them. -/
def loadRegisters (p : Processor) (x : Register) : Except Fault.Cause (Processor × Flow) :=
  if p.reaches (x + 1) then
    .ok ({ p.advance with
      registers := p.registers.replaceUpTo x (p.memory.slice p.index.toNat (x + 1))
      index := p.indexPast x }, .next)
  else .error p.beyondMemory

/-- Enters a subroutine; the return address is that of the following instruction. -/
def enter (p : Processor) (target : Target) : Except Fault.Cause (Processor × Flow) :=
  match p.stack.push? (p.pc + 2) with
  | some stack => .ok ({ p with stack, pc := UInt16.ofNat target }, .jump)
  | none => .error .stackOverflow

def leave (p : Processor) : Except Fault.Cause (Processor × Flow) :=
  match p.stack.pop? with
  | some (address, stack) => .ok ({ p with stack, pc := address }, .jump)
  | none => .error .stackUnderflow

def execute (p : Processor) (random : Random.Stream) :
    Instruction → Except Fault.Cause (Processor × Flow)
  | .clear => .ok (p.advance.clearScreen, .draw)
  | .ret => p.leave
  | .jump target => .ok ({ p with pc := UInt16.ofNat target }, .jump)
  | .call target => p.enter target
  | .skip condition wanted => .ok (p.skipIf (p.holds condition = wanted), .next)
  | .setByte x byte => .ok (p.advance.setRegister x byte, .next)
  | .addByte x byte => .ok (p.advance.setRegister x (p.v x + byte), .next)
  | .operate operation x y =>
    .ok (p.advance.writeResult x (operation.apply (p.v x) (p.v y)), .next)
  | .setIndex target => .ok ({ p.advance with index := UInt16.ofNat target }, .next)
  | .jumpFrom target => .ok ({ p with pc := UInt16.ofNat (target + (p.v .offset).toNat) }, .jump)
  | .random x mask => .ok (p.advance.setRegister x (mask &&& random.byte), .next)
  | .draw x y rows => p.drawSprite x y rows
  | .readDelay x => .ok (p.advance.setRegister x p.delay, .next)
  | .awaitKey x => .ok (p.awaitKey x)
  | .setDelay x => .ok ({ p.advance with delay := p.v x }, .next)
  | .setSound x => .ok ({ p.advance with sound := p.v x }, .sound)
  | .addIndex x => .ok ({ p.advance with index := p.index + (p.v x).toUInt16 }, .next)
  | .glyph x =>
    .ok ({ p.advance with index := UInt16.ofNat (Font.start + Font.height * (p.v x).toNat) }, .next)
  | .decimal x => p.storeDecimal x
  | .store x => p.storeRegisters x
  | .load x => p.loadRegisters x

end Processor

end ChipEight

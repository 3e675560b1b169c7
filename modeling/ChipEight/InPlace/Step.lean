import ChipEight.InPlace.Work

/-!
# Instructions in place

The program counter moves on before an instruction is looked at, and every instruction changes
registers, memory and screen one after another. Each one checks its operands by itself and raises
its fault where the check stands; only the step that carries it out puts the program counter back.
-/
namespace ChipEight.InPlace

open Work

/-- Moves the program counter on by one instruction. -/
def forward : Work Unit := do
  let s ← state
  let pc ← sum s.pc 2
  change fun s => { s with pc }

/-- Moves on once more when the next instruction is to be skipped. -/
def forwardIf (skipped : Bool) : Work Unit := if skipped then forward else pure ()

def goTo (pc : UInt16) : Work Unit := change fun s => { s with pc }

def register (x : Nat) : Work UInt8 := do
  let s ← state
  item s.registers x

def setRegister (x : Nat) (b : UInt8) : Work Unit := do
  let s ← state
  let registers ← put s.registers x b
  change fun s => { s with registers }

def setByte (address : Nat) (b : UInt8) : Work Unit := do
  let s ← state
  let memory ← put s.memory address b
  change fun s => { s with memory }

/-- Refuses an access that leaves memory. -/
def within (pc : UInt16) (start length : Nat) : Work Unit := do
  let stop ← sumIndex start length
  if Memory.size < stop then raise ⟨pc, .beyondMemory start⟩ else pure ()

/-- What the tables have for a word: the name that its instruction is traced by, and its work. A
word that is no instruction has no name. -/
structure Arm where
  name : Option String
  work : Work Flow

def named (name : String) (work : Work Flow) : Work Arm := pure ⟨some name, work⟩

def unknown (pc : UInt16) (o : Opcode) : Work Arm := pure ⟨none, raise ⟨pc, .unknownOpcode o⟩⟩

def enter (pc : UInt16) (o : Opcode) : Work Flow := do
  let s ← state
  if CallStack.capacity ≤ s.stackPointer.toNat then
    raise ⟨pc, .stackOverflow⟩
  else
    let stack ← put s.stack s.stackPointer.toNat s.pc
    change fun s => { s with stack }
    let stackPointer ← sumByte s.stackPointer 1
    change fun s => { s with stackPointer }
    goTo (UInt16.ofNat o.nnn)
    return .jump

def leave (pc : UInt16) : Work Flow := do
  let s ← state
  if s.stackPointer = 0 then
    raise ⟨pc, .stackUnderflow⟩
  else
    let stackPointer := s.stackPointer - 1
    change fun s => { s with stackPointer }
    let address ← item s.stack stackPointer.toNat
    goTo address
    return .jump

/-- Writes a result, then its flag. -/
def writeResult (x : Nat) : UInt8 × Option Bool → Work Flow
  | (result, none) => do
    setRegister x result
    return .next
  | (result, some flag) => do
    setRegister x result
    setRegister Register.flag flag.toUInt8
    return .next

/-- Family 8. Both registers are read before the last digit is looked at. -/
def operate (pc : UInt16) (o : Opcode) : Work Arm := do
  let a ← register o.x
  let b ← register o.y
  match o.n.val with
  | 0x0 => named "LD" (writeResult o.x (Operation.copy.apply a b))
  | 0x1 => named "OR" (writeResult o.x (Operation.or.apply a b))
  | 0x2 => named "AND" (writeResult o.x (Operation.and.apply a b))
  | 0x3 => named "XOR" (writeResult o.x (Operation.xor.apply a b))
  | 0x4 => named "ADD" (writeResult o.x (Operation.add.apply a b))
  | 0x5 => named "SUB" (writeResult o.x (Operation.subtract.apply a b))
  | 0x6 => named "SHR" (writeResult o.x (Operation.shiftRight.apply a b))
  | 0x7 => named "SUBN" (writeResult o.x (Operation.subtractFrom.apply a b))
  | 0xE => named "SHL" (writeResult o.x (Operation.shiftLeft.apply a b))
  | _ => unknown pc o

/-- Refuses a set bit of a row that lands off the screen. -/
def checkBit (pc : UInt16) (row : UInt8) (x y c : Nat) : Work Unit :=
  if row.toNat.testBit (7 - c) ∧ (Screen.width ≤ x + c ∨ Screen.height ≤ y) then
    raise ⟨pc, .displayOutOfBounds (x + c) y⟩
  else pure ()

/-- Refuses a sprite with a set bit off the screen, row by row and left to right. -/
def checkSprite (pc : UInt16) (x y : Nat) (rows : List UInt8) : Work Unit :=
  rows.zipIdx.forM fun (row, r) => (List.range Sprite.width).forM (checkBit pc row x (y + r))

/-- Inverts the pixel of a set bit and notes whether it was lit. -/
def flipBit (row : UInt8) (x y : Nat) (erased : Bool) (c : Nat) : Work Bool := do
  if row.toNat.testBit (7 - c) then
    let s ← state
    let old ← item s.display (x + c + y * Screen.width)
    let display ← put s.display (x + c + y * Screen.width) (!old)
    change fun s => { s with display }
    return erased || old
  else
    return erased

/-- Inverts the pixels of a sprite and tells whether one of them was lit. -/
def flipSprite (x y : Nat) (rows : List UInt8) : Work Bool :=
  rows.zipIdx.foldlM
    (fun erased (row, r) => (List.range Sprite.width).foldlM (flipBit row x (y + r)) erased) false

/-- The rows of the sprite at the index register. The buffer they are copied to has fifteen
places. -/
def spriteRows (length : Nat) : Work (List UInt8) := do
  let s ← state
  let rows ← items s.memory s.index.toNat length
  if 15 < rows.length then crash .index else pure rows

def draw (pc : UInt16) (o : Opcode) : Work Flow := do
  let x ← register o.x
  let y ← register o.y
  let s ← state
  within pc s.index.toNat o.n
  let rows ← spriteRows o.n
  checkSprite pc x.toNat y.toNat rows
  let erased ← flipSprite x.toNat y.toNat rows
  setRegister Register.flag erased.toUInt8
  change fun s => { s with drawn := true }
  return .draw

def keyDown (number : UInt8) : Work Bool := do
  let s ← state
  match Key.ofNat number.toNat with
  | .ok key => return s.keys.contains key
  | .error .outOfRange => return false

/-- Loads the least key that is down, or puts the program counter back to wait for one. -/
def awaitKey (pc : UInt16) (x : Nat) : Work Flow := do
  let s ← state
  match s.keys.first? with
  | some key =>
    setRegister x (UInt8.ofNat key)
    change fun s => { s with waiting := false }
    return .next
  | none =>
    goTo pc
    change fun s => { s with waiting := true }
    return .awaitKey

def glyph (digit : UInt8) : Work Flow := do
  let offset ← product digit.toUInt16 (UInt16.ofNat Font.height)
  let index ← sum (UInt16.ofNat Font.start) offset
  change fun s => { s with index }
  return .next

/-- Stores three decimal digits at the index register, byte by byte. -/
def storeDecimal (pc : UInt16) (x : Nat) : Work Flow := do
  let s ← state
  within pc s.index.toNat 3
  let b ← register x
  setByte s.index.toNat (b / 100 % 10)
  setByte (s.index.toNat + 1) (b / 10 % 10)
  setByte (s.index.toNat + 2) (b % 10)
  return .next

/-- Moves the index register past registers 0 to `x`. -/
def pastRegisters (x : Nat) : Work Unit :=
  change fun s => { s with index := s.index + UInt16.ofNat (x + 1) }

def storeRegisters (pc : UInt16) (x : Nat) : Work Flow := do
  let s ← state
  within pc s.index.toNat (x + 1)
  let bytes ← items s.registers 0 (x + 1)
  let memory ← putItems s.memory s.index.toNat bytes
  change fun s => { s with memory }
  pastRegisters x
  return .next

def loadRegisters (pc : UInt16) (x : Nat) : Work Flow := do
  let s ← state
  within pc s.index.toNat (x + 1)
  let bytes ← items s.memory s.index.toNat (x + 1)
  let registers ← putItems s.registers 0 bytes
  change fun s => { s with registers }
  pastRegisters x
  return .next

/-- Families 0, E and F, by family and low byte. Family 0 looks at register `x` as well. -/
def miscellaneous (pc : UInt16) (o : Opcode) : Work Arm :=
  match o.family.val, o.nn.toNat with
  | 0x0, 0xE0 =>
    if o.x.val = 0 then
      named "CLS" do
        change fun s => { s with display := Screen.blank.pixels, drawn := true }
        return .draw
    else unknown pc o
  | 0x0, 0xEE => if o.x.val = 0 then named "RET" (leave pc) else unknown pc o
  | 0xE, 0x9E =>
    named "SKP" do
      let number ← register o.x
      forwardIf (← keyDown number)
      return .next
  | 0xE, 0xA1 =>
    named "SKNP" do
      let number ← register o.x
      forwardIf (!(← keyDown number))
      return .next
  | 0xF, 0x07 =>
    named "LD DT" do
      let s ← state
      setRegister o.x s.delay
      return .next
  | 0xF, 0x0A => named "LD K" (awaitKey pc o.x)
  | 0xF, 0x15 =>
    named "LD DT" do
      let delay ← register o.x
      change fun s => { s with delay }
      return .next
  | 0xF, 0x18 =>
    named "LD ST" do
      let sound ← register o.x
      change fun s => { s with sound }
      return .sound
  | 0xF, 0x1E =>
    named "ADD I" do
      let b ← register o.x
      change fun s => { s with index := s.index + b.toUInt16 }
      return .next
  | 0xF, 0x29 =>
    named "LD F" do
      let digit ← register o.x
      glyph digit
  | 0xF, 0x33 => named "LD B" (storeDecimal pc o.x)
  | 0xF, 0x55 => named "LD [I]" (storeRegisters pc o.x)
  | 0xF, 0x65 => named "LD [I]" (loadRegisters pc o.x)
  | _, _ => unknown pc o

/-- The arm of a word. Family 9 looks at its last digit, family 5 does not. -/
def arm (pc : UInt16) (o : Opcode) : Work Arm :=
  match o.family.val with
  | 0x1 =>
    named "JP" do
      goTo (UInt16.ofNat o.nnn)
      return .jump
  | 0x2 => named "CALL" (enter pc o)
  | 0x3 =>
    named "SE" do
      let a ← register o.x
      forwardIf (a = o.nn)
      return .next
  | 0x4 =>
    named "SNE" do
      let a ← register o.x
      forwardIf (a ≠ o.nn)
      return .next
  | 0x5 =>
    named "SE" do
      let a ← register o.x
      let b ← register o.y
      forwardIf (a = b)
      return .next
  | 0x6 =>
    named "LD" do
      setRegister o.x o.nn
      return .next
  | 0x7 =>
    named "ADD" do
      let a ← register o.x
      setRegister o.x (a + o.nn)
      return .next
  | 0x8 => operate pc o
  | 0x9 =>
    if o.n.val ≠ 0 then unknown pc o
    else
      named "SNE" do
        let a ← register o.x
        let b ← register o.y
        forwardIf (a ≠ b)
        return .next
  | 0xA =>
    named "LD I" do
      change fun s => { s with index := UInt16.ofNat o.nnn }
      return .next
  | 0xB =>
    named "JP V0" do
      let a ← register 0
      let pc ← sum (UInt16.ofNat o.nnn) a.toUInt16
      goTo pc
      return .jump
  | 0xC =>
    named "RND" do
      let s ← state
      change fun s => { s with random := s.random.skip 1 }
      setRegister o.x (o.nn &&& s.random.byte)
      return .next
  | 0xD => named "DRW" (draw pc o)
  | _ => miscellaneous pc o

def execute (pc : UInt16) (o : Opcode) : Work Flow := arm pc o >>= Arm.work

/-- The word at the program counter; its two bytes must both lie in memory. -/
def fetch? (s : State) : Option Opcode :=
  if h : s.pc.toNat + 2 ≤ 4096 then
    some (.ofBytes (s.memory[s.pc.toNat]) (s.memory[s.pc.toNat + 1]))
  else none

/-- Moves on and carries out a word. A fault puts the program counter back. -/
def carryOut (pc : UInt16) (o : Opcode) : Work Flow := do
  forward
  ⟨fun s => ((execute pc o).run s).onFault fun s => { s with pc }⟩

def step (pad : Keypad) : Work Flow := do
  change fun s => { s with keys := .ofKeypad pad }
  let s ← state
  match fetch? s with
  | none => raise ⟨s.pc, .beyondMemory s.pc.toNat⟩
  | some o => carryOut s.pc o

end ChipEight.InPlace

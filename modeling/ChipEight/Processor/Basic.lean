import ChipEight.CallStack
import ChipEight.Key
import ChipEight.Memory
import ChipEight.Registers
import ChipEight.Screen

/-!
# The processor

All that programs can see and change: registers, memory, call stack, screen, timers and the keys as
they were at the last step. The index register keeps sixteen bits and is not cut to an address.
-/
namespace ChipEight

@[ext]
structure Processor where
  pc : UInt16
  index : UInt16
  registers : Registers
  stack : CallStack
  delay : UInt8
  sound : UInt8
  /-- The keys that were down at the last step. -/
  keys : KeySet
  /-- The last step waits for a key. -/
  waiting : Bool
  /-- The screen changed since the flag was last taken. -/
  drawn : Bool
  memory : Memory
  screen : Screen
deriving DecidableEq

namespace Processor

/-- The state at power-on. The draw flag is up so that the blank screen gets shown. -/
def initial : Processor where
  pc := UInt16.ofNat Memory.programStart
  index := 0
  registers := Registers.zero
  stack := .empty
  delay := 0
  sound := 0
  keys := .empty
  waiting := false
  drawn := true
  memory := .initial
  screen := .blank

def v (p : Processor) (x : Register) : UInt8 := p.registers.get x

/-- Copies a program to the program start, unless it is larger than what fits. -/
def load? (p : Processor) (program : List UInt8) : Option Processor :=
  if program.length ≤ Memory.programCapacity then
    some { p with memory := p.memory.store Memory.programStart program }
  else none

def clearScreen (p : Processor) : Processor := { p with screen := .blank, drawn := true }

def withKeys (p : Processor) (keys : KeySet) : Processor := { p with keys }

/-- The word at the program counter. -/
def opcode? (p : Processor) : Option Opcode := p.memory.opcode? p.pc.toNat

/-- The buzzer sounds while the sound timer runs. -/
def sounding (p : Processor) : Bool := 0 < p.sound

/-- Both timers one down, neither below zero. -/
def countDown (p : Processor) : Processor :=
  { p with
    delay := if p.delay = 0 then 0 else p.delay - 1
    sound := if p.sound = 0 then 0 else p.sound - 1 }

end Processor

end ChipEight

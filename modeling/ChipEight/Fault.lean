import ChipEight.Memory

/-!
# Faults

An instruction that cannot be carried out stops the machine with a fault: the cause and the address
of the instruction.
-/
namespace ChipEight

/-- Why an instruction cannot be carried out. -/
inductive Fault.Cause
  | unknownOpcode (opcode : Opcode)
  | stackOverflow
  | stackUnderflow
  | memoryOutOfBounds (address : Nat)
  | displayOutOfBounds (x y : Nat)
deriving DecidableEq

/-- The cause of an access from `start` on that leaves memory. It names the first address at or
after `start` that is no address of memory. -/
def Fault.Cause.beyondMemory (start : Nat) : Fault.Cause :=
  .memoryOutOfBounds (max start Memory.size)

def Fault.Cause.message : Fault.Cause → String
  | .unknownOpcode opcode => "unknown opcode " ++ opcode.text
  | .stackOverflow => "call stack overflow"
  | .stackUnderflow => "call stack underflow"
  | .memoryOutOfBounds address => "memory access out of bounds at 0x" ++ Text.Hex.natural address
  | .displayOutOfBounds x y => s!"sprite pixel ({x}, {y}) outside of display"

/-- A cause and the address of the instruction that has it. -/
structure Fault where
  pc : UInt16
  cause : Fault.Cause
deriving DecidableEq

/-- The address in four digits, then what went wrong. -/
def Fault.message (f : Fault) : String :=
  Text.Hex.fixed 4 f.pc.toNat ++ ": " ++ f.cause.message

end ChipEight

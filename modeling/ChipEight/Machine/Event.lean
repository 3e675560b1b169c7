import ChipEight.Fault
import ChipEight.Instruction.Basic
import ChipEight.Log

/-!
# Events of the machine

Starting over, loading a program, every decoded instruction and every instruction that could not be
carried out are worth a log record.
-/
namespace ChipEight.Machine

inductive Event
  | reset
  | loaded (size : Nat)
  | decoded (pc : UInt16) (opcode : Opcode) (instruction : Instruction)
  | faulted (fault : Fault)
deriving DecidableEq

namespace Event

def level : Event → Log.Level
  | .reset | .loaded _ => .debug
  | .decoded .. => .trace
  | .faulted _ => .warn

def operand (d : Fin 16) : String := String.singleton (Text.Hex.digit d)

/-- The text of an event. A decoded instruction shows its address, word, name and operands. -/
def text : Event → String
  | .reset => "reset"
  | .loaded size => s!"loaded program of {size} bytes"
  | .decoded pc opcode instruction =>
    Text.Hex.fixed 4 pc.toNat ++ ": " ++ opcode.text ++ " " ++ Text.column 6 instruction.mnemonic ++
      " x=" ++ operand opcode.x ++ " y=" ++ operand opcode.y ++
      " nnn=" ++ Text.Hex.fixed 3 opcode.nnn
  | .faulted fault => fault.message

def record (e : Event) : Log.Record := ⟨e.level, .machine, e.text⟩

end Event

end ChipEight.Machine

import ChipEight.Clock
import ChipEight.Machine.Event
import ChipEight.Processor.Execute

/-!
# The machine

A processor with its timer clock and its random stream. Starting over and loading a program bring
back the power-on state, except that the random stream goes on where it was.
-/
namespace ChipEight

namespace Machine

structure Config where
  /-- The rate at which a host means to step the machine. -/
  frequency : Option Frequency
  seed : Option UInt64
deriving DecidableEq

def Config.default : Config := ⟨none, none⟩

inductive Error
  | programTooLarge (size : Nat)
  | fault (fault : Fault)
  | formatting
deriving DecidableEq

def Error.message : Error → String
  | .programTooLarge size =>
    s!"program too large for VM memory: {size} bytes, at most {Memory.programCapacity} allowed"
  | .fault f => "runtime error: " ++ f.message
  | .formatting => "an error occurred when formatting an argument"

end Machine

/-- A processor, its timer clock, its random stream and the configuration it was made from. -/
@[ext]
structure Machine where
  processor : Processor
  clock : Clock
  random : Random.Stream
  config : Machine.Config
deriving DecidableEq

namespace Machine

/-- A machine at power-on. Without a seed the random stream has the given key. -/
def new (config : Config) (entropy : Random.Key) : Machine where
  processor := .initial
  clock := .timers
  random := ⟨(config.seed.map Random.Key.ofSeed).getD entropy, 0⟩
  config := config

/-- The power-on state, the random stream kept. -/
def reset (m : Machine) : Machine := { m with processor := .initial, clock := m.clock.reset }

/-- A machine after loading a program, the refusal if there was one, and the events. -/
structure Loading where
  machine : Machine
  result : Except Error Unit
  events : List Event

/-- Starts over with a program; one that is too large leaves the machine without a program. -/
def load (m : Machine) (program : List UInt8) : Loading :=
  match m.reset.processor.load? program with
  | some processor => ⟨{ m.reset with processor }, .ok (), [.reset, .loaded program.length]⟩
  | none => ⟨m.reset, .error (.programTooLarge program.length), [.reset]⟩

/-- Takes the draw flag down and tells whether it was up. -/
def takeDrawn (m : Machine) : Bool × Machine :=
  (m.processor.drawn, { m with processor := { m.processor with drawn := false } })

end Machine

end ChipEight

import ChipEight.Machine.Request

/-!
# Readings of a machine

What a host can read of a machine at any time, and what it reads along a conversation. The slots of
the call stack that are not in use are not among it, nor is the configuration.
-/
namespace ChipEight.Machine

/-- All that can be read of a machine. -/
@[ext]
structure Readings where
  pc : UInt16
  index : UInt16
  registers : Registers
  /-- How many slots of the call stack are in use. -/
  depth : Fin 17
  /-- The addresses in these slots, bottom first. -/
  returns : List UInt16
  delay : UInt8
  sound : UInt8
  keys : KeySet
  waiting : Bool
  drawn : Bool
  memory : Memory
  screen : Screen
  random : Random.Stream
  /-- The time since the last timer cycle. -/
  elapsed : Duration
deriving DecidableEq

def readings (m : Machine) : Readings where
  pc := m.processor.pc
  index := m.processor.index
  registers := m.processor.registers
  depth := m.processor.stack.depth
  returns := m.processor.stack.live
  delay := m.processor.delay
  sound := m.processor.sound
  keys := m.processor.keys
  waiting := m.processor.waiting
  drawn := m.processor.drawn
  memory := m.processor.memory
  screen := m.processor.screen
  random := m.random
  elapsed := m.clock.elapsed

/-- What a host knows right after a request: the reply, the readings and the dumps. -/
structure Sight where
  reply : Reply
  readings : Readings
  listing : Nat → List String
  screen : List String

def View.sight (v : View) : Sight := ⟨v.reply, v.machine.readings, v.listing, v.screen⟩

/-- What a host knows after each of its requests. -/
def sights (m : Machine) (requests : List Request) : List (Except Clock.Error Sight) :=
  (m.converse requests).map (Except.map View.sight)

end ChipEight.Machine

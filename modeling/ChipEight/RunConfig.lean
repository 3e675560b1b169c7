import ChipEight.Document.Basic
import ChipEight.Headless.Devices
import ChipEight.Yaml.Value

/-!
# Run configurations

The options of a headless run: the number of frames, the scripted keys and the configuration of the
machine, as fields of a record. Events are put in the order of their frames; events of one frame
keep the order of the text. A field that is no option is ignored. In a key event it may hold
anything; in the record itself it must have a value that is not nested too deep.
-/
namespace ChipEight

open Yaml (Graph Node Value Walk)

structure RunConfig where
  machine : Machine.Config
  frames : Nat
  keys : List Headless.KeyEvent
deriving DecidableEq

namespace RunConfig

inductive Error
  | unreadable
  | notRecord
  | unfit (field : String)
  | missing (field : String)
  | repeated (field : String)

def Error.message : Error → String
  | .unreadable => "not a readable text"
  | .notRecord => "not a record of options"
  | .unfit field => field ++ ": unexpected value"
  | .missing field => "missing field `" ++ field ++ "`"
  | .repeated field => "duplicate field `" ++ field ++ "`"

/-- What is read with a count of the references that were followed, or why not. -/
abbrev Reading (α : Type) := StateT Nat (Except Error) α

def orElse {α : Type} (walk : Walk α) (error : Error) : Reading α := fun followed =>
  match walk followed with
  | some result => .ok result
  | none => .error error

def count (g : Graph) (node : Node Nat) : Walk Nat := do
  let n ← g.integer node
  if ¬ n.negative ∧ n.fits 64 then return n.size else failure

def key (g : Graph) (node : Node Nat) : Walk Key := do
  let n ← g.integer node
  if n.toInt < 0 then failure else StateT.lift (Key.ofNat n.size).toOption

def required {α : Type} (fields : List (String × Node Nat)) (name : String)
    (read : Node Nat → Walk α) : Reading α :=
  match Fields.find fields name with
  | .absent => throw (.missing name)
  | .once node => orElse (read node) (.unfit name)
  | .repeated => throw (.repeated name)

def event (g : Graph) (node : Node Nat) : Reading Headless.KeyEvent := do
  match ← orElse (g.follow node) (.unfit "keys") with
  | .record _ entries =>
    let fields ← orElse (g.fields entries) (.unfit "keys")
    let frame ← required fields "frame" (count g)
    let key ← required fields "key" (key g)
    let pressed ← required fields "pressed" g.boolean
    return ⟨frame, key, pressed⟩
  | _ => throw (.unfit "keys")

/-- The key events of a node. One that is refused refuses them all; where nothing was written there
are none. -/
def events (g : Graph) (node : Node Nat) : Reading (List Headless.KeyEvent) := do
  match ← orElse (g.follow node) (.unfit "keys") with
  | .list _ items => items.mapM (event g)
  | .scalar _ .plain "" => return []
  | _ => throw (.unfit "keys")

/-- Events by frame, those of one frame in the given order. -/
def sortEvents (events : List Headless.KeyEvent) : List Headless.KeyEvent :=
  events.mergeSort fun a b => a.frame ≤ b.frame

def inOrder (c : RunConfig) : RunConfig := { c with keys := sortEvents c.keys }

/-- The rate of a run whose configuration gives none. -/
def defaultFrequency : Frequency := ⟨500⟩

def defaultFrames : Nat := 600

def default : RunConfig := ⟨⟨some defaultFrequency, none⟩, defaultFrames, []⟩

def frequency (c : RunConfig) : Frequency := c.machine.frequency.getD defaultFrequency

/-- How deep the lists and records of a text may be nested. -/
def maxDepth : Nat := 128

def framesOf (g : Graph) (fields : List (String × Node Nat)) : Reading Nat :=
  match Fields.find fields "frames" with
  | .absent => return defaultFrames
  | _ => required fields "frames" (count g)

def keysOf (g : Graph) (fields : List (String × Node Nat)) : Reading (List Headless.KeyEvent) :=
  match Fields.find fields "keys" with
  | .absent => return []
  | .once node => events g node
  | .repeated => throw (.repeated "keys")

def isRunOption (name : String) : Bool := name = "frames" ∨ name = "keys"

def otherFields (g : Graph) (fields : List (String × Node Nat)) : Reading (List (String × Value)) :=
  (fields.filter fun field => ¬ isRunOption field.1).mapM fun (name, node) =>
    return (name, ← orElse (g.value (maxDepth - 1) node) (.unfit name))

def optionalWord (fields : List (String × Value)) (name : String) :
    Except Error (Option UInt64) :=
  match Fields.find fields name with
  | .absent => .ok none
  | .once .null => .ok none
  | .once (.integer n) => if n < 0 then .error (.unfit name) else .ok (some (UInt64.ofNat n.toNat))
  | .once _ => .error (.unfit name)
  | .repeated => .error (.repeated name)

def machineOf (fields : List (String × Value)) : Except Error Machine.Config := do
  let rate ← optionalWord fields "clock_frequency"
  let seed ← optionalWord fields "seed"
  return ⟨rate.map Frequency.mk, seed⟩

def ofEntries (g : Graph) (entries : List (Node Nat × Node Nat)) : Reading RunConfig := do
  let fields ← orElse (g.fields entries) .notRecord
  let frames ← framesOf g fields
  let keys ← keysOf g fields
  let machine ← machineOf (← otherFields g fields)
  return ⟨machine, frames, keys⟩

/-- The options in a text that was structured. Where nothing was written no option is given. -/
def ofGraph (g : Graph) : Except Error RunConfig :=
  match g.root with
  | .record _ entries => (ofEntries g entries).run' 0
  | .scalar _ .plain "" => (ofEntries g []).run' 0
  | _ => .error .notRecord

/-- The options that a text gives, the key events in the order of the text. -/
def parse (text : String) : Except Error RunConfig :=
  match Graph.read? text with
  | some g => ofGraph g
  | none => .error .unreadable

def read (text : String) : Except Error RunConfig := (parse text).map inOrder

end RunConfig

end ChipEight

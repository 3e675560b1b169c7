import ChipEight.Document.Readable
import ChipEight.Machine.Config
import ChipEight.RunConfig

/-!
# Run configurations in documents

The options of a run by the values of a document, whatever notation it was read from.
-/
namespace ChipEight

def Document.boolean? : Document → Option Bool
  | .boolean value => some value
  | _ => none

namespace RunConfig

open Headless (KeyEvent)

def count? (d : Document) : Option Nat := d.toWord.toOption.map UInt64.toNat

/-- The field of a name that must be given. -/
def field? {α : Type} (fields : List (String × Document)) (name : String)
    (decode : Document → Option α) : Option α :=
  match Fields.find fields name with
  | .once value => decode value
  | _ => none

def event? : Document → Option KeyEvent
  | .record fields => do
    let frame ← field? fields "frame" count?
    let key ← field? fields "key" fun d => d.toKey.toOption
    let pressed ← field? fields "pressed" Document.boolean?
    return ⟨frame, key, pressed⟩
  | _ => none

def framesOf? (fields : List (String × Document)) : Option Nat :=
  match Fields.find fields "frames" with
  | .absent => some defaultFrames
  | _ => field? fields "frames" count?

def events? : Document → Option (List KeyEvent)
  | .list items => items.mapM event?
  | _ => none

def keysOf? (fields : List (String × Document)) : Option (List KeyEvent) :=
  match Fields.find fields "keys" with
  | .absent => some []
  | _ => field? fields "keys" events?

/-- The options in the fields of a record, the key events in the order of the document. -/
def ofFields? (fields : List (String × Document)) : Option RunConfig := do
  let frames ← framesOf? fields
  let keys ← keysOf? fields
  let machine ← (Machine.Config.ofFields fields).toOption
  return ⟨machine, frames, keys⟩

/-- The options in a document, the key events in the order of their frames. -/
def ofDocument? : Document → Option RunConfig
  | .record fields => (ofFields? fields).map inOrder
  | _ => none

/-- Whether the fields of a record that are neither frames nor keys are not nested too deep. -/
def isShallow : Document → Bool
  | .record fields => fields.all fun field => isRunOption field.1 ∨ field.2.depth ≤ maxDepth - 1
  | _ => true

/-- Whether a written document is a text within the bounds of YAML. -/
def isReadable (d : Document) : Bool := d.isPlain ∧ isShallow d

end RunConfig

end ChipEight

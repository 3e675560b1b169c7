import ChipEight.Decimal
import ChipEight.Document.Basic
import ChipEight.Key
import ChipEight.Text.Quoted

/-!
# Decoding documents

Numbers and keys out of documents, and the fields of records, or why a document is not what its
place asks for. A field may stand once; fields that nobody asks for are ignored.
-/
namespace ChipEight.Document

/-- What a place in a document asks for. -/
inductive Wanted
  /-- A whole number of sixty-four bits. -/
  | word
  /-- A whole number that names a key. -/
  | key
  /-- A number within the range of keys. -/
  | keyInRange
  | machineConfig
deriving DecidableEq

def Wanted.text : Wanted → String
  | .word => "u64"
  | .key => "an integer between 0 and 15"
  | .keyInRange => Key.Error.outOfRange.message
  | .machineConfig => "struct Chip8Conf"

/-- Why a document does not fit its place. -/
inductive Mismatch
  | kind (found : Document) (wanted : Wanted)
  | value (found : Int) (wanted : Wanted)
  /-- The list is longer than the fields it stands for. -/
  | length (found : Nat)
  | repeated (field : String)

/-- The kind of a document, with its value where that is short. -/
def describe : Document → String
  | .null => "null"
  | .boolean value => "boolean `" ++ (if value then "true" else "false") ++ "`"
  | .integer value => "integer `" ++ toString value ++ "`"
  | .real value => "floating point `" ++ Decimal.ofFloat value ++ "`"
  | .text value => "string " ++ Text.Quoted.write value
  | .list _ => "sequence"
  | .record _ => "map"

def Mismatch.message : Mismatch → String
  | .kind found wanted => "invalid type: " ++ found.describe ++ ", expected " ++ wanted.text
  | .value found wanted =>
    "invalid value: " ++ (Document.integer found).describe ++ ", expected " ++ wanted.text
  | .length found =>
    "invalid length " ++ toString found ++ ", expected fewer elements in array"
  | .repeated field => "duplicate field `" ++ field ++ "`"

def toWord : Document → Except Mismatch UInt64
  | .integer n =>
    if 0 ≤ n ∧ n ≤ 0xFFFFFFFFFFFFFFFF then .ok (UInt64.ofNat n.toNat) else .error (.value n .word)
  | d => .error (.kind d .word)

def toKey : Document → Except Mismatch Key
  | .integer n =>
    if n < 0 then .error (.value n .keyInRange)
    else
      match Key.ofNat n.toNat with
      | .ok key => .ok key
      | .error .outOfRange => .error (.value n .keyInRange)
  | d => .error (.kind d .key)

/-- A value that may be left out by writing null. -/
def optional {α : Type} (decode : Document → Except Mismatch α) :
    Document → Except Mismatch (Option α)
  | .null => .ok none
  | d => (decode d).map some

def optionalField {α : Type} (fields : List (String × Document)) (name : String)
    (decode : Document → Except Mismatch α) : Except Mismatch (Option α) :=
  match Fields.find fields name with
  | .absent => .ok none
  | .once d => optional decode d
  | .repeated => .error (.repeated name)

end ChipEight.Document

/-!
# Tokens of YAML texts

The pieces that a text is cut into. Brackets and marks stand in the text; the beginning and the end
of a block and most marks of keys are found by indentation. A tag names the kind of a value by a
string of bytes, since an escape in it stands for a byte; the bytes need not be those of a text.
-/
namespace ChipEight.Yaml

/-- The name of a kind of values. -/
structure Tag where
  bytes : List UInt8
deriving DecidableEq

namespace Tag

def ofAscii (text : String) : Tag := ⟨text.toList.map fun c => UInt8.ofNat c.toNat⟩

def null : Tag := ofAscii "tag:yaml.org,2002:null"
def boolean : Tag := ofAscii "tag:yaml.org,2002:bool"
def integer : Tag := ofAscii "tag:yaml.org,2002:int"
def real : Tag := ofAscii "tag:yaml.org,2002:float"

def isText (t : Tag) : Bool := (String.fromUTF8? ⟨t.bytes.toArray⟩).isSome

/-- Whether a tag starts with an exclamation mark, so that its meaning is up to the reader. -/
def isPrivate (t : Tag) : Bool := t.bytes.head? = some 33

end Tag

/-- How a scalar is written: without quotes, with either kind of quotes, or as a block whose lines
are kept or folded. -/
inductive Style
  | plain
  | quoted
  | literal
  | folded
deriving DecidableEq

inductive Token
  /-- A directive with the version of the notation. -/
  | version (major minor : Nat)
  /-- A directive with a shorthand for tags and what it stands for. -/
  | shorthand (handle : String) (stem : List UInt8)
  | documentStart
  | documentEnd
  | blockListStart
  | blockRecordStart
  | blockEnd
  | listStart
  | listEnd
  | recordStart
  | recordEnd
  | dash
  | comma
  | key
  | value
  | alias (name : String)
  | anchor (name : String)
  | tag (handle : String) (suffix : List UInt8)
  | scalar (style : Style) (text : String)
deriving DecidableEq

end ChipEight.Yaml

import ChipEight.Decimal
import ChipEight.Document.Basic
import ChipEight.Text.Hex

/-!
# Writing documents

A document on one line without blanks, in the notation that is read.
-/
namespace ChipEight.Document

/-- One character of a quoted text. Control characters are written by their number. -/
def writeCharacter (c : Char) : List Char :=
  if c = '\x22' ∨ c = '\x5c' then ['\x5c', c]
  else if c < ' ' then '\x5c' :: 'u' :: '0' :: '0' :: Text.Hex.byteDigits c.toUInt8
  else [c]

def writeText (s : String) : String :=
  String.ofList ('\x22' :: s.toList.flatMap writeCharacter ++ ['\x22'])

mutual

def writeAfter (out : String) : Document → String
  | .null => out ++ "null"
  | .boolean true => out ++ "true"
  | .boolean false => out ++ "false"
  | .integer n => out ++ toString n
  | .real x => out ++ Decimal.ofFloat x
  | .text s => out ++ writeText s
  | .list items => (writeItems (out.push '[') items).push ']'
  | .record fields => (writeFields (out.push '\x7b') fields).push '\x7d'

/-- A text followed by those of documents, commas between them. -/
def writeItems (out : String) : List Document → String
  | [] => out
  | item :: items =>
    let out := writeAfter out item
    writeItems (if items.isEmpty then out else out.push ',') items

/-- A text followed by those of named documents, commas between them. -/
def writeFields (out : String) : List (String × Document) → String
  | [] => out
  | (name, value) :: fields =>
    let out := writeAfter ((out ++ writeText name).push ':') value
    writeFields (if fields.isEmpty then out else out.push ',') fields

end

def write (d : Document) : String := writeAfter "" d

end ChipEight.Document

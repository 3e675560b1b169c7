import ChipEight.Document.Basic
import ChipEight.Text.Hex

/-!
# Reading documents

A text is cut into brackets, marks, words, numbers and quoted texts; blanks only separate them. A
document is read from these tokens: a scalar, a list of documents, or a record of named documents.
Nothing may follow it, and a text that cannot be cut is refused as a whole.
-/
namespace ChipEight.Document

inductive Token
  | openList
  | closeList
  | openRecord
  | closeRecord
  | comma
  | colon
  | scalar (value : Document)

namespace Token

def isBlank (c : Char) : Bool := c = ' ' ∨ c = '\t' ∨ c = '\n' ∨ c = '\r'

/-- The two-character form of a character in a quoted text, by its second character. -/
def shortEscape? : Char → Option Char
  | '\x22' => some '\x22'
  | '\x5c' => some '\x5c'
  | '/' => some '/'
  | 'b' => some '\x08'
  | 'f' => some '\x0c'
  | 'n' => some '\n'
  | 'r' => some '\r'
  | 't' => some '\t'
  | _ => none

def unit? : List Char → Option (Nat × List Char)
  | a :: b :: c :: d :: rest => do
    let a ← Text.Hex.value? a
    let b ← Text.Hex.value? b
    let c ← Text.Hex.value? c
    let d ← Text.Hex.value? d
    return (4096 * a + 256 * b + 16 * c + d, rest)
  | _ => none

/-- A character by its units: one unit, or a high and a low unit together. -/
def unitEscape? (input : List Char) : Option (Char × List Char) := do
  let (unit, rest) ← unit? input
  if unit < 0xD800 ∨ 0xE000 ≤ unit then return (Char.ofNat unit, rest)
  else if 0xDC00 ≤ unit then none
  else
    match rest with
    | '\x5c' :: 'u' :: rest =>
      let (low, rest) ← unit? rest
      if 0xDC00 ≤ low ∧ low < 0xE000 then
        return (Char.ofNat (0x10000 + 0x400 * (unit - 0xD800) + (low - 0xDC00)), rest)
      else none
    | _ => none

/-- The rest of a quoted text after its opening quote; `read` holds what was read, last character
first. -/
def quoted? : Nat → List Char → List Char → Option (String × List Char)
  | 0, _, _ => none
  | fuel + 1, read, input =>
    match input with
    | [] => none
    | '\x22' :: rest => some (String.ofList read.reverse, rest)
    | '\x5c' :: 'u' :: rest =>
      match unitEscape? rest with
      | some (c, rest) => quoted? fuel (c :: read) rest
      | none => none
    | '\x5c' :: c :: rest =>
      match shortEscape? c with
      | some c => quoted? fuel (c :: read) rest
      | none => none
    | c :: rest => if c < ' ' then none else quoted? fuel (c :: read) rest

def decimal (digits : List Char) : Nat := digits.foldl (fun n c => 10 * n + (c.toNat - 48)) 0

def digits (input : List Char) : List Char × List Char :=
  (input.takeWhile Char.isDigit, input.dropWhile Char.isDigit)

/-- The digits after a decimal point, if there is one. -/
def fraction? : List Char → Option (List Char × List Char)
  | '.' :: rest => if (digits rest).1 = [] then none else some (digits rest)
  | input => some ([], input)

/-- The power of ten, if there is one. A power of more than five digits is cut there, where every
value is already zero or infinite. -/
def power? : List Char → Option (Option Int × List Char)
  | c :: rest =>
    if c = 'e' ∨ c = 'E' then
      let (negative, rest) := match rest with
        | '-' :: rest => (true, rest)
        | '+' :: rest => (false, rest)
        | _ => (false, rest)
      let (read, rest) := digits rest
      let size : Int := min (decimal read) 99999
      if read = [] then none else some (some (if negative then -size else size), rest)
    else some (none, c :: rest)
  | [] => some (none, [])

/-- The real number of decimal digits and a power of ten. -/
def real (negative : Bool) (mantissa : Nat) (power : Int) : Document :=
  let size := Float.ofScientific mantissa (power < 0) power.natAbs
  .real (if negative then -size else size)

/-- A number. Leading zeros are refused, and a negative zero is real. -/
def number? (input : List Char) : Option (Document × List Char) := do
  let (negative, input) := match input with
    | '-' :: rest => (true, rest)
    | _ => (false, input)
  let (whole, input) := digits input
  if whole = [] ∨ (whole.head? = some '0' ∧ whole ≠ ['0']) then none
  let (part, input) ← fraction? input
  let (power, input) ← power? input
  let size : Int := decimal whole
  let value := if negative then -size else size
  if part = [] ∧ power = none ∧ IsInteger value ∧ ¬ (negative ∧ value = 0) then
    return (.integer value, input)
  return (real negative (decimal (whole ++ part)) (power.getD 0 - part.length), input)

/-- The token at the front of a text that starts with no blank. -/
def next? : List Char → Option (Token × List Char)
  | '[' :: rest => some (.openList, rest)
  | ']' :: rest => some (.closeList, rest)
  | '\x7b' :: rest => some (.openRecord, rest)
  | '\x7d' :: rest => some (.closeRecord, rest)
  | ',' :: rest => some (.comma, rest)
  | ':' :: rest => some (.colon, rest)
  | 'n' :: 'u' :: 'l' :: 'l' :: rest => some (.scalar .null, rest)
  | 't' :: 'r' :: 'u' :: 'e' :: rest => some (.scalar (.boolean true), rest)
  | 'f' :: 'a' :: 'l' :: 's' :: 'e' :: rest => some (.scalar (.boolean false), rest)
  | '\x22' :: rest =>
    (quoted? (rest.length + 1) [] rest).map fun (s, rest) => (.scalar (.text s), rest)
  | input => (number? input).map fun (value, rest) => (.scalar value, rest)

/-- The tokens of a text after those already read, which stand last first. -/
def scanFrom? : Nat → List Token → List Char → Option (List Token)
  | 0, _, _ => none
  | fuel + 1, read, input =>
    match input.dropWhile isBlank with
    | [] => some read.reverse
    | input =>
      match next? input with
      | some (token, rest) => scanFrom? fuel (token :: read) rest
      | none => none

/-- The tokens of a text. Each takes at least one character, so their number is bounded. -/
def scan? (input : List Char) : Option (List Token) := scanFrom? (input.length + 1) [] input

end Token

mutual

def value? : Nat → List Token → Option (Document × List Token)
  | 0, _ => none
  | _, .scalar value :: rest => some (value, rest)
  | _, .openList :: .closeList :: rest => some (.list [], rest)
  | fuel + 1, .openList :: rest => items? fuel [] rest
  | _, .openRecord :: .closeRecord :: rest => some (.record [], rest)
  | fuel + 1, .openRecord :: rest => fields? fuel [] rest
  | _, _ => none

/-- The rest of a list whose items so far stand last first. -/
def items? : Nat → List Document → List Token → Option (Document × List Token)
  | 0, _, _ => none
  | fuel + 1, read, input =>
    match value? fuel input with
    | some (item, .comma :: rest) => items? fuel (item :: read) rest
    | some (item, .closeList :: rest) => some (.list (item :: read).reverse, rest)
    | _ => none

/-- The rest of a record whose fields so far stand last first. -/
def fields? : Nat → List (String × Document) → List Token → Option (Document × List Token)
  | fuel + 1, read, .scalar (.text name) :: .colon :: input =>
    match value? fuel input with
    | some (value, .comma :: rest) => fields? fuel ((name, value) :: read) rest
    | some (value, .closeRecord :: rest) => some (.record ((name, value) :: read).reverse, rest)
    | _ => none
  | _, _, _ => none

end

/-- The document of a text. Every call of the reader takes a token or is the first after one, so
twice their number bounds the calls. -/
def read? (input : String) : Option Document := do
  let tokens ← Token.scan? input.toList
  let (document, rest) ← value? (2 * tokens.length + 1) tokens
  if rest.isEmpty then some document else none

end ChipEight.Document

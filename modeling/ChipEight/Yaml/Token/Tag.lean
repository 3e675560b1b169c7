import ChipEight.Text.Hex
import ChipEight.Yaml.Cursor
import ChipEight.Yaml.Token.Basic

/-!
# Tags and directives

A tag names the kind of a value, in full or by a shorthand that a directive may declare. A directive
takes a line of its own.
-/
namespace ChipEight.Yaml

/-- The characters of tags besides those of names. Brackets are only for tags that are written in
full. -/
def isTagCharacter (full : Bool) (c : Char) : Bool :=
  isWord c ∨ c ∈ [';', '/', '?', ':', '@', '&', '=', '+', '$', '.', '!', '~', '*', '\'', '(', ')'] ∨
    (full ∧ (c = ',' ∨ c = '[' ∨ c = ']'))

/-- How many bytes a character of UTF-8 takes by the first of them. -/
def bytesOfCharacter? (first : UInt8) : Option Nat :=
  if first < 0x80 then some 1
  else if 0xC0 ≤ first ∧ first < 0xE0 then some 2
  else if 0xE0 ≤ first ∧ first < 0xF0 then some 3
  else if 0xF0 ≤ first ∧ first < 0xF8 then some 4
  else none

/-- The bytes of a tag at the front of a text, those that were read last first. An escape is a byte
in two hexadecimal digits; the escapes of one character, `missing` of which are still to come, must
follow each other. -/
def tagBytes? (full : Bool) (missing : Nat) (read : List UInt8) :
    List Char → Option (List UInt8 × List Char)
  | '%' :: a :: b :: rest => do
    let byte := UInt8.ofNat (16 * (← Text.Hex.value? a) + (← Text.Hex.value? b))
    if missing = 0 then tagBytes? full ((← bytesOfCharacter? byte) - 1) (byte :: read) rest
    else if 0x80 ≤ byte ∧ byte < 0xC0 then tagBytes? full (missing - 1) (byte :: read) rest
    else none
  | c :: rest =>
    if missing ≠ 0 ∨ c = '%' then none
    else if isTagCharacter full c then tagBytes? full 0 (UInt8.ofNat c.toNat :: read) rest
    else some (read, c :: rest)
  | [] => if missing = 0 then some (read, []) else none

/-- The bytes in their order. A zero ends them early. -/
def untilZero (read : List UInt8) : List UInt8 := read.reverse.takeWhile (· ≠ 0)

/-- The shorthand at the front of a text that starts with an exclamation mark: the mark, a name and,
where it follows, a second mark. -/
def handle (input : List Char) : List Char × List Char :=
  let name := input.tail.takeWhile isWord
  let rest := input.tail.dropWhile isWord
  if rest.head? = some '!' then ('!' :: name ++ ['!'], rest.tail) else ('!' :: name, rest)

namespace Token

def fullTag? (input : List Char) : Option (Token × List Char) := do
  match ← tagBytes? true 0 [] input with
  | ([], _) => none
  | (read, '>' :: rest) => return (.tag "" (untilZero read), rest)
  | _ => none

/-- A tag with a shorthand. A lone exclamation mark is a tag itself. -/
def shortTag? (input : List Char) : Option (Token × List Char) := do
  let (handle, rest) := handle input
  if handle.length > 1 ∧ handle.getLast? = some '!' then
    match ← tagBytes? false 0 [] rest with
    | ([], _) => none
    | (read, rest) => return (.tag (String.ofList handle) (untilZero read), rest)
  else
    let name := handle.tail.map fun c => UInt8.ofNat c.toNat
    let (read, rest) ← tagBytes? false 0 name.reverse rest
    match untilZero read with
    | [] => return (.tag "" (Tag.ofAscii "!").bytes, rest)
    | suffix => return (.tag "!" suffix, rest)

/-- A tag. It ends at a blank or the end of a line or, within brackets, at a comma. -/
def tag? (bracketed : Bool) (input : List Char) : Option (Token × List Char) := do
  let (token, rest) ← match input with
    | '!' :: '<' :: rest => fullTag? rest
    | _ => shortTag? input
  if endsWord rest ∨ (bracketed ∧ rest.head? = some ',') then return (token, rest) else none

/-- A name behind the mark of an anchor or a reference, and what follows it. -/
def name? (input : List Char) : Option (String × List Char) :=
  let name := input.takeWhile isWord
  let rest := input.dropWhile isWord
  if name ≠ [] ∧ (endsWord rest ∨
      rest.head?.any (· ∈ ['?', ':', ',', ']', '\x7d', '%', '@', '\x60'])) then
    some (String.ofList name, rest)
  else none

def versionPart? (input : List Char) : Option (Nat × List Char) :=
  let digits := input.takeWhile Char.isDigit
  if digits = [] ∨ 9 < digits.length then none
  else some (digits.foldl (fun n c => 10 * n + (c.toNat - '0'.toNat)) 0,
    input.dropWhile Char.isDigit)

def version? (input : List Char) : Option (Token × List Char) := do
  match ← versionPart? (input.dropWhile isBlank) with
  | (major, '.' :: rest) =>
    let (minor, rest) ← versionPart? rest
    return (.version major minor, rest)
  | _ => none

def shorthand? (input : List Char) : Option (Token × List Char) := do
  let input := input.dropWhile isBlank
  if input.head? ≠ some '!' then none
  let (handle, rest) := handle input
  if ¬ (handle = ['!'] ∨ handle.getLast? = some '!') then none
  if ¬ rest.head?.any isBlank then none
  match ← tagBytes? true 0 [] (rest.dropWhile isBlank) with
  | ([], _) => none
  | (read, rest) =>
    if endsWord rest then return (.shorthand (String.ofList handle) (untilZero read), rest)
    else none

def directive? (input : List Char) : Option (Token × List Char) :=
  let name := input.takeWhile isWord
  let rest := input.dropWhile isWord
  if ¬ endsWord rest then none
  else if String.ofList name = "YAML" then version? rest
  else if String.ofList name = "TAG" then shorthand? rest
  else none

end Token

end ChipEight.Yaml

/-!
# Characters, places and lines of YAML texts

A text holds no control characters other than tabs and line breaks. Carriage returns and the mark of
a next line are read as line feeds, so that a line ends with one character: a line feed, which may
be folded away, or one of the two separators, which are kept. Indentation gives a text its
structure, so a reader keeps the line and the column it has come to; how far two places of a line
are apart is counted in bytes.
-/
namespace ChipEight.Yaml

def isAllowed (c : Char) : Bool :=
  c = '\t' ∨ c = '\n' ∨ c = '\r' ∨ (0x20 ≤ c.toNat ∧ c.toNat ≤ 0x7E) ∨ c.toNat = 0x85 ∨
    (0xA0 ≤ c.toNat ∧ c.toNat ≤ 0xFFFD) ∨ 0x10000 ≤ c.toNat

/-- A text whose lines end with one character each. -/
def unifyBreaks : List Char → List Char
  | [] => []
  | '\r' :: '\n' :: rest => '\n' :: unifyBreaks rest
  | c :: rest => (if c = '\r' ∨ c = '\u0085' then '\n' else c) :: unifyBreaks rest

def isBlank (c : Char) : Bool := c = ' ' ∨ c = '\t'

def isBreak (c : Char) : Bool := c = '\n' ∨ c = '\u2028' ∨ c = '\u2029'

/-- The mark that may open a line and means nothing. -/
def byteOrderMark : Char := '\uFEFF'

def isWord (c : Char) : Bool := c.isAlphanum ∨ c = '_' ∨ c = '-'

/-- The characters that open, close and divide lists and records within brackets. -/
def isBracket (c : Char) : Bool := c = '[' ∨ c = ']' ∨ c = '\x7b' ∨ c = '\x7d' ∨ c = ','

/-- Whether a word cannot go on: at a blank, at the end of a line and at the end of the text. -/
def endsWord : List Char → Bool
  | [] => true
  | c :: _ => isBlank c ∨ isBreak c

def isDocumentMark : List Char → Bool
  | a :: b :: c :: rest => (a = '-' ∨ a = '.') ∧ b = a ∧ c = a ∧ endsWord rest
  | _ => false

/-- A place in a text. Lines and columns are counted from zero. -/
structure Place where
  line : Nat
  column : Nat
  /-- The size of the line up to the place in bytes of UTF-8. -/
  offset : Nat

namespace Place

def start : Place := ⟨0, 0, 0⟩

def next (p : Place) (c : Char) : Place := ⟨p.line, p.column + 1, p.offset + c.utf8Size⟩

def nextLine (p : Place) : Place := ⟨p.line + 1, 0, 0⟩

end Place

/-- The rest of a text and the place where it begins. -/
structure Cursor extends Place where
  rest : List Char

namespace Cursor

def start (text : List Char) : Cursor := ⟨.start, text⟩

def skip (c : Cursor) (count : Nat) : Cursor :=
  ⟨(c.rest.take count).foldl Place.next c.toPlace, c.rest.drop count⟩

/-- On the line of a rest that is at most as long. -/
def moveTo (c : Cursor) (rest : List Char) : Cursor := c.skip (c.rest.length - rest.length)

/-- Behind the end of the line, where the text has come to it. -/
def nextLine (c : Cursor) : Cursor := ⟨c.toPlace.nextLine, c.rest.drop 1⟩

/-- At the end of the line of a comment, or in place if there is none. -/
def skipComment (c : Cursor) : Cursor :=
  if c.rest.head? = some '#' then c.moveTo (c.rest.dropWhile fun a => ¬ isBreak a) else c

/-- Behind the end of a line that holds nothing more than blanks and a comment. -/
def skipLine? (c : Cursor) : Option Cursor :=
  let c := (c.moveTo (c.rest.dropWhile isBlank)).skipComment
  match c.rest with
  | [] => some c
  | a :: _ => if isBreak a then some c.nextLine else none

end Cursor

/-- What stands between two characters of a scalar that are neither blanks nor ends of lines. -/
inductive Gap
  | closed
  /-- Blanks on one line, last first. -/
  | blanks (read : List Char)
  /-- Ends of lines: the first, unless it was written to be dropped, and the others, last first. -/
  | lines (first : Option Char) (others : List Char)

namespace Gap

def hasLines : Gap → Bool
  | .lines _ _ => true
  | _ => false

def isOpen : Gap → Bool
  | .closed => false
  | _ => true

def addBlank (c : Char) : Gap → Gap
  | .closed => .blanks [c]
  | .blanks read => .blanks (c :: read)
  | .lines first others => .lines first others

/-- The gap with an end of a line more. -/
def addBreak (c : Char) : Gap → Gap
  | .lines first others => .lines first (c :: others)
  | _ => .lines (some c) []

/-- The characters that the gap is read as, last first. -/
def folded : Gap → List Char
  | .closed => []
  | .blanks read => read
  | .lines (some '\n') [] => [' ']
  | .lines (some '\n') others => others
  | .lines first others => others ++ first.toList

end Gap

end ChipEight.Yaml

import ChipEight.Yaml.Cursor

/-!
# Block scalars

A scalar whose lines are indented below its mark. Lines are kept as they are or folded; its header
may give the indentation and say what becomes of the ends of lines behind the last one.
-/
namespace ChipEight.Yaml.Block

/-- What becomes of the ends of lines behind the scalar: all are dropped, one or all are kept. -/
inductive Tail
  | drop
  | one
  | all
deriving DecidableEq

structure Header where
  tail : Tail
  /-- The indentation below the block around it, zero if it is to be found out. -/
  indent : Nat

/-- What a header says about the tail, if it says so next. -/
def tail : List Char → Tail × List Char
  | '+' :: rest => (.all, rest)
  | '-' :: rest => (.drop, rest)
  | rest => (.one, rest)

/-- The indentation that a header gives, if it gives one next. It must not be zero. -/
def indent? : List Char → Option (Nat × List Char)
  | '0' :: _ => none
  | c :: rest => if c.isDigit then some (c.toNat - '0'.toNat, rest) else some (0, c :: rest)
  | [] => some (0, [])

/-- The two parts of a header in either order. -/
def header? (input : List Char) : Option (Header × List Char) := do
  let (before, input) := tail input
  let (indent, input) ← indent? input
  if before = .one then
    let (after, input) := tail input
    return (⟨after, indent⟩, input)
  else return (⟨before, indent⟩, input)

/-- The empty lines and the indentation before a line of content: the widest indentation that was
seen, the ends of lines, last first, and the place of the content. Without a given indentation all
blanks are indentation. A tab must not stand in it. -/
def emptyLines? (indent widest : Nat) (breaks : List Char) (p : Place) :
    List Char → Option (Nat × List Char × Cursor)
  | [] => some (max widest p.column, breaks, ⟨p, []⟩)
  | c :: rest =>
    let inIndent := indent = 0 ∨ p.column < indent
    if c = ' ' ∧ inIndent then emptyLines? indent widest breaks (p.next c) rest
    else if c = '\t' ∧ inIndent then none
    else if isBreak c then emptyLines? indent (max widest p.column) (c :: breaks) p.nextLine rest
    else some (max widest p.column, breaks, ⟨p, c :: rest⟩)

structure Reading where
  /-- What was read, last character first. -/
  read : List Char
  /-- The end of the last line of content. -/
  lineEnd : Option Char
  /-- The ends of the empty lines behind it, last first. -/
  breaks : List Char
  /-- Whether the last line of content began with a blank. -/
  indented : Bool
  cursor : Cursor

namespace Reading

/-- How the last line of content is joined with the next one. Lines that begin with a blank are not
folded. -/
def joint (r : Reading) (folded nextIndented : Bool) : List Char :=
  if folded ∧ r.lineEnd = some '\n' ∧ ¬ r.indented ∧ ¬ nextIndented then
    if r.breaks = [] then [' '] else []
  else r.lineEnd.toList

/-- Adds a line of content and the empty lines behind it. -/
def addLine? (r : Reading) (folded : Bool) (indent : Nat) : Option Reading := do
  let indented := r.cursor.rest.head?.any isBlank
  let content := r.cursor.rest.takeWhile fun c => ¬ isBreak c
  let read := content.reverse ++ (r.breaks ++ (r.joint folded indented ++ r.read))
  let atEnd := r.cursor.skip content.length
  let next := if atEnd.rest = [] then atEnd else atEnd.nextLine
  let (_, breaks, cursor) ← emptyLines? indent 0 [] next.toPlace next.rest
  return ⟨read, atEnd.rest.head?, breaks, indented, cursor⟩

/-- Adds all lines of content. Each takes a character, so their number is bounded. -/
def addLines? (folded : Bool) (indent : Nat) : Nat → Reading → Option Reading
  | 0, r => some r
  | fuel + 1, r =>
    if r.cursor.column = indent ∧ r.cursor.rest ≠ [] then
      (r.addLine? folded indent).bind (addLines? folded indent fuel)
    else some r

def text (r : Reading) (tail : Tail) : String :=
  String.ofList <| List.reverse <|
    match tail with
    | .drop => r.read
    | .one => r.lineEnd.toList ++ r.read
    | .all => r.breaks ++ (r.lineEnd.toList ++ r.read)

end Reading

/-- The scalar behind its mark. `outer` is the least indentation that lies within the block around
it. -/
def scan? (folded : Bool) (outer : Nat) (c : Cursor) : Option (String × Cursor) := do
  let (header, rest) ← header? c.rest
  let c ← (c.moveTo rest).skipLine?
  let given := if header.indent = 0 then 0 else outer - 1 + header.indent
  let (widest, breaks, c) ← emptyLines? given 0 [] c.toPlace c.rest
  let indent := if given = 0 then max widest (max outer 1) else given
  let r ← Reading.addLines? folded indent c.rest.length ⟨[], none, breaks, false, c⟩
  return (r.text header.tail, r.cursor)

end ChipEight.Yaml.Block

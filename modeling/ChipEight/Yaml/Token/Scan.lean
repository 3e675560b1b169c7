import ChipEight.Yaml.Token.Block
import ChipEight.Yaml.Token.Scalar
import ChipEight.Yaml.Token.Tag

/-!
# Cutting YAML texts into tokens

Outside of brackets the column of a token tells which blocks it closes and whether it opens one. A
key is known only by the mark of the value behind it, so the place where one may have started is
kept until the mark comes; a key must stand on one line and be short. A text that cannot be cut is
refused as a whole.
-/
namespace ChipEight.Yaml

/-- A place where a key may have started. -/
structure KeyStart extends Place where
  token : Nat
  /-- Whether nothing but a key can start there. -/
  required : Bool

/-- The longest distance in bytes between the start of a key and the mark of its value. -/
def KeyStart.reach : Nat := 1024

/-- Whether a key that started here would be too long, or have left its line, at some place. -/
def KeyStart.isStale (k : KeyStart) (c : Cursor) : Bool :=
  k.line < c.line ∨ k.offset + reach < c.offset

/-- The tokens so far and what decides about the next ones. -/
structure Scanner where
  tokens : Array Token
  /-- The columns of the open blocks, innermost first. -/
  blocks : List Nat
  /-- Where a key may have started within the innermost brackets. -/
  keyStart : Option KeyStart
  /-- The same for what is around the brackets, from within; one entry for each open bracket. -/
  outerStarts : List (Option KeyStart)
  keyAllowed : Bool

namespace Scanner

def start : Scanner := ⟨#[], [], none, [], true⟩

/-- Whether brackets are open, where indentation means nothing. -/
def bracketed (s : Scanner) : Bool := s.outerStarts ≠ []

def push (s : Scanner) (t : Token) : Scanner := { s with tokens := s.tokens.push t }

/-- Says whether a key may start behind the token. -/
def allowKey (s : Scanner) (allowed : Bool) : Scanner := { s with keyAllowed := allowed }

/-- The first column that lies within the innermost block. -/
def inner (s : Scanner) : Nat := (s.blocks.head?.map (· + 1)).getD 0

/-- Gives up the keys that have become too long. -/
def dropStale? (s : Scanner) (c : Cursor) : Option Scanner :=
  let stale (k : Option KeyStart) : Bool := k.any (·.isStale c)
  let needed (k : Option KeyStart) : Bool := k.any fun k => k.required ∧ k.isStale c
  if needed s.keyStart ∨ s.outerStarts.any needed then none
  else
    some { s with
      keyStart := if stale s.keyStart then none else s.keyStart
      outerStarts := s.outerStarts.map fun k => if stale k then none else k }

/-- Gives up the key that may have started within the innermost brackets. -/
def dropKey? (s : Scanner) : Option Scanner :=
  if s.keyStart.any (·.required) then none else some { s with keyStart := none }

def saveKey? (s : Scanner) (c : Cursor) : Option Scanner :=
  if s.keyAllowed then do
    let s ← s.dropKey?
    let required := ¬ s.bracketed ∧ s.blocks.head? = some c.column
    return { s with keyStart := some ⟨c.toPlace, s.tokens.size, required⟩ }
  else some s

/-- Closes the blocks of which a condition on their columns holds, from within. -/
def closeBlocks (s : Scanner) (closes : Nat → Bool) : Scanner :=
  if s.bracketed then s
  else
    { s with
      tokens := (s.blocks.takeWhile closes).foldl (fun tokens _ => tokens.push .blockEnd) s.tokens
      blocks := s.blocks.dropWhile closes }

/-- Opens a block at a column, unless it is open already, with its token behind some others. -/
def openBlock (s : Scanner) (column position : Nat) (t : Token) : Scanner :=
  if s.bracketed ∨ column < s.inner then s
  else
    { s with
      tokens := s.tokens.insertIdxIfInBounds position t
      blocks := column :: s.blocks }

/-- Skips blanks, comments and ends of lines. Outside of brackets the end of a line allows a key,
and a tab is no blank where a key may start. -/
def skipSpace (s : Scanner) (comment : Bool) (p : Place) : List Char → Scanner × Cursor
  | [] => (s, ⟨p, []⟩)
  | c :: rest =>
    if isBreak c then skipSpace (s.allowKey (s.keyAllowed ∨ ¬ s.bracketed)) false p.nextLine rest
    else if comment then skipSpace s true (p.next c) rest
    else if c = ' ' ∨ (c = '\t' ∧ (s.bracketed ∨ ¬ s.keyAllowed)) ∨
        (c = byteOrderMark ∧ p.column = 0) then
      skipSpace s false (p.next c) rest
    else if c = '#' then skipSpace s true (p.next c) rest
    else (s, ⟨p, c :: rest⟩)

/-- A directive or a document mark closes all blocks. -/
def closeAll? (s : Scanner) : Option Scanner := do
  return (← (s.closeBlocks fun _ => true).dropKey?).allowKey false

def openBracket? (s : Scanner) (c : Cursor) (t : Token) : Option (Scanner × Cursor) := do
  let s ← s.saveKey? c
  let s := { s with keyStart := none, outerStarts := s.keyStart :: s.outerStarts }
  return ((s.allowKey true).push t, c.skip 1)

def closeBracket? (s : Scanner) (c : Cursor) (t : Token) : Option (Scanner × Cursor) := do
  let s ← s.dropKey?
  let s := { s with
    keyStart := s.outerStarts.head?.getD none
    outerStarts := s.outerStarts.tail }
  return ((s.allowKey false).push t, c.skip 1)

def comma? (s : Scanner) (c : Cursor) : Option (Scanner × Cursor) := do
  return (((← s.dropKey?).allowKey true).push .comma, c.skip 1)

def dash? (s : Scanner) (c : Cursor) : Option (Scanner × Cursor) := do
  if ¬ s.bracketed ∧ ¬ s.keyAllowed then none
  let s := s.openBlock c.column s.tokens.size .blockListStart
  return (((← s.dropKey?).allowKey true).push .dash, c.skip 1)

def keyMark? (s : Scanner) (c : Cursor) : Option (Scanner × Cursor) := do
  if ¬ s.bracketed ∧ ¬ s.keyAllowed then none
  let s := s.openBlock c.column s.tokens.size .blockRecordStart
  return (((← s.dropKey?).allowKey (¬ s.bracketed)).push .key, c.skip 1)

/-- The mark before a value. The key before it gets its mark now. -/
def valueMark? (s : Scanner) (c : Cursor) : Option (Scanner × Cursor) := do
  match s.keyStart with
  | some k =>
    let s := { s with tokens := s.tokens.insertIdxIfInBounds k.token .key, keyStart := none }
    let s := s.openBlock k.column k.token .blockRecordStart
    return ((s.allowKey false).push .value, c.skip 1)
  | none =>
    if ¬ s.bracketed ∧ ¬ s.keyAllowed then none
    let s := s.openBlock c.column s.tokens.size .blockRecordStart
    return ((s.allowKey (¬ s.bracketed)).push .value, c.skip 1)

def named? (s : Scanner) (c : Cursor) (t : String → Token) : Option (Scanner × Cursor) := do
  let s ← s.saveKey? c
  let (name, rest) ← Token.name? (c.rest.drop 1)
  return ((s.allowKey false).push (t name), c.moveTo rest)

def tagged? (s : Scanner) (c : Cursor) : Option (Scanner × Cursor) := do
  let s ← s.saveKey? c
  let (t, rest) ← Token.tag? s.bracketed c.rest
  return ((s.allowKey false).push t, c.moveTo rest)

def blockScalar? (s : Scanner) (c : Cursor) (folded : Bool) : Option (Scanner × Cursor) := do
  let s ← s.dropKey?
  let (text, c) ← Block.scan? folded s.inner (c.skip 1)
  return ((s.allowKey true).push (.scalar (if folded then .folded else .literal) text), c)

def quotedScalar? (s : Scanner) (c : Cursor) (double : Bool) : Option (Scanner × Cursor) := do
  let s ← s.saveKey? c
  let inside := c.skip 1
  let (text, c) ←
    if double then Quoted.double? .closed [] inside.toPlace inside.rest
    else Quoted.single? .closed [] inside.toPlace inside.rest
  return ((s.allowKey false).push (.scalar .quoted text), c)

/-- A plain scalar. If its line ended a key may start behind it. -/
def plainScalar? (s : Scanner) (c : Cursor) : Option (Scanner × Cursor) := do
  let s ← s.saveKey? c
  let r ← Plain.scan? s.bracketed s.inner .closed [] c.toPlace c.rest
  return ((s.allowKey r.endsLine).push (.scalar .plain r.text), r.cursor)

def directiveLine? (s : Scanner) (c : Cursor) : Option (Scanner × Cursor) := do
  let s ← s.closeAll?
  let (t, rest) ← Token.directive? (c.rest.drop 1)
  return (s.push t, ← (c.moveTo rest).skipLine?)

def documentMark? (s : Scanner) (c : Cursor) : Option (Scanner × Cursor) := do
  let s ← s.closeAll?
  return (s.push (if c.rest.head? = some '-' then .documentStart else .documentEnd), c.skip 3)

def token? (s : Scanner) (c : Cursor) (head : Char) (tail : List Char) :
    Option (Scanner × Cursor) :=
  if c.column = 0 ∧ head = '%' then s.directiveLine? c
  else if c.column = 0 ∧ isDocumentMark c.rest then s.documentMark? c
  else if head = '[' then s.openBracket? c .listStart
  else if head = '\x7b' then s.openBracket? c .recordStart
  else if head = ']' then s.closeBracket? c .listEnd
  else if head = '\x7d' then s.closeBracket? c .recordEnd
  else if head = ',' then s.comma? c
  else if head = '-' ∧ endsWord tail then s.dash? c
  else if head = '?' ∧ (s.bracketed ∨ endsWord tail) then s.keyMark? c
  else if head = ':' ∧ (s.bracketed ∨ endsWord tail) then s.valueMark? c
  else if head = '*' then s.named? c .alias
  else if head = '&' then s.named? c .anchor
  else if head = '!' then s.tagged? c
  else if head = '|' ∧ ¬ s.bracketed then s.blockScalar? c false
  else if head = '>' ∧ ¬ s.bracketed then s.blockScalar? c true
  else if head = '\'' then s.quotedScalar? c false
  else if head = '\x22' then s.quotedScalar? c true
  else if Plain.startsWith s.bracketed head tail then s.plainScalar? c
  else none

/-- The tokens of the rest of a text behind those so far. -/
def run? : Nat → Scanner → Cursor → Option (List Token)
  | 0, _, _ => none
  | fuel + 1, s, c =>
    let (s, c) := s.skipSpace false c.toPlace c.rest
    match c.rest with
    | [] => do
      let s ← (← s.dropStale? c).closeAll?
      return s.tokens.toList
    | head :: tail => do
      let s := (← s.dropStale? c).closeBlocks (c.column < ·)
      let (s, c) ← s.token? c head tail
      run? fuel s c

end Scanner

/-- The tokens of a text. Each takes at least one character, so their number is bounded. -/
def Token.scan? (text : List Char) : Option (List Token) :=
  if text.all isAllowed then
    let text := unifyBreaks text
    Scanner.run? (text.length + 1) .start (.start text)
  else none

end ChipEight.Yaml

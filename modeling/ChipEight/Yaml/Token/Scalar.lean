import ChipEight.Text.Hex
import ChipEight.Yaml.Cursor

/-!
# Plain and quoted scalars

A scalar without quotes ends before a comment, before the mark of a value and, within brackets,
before a bracket or a comma; outside of brackets it goes on over lines that are indented deeper than
the block around it. Between single quotes only the quote itself is special and is written twice;
between double quotes a backslash starts an escape. All of them may go on over several lines, which
are folded.
-/
namespace ChipEight.Yaml.Plain

structure Read where
  text : String
  /-- Whether the scalar was followed by the end of a line. -/
  endsLine : Bool
  cursor : Cursor

/-- Whether a character and what follows it can start a plain scalar. -/
def startsWith (bracketed : Bool) (c : Char) (rest : List Char) : Bool :=
  if c = '-' then (rest.head?.all fun a => ¬ isBlank a)
  else if c = '?' ∨ c = ':' then ¬ bracketed ∧ ¬ endsWord rest
  else ¬ endsWord [c] ∧ ¬ isBracket c ∧
    c ∉ ['#', '&', '*', '!', '|', '>', '\'', '\x22', '%', '@', '\x60']

/-- Whether a scalar ends before a character, where nothing is between that and what was read. -/
def endsBefore (bracketed : Bool) (c : Char) (rest : List Char) : Bool :=
  (c = ':' ∧ endsWord rest) ∨ (bracketed ∧ isBracket c)

/-- Whether the mark of a value runs into a bracket, which is refused. -/
def isAmbiguous (bracketed : Bool) (c : Char) (rest : List Char) : Bool :=
  bracketed ∧ c = ':' ∧ rest.head?.any fun a => a = '?' ∨ isBracket a

/-- Whether the text after a gap does not belong to the scalar any more. -/
def endsAfter (bracketed : Bool) (indent column : Nat) (gap : Gap) (input : List Char) : Bool :=
  gap.isOpen ∧ (input.head? = some '#' ∨ (column = 0 ∧ isDocumentMark input) ∨
    (¬ bracketed ∧ gap.hasLines ∧ column < indent))

/-- The rest of a plain scalar; `read` holds what was read, last character first. A tab must not
stand in the indentation of a line. -/
def scan? (bracketed : Bool) (indent : Nat) (gap : Gap) (read : List Char) (p : Place) :
    List Char → Option Read
  | [] => some ⟨String.ofList read.reverse, gap.hasLines, ⟨p, []⟩⟩
  | c :: rest =>
    if isBlank c then
      if c = '\t' ∧ gap.hasLines ∧ p.column < indent then none
      else scan? bracketed indent (gap.addBlank c) read (p.next c) rest
    else if isBreak c then scan? bracketed indent (gap.addBreak c) read p.nextLine rest
    else if endsAfter bracketed indent p.column gap (c :: rest) then
      some ⟨String.ofList read.reverse, gap.hasLines, ⟨p, c :: rest⟩⟩
    else if isAmbiguous bracketed c rest then none
    else if endsBefore bracketed c rest then
      some ⟨String.ofList read.reverse, gap.hasLines, ⟨p, c :: rest⟩⟩
    else scan? bracketed indent .closed (c :: (gap.folded ++ read)) (p.next c) rest

end ChipEight.Yaml.Plain

namespace ChipEight.Yaml.Quoted

def numbered? (count : Nat) (rest : List Char) : Option (Char × Nat) := do
  let digits ← (rest.take count).mapM Text.Hex.value?
  let number := digits.foldl (fun n d => 16 * n + d.val) 0
  if digits.length = count ∧ (number < 0xD800 ∨ (0xE000 ≤ number ∧ number < 0x110000)) then
    return (Char.ofNat number, count)
  else none

/-- The character of an escape by the character after the backslash, and how many more characters it
takes. -/
def escape? (c : Char) (rest : List Char) : Option (Char × Nat) :=
  match c with
  | '0' => some ('\x00', 0)
  | 'a' => some ('\x07', 0)
  | 'b' => some ('\x08', 0)
  | 't' | '\t' => some ('\t', 0)
  | 'n' => some ('\n', 0)
  | 'v' => some ('\x0b', 0)
  | 'f' => some ('\x0c', 0)
  | 'r' => some ('\r', 0)
  | 'e' => some ('\x1b', 0)
  | ' ' | '\x22' | '/' | '\x5c' => some (c, 0)
  | 'N' => some ('\u0085', 0)
  | '_' => some ('\u00a0', 0)
  | 'L' => some ('\u2028', 0)
  | 'P' => some ('\u2029', 0)
  | 'x' => numbered? 2 rest
  | 'u' => numbered? 4 rest
  | 'U' => numbered? 8 rest
  | _ => none

/-- The rest of a scalar between single quotes; `read` holds what was read, last character first. -/
def single? (gap : Gap) (read : List Char) (p : Place) : List Char → Option (String × Cursor)
  | [] => none
  | c :: rest =>
    if isBlank c then single? (gap.addBlank c) read (p.next c) rest
    else if isBreak c then single? (gap.addBreak c) read p.nextLine rest
    else if p.column = 0 ∧ isDocumentMark (c :: rest) then none
    else
      let read := gap.folded ++ read
      if c = '\'' then
        match rest with
        | '\'' :: rest => single? .closed ('\'' :: read) ((p.next c).next c) rest
        | _ => some (String.ofList read.reverse, ⟨p.next c, rest⟩)
      else single? .closed (c :: read) (p.next c) rest

def double? (gap : Gap) (read : List Char) (p : Place) (input : List Char) :
    Option (String × Cursor) :=
  match input with
  | [] => none
  | c :: rest =>
    if isBlank c then double? (gap.addBlank c) read (p.next c) rest
    else if isBreak c then double? (gap.addBreak c) read p.nextLine rest
    else if p.column = 0 ∧ isDocumentMark (c :: rest) then none
    else
      let read := gap.folded ++ read
      if c = '\x22' then some (String.ofList read.reverse, ⟨p.next c, rest⟩)
      else if c = '\x5c' then
        match rest with
        | [] => none
        | e :: rest =>
          if isBreak e then double? (.lines none []) read p.nextLine rest
          else
            match escape? e rest with
            | some (a, count) =>
              let p := (rest.take count).foldl Place.next ((p.next c).next e)
              double? .closed (a :: read) p (rest.drop count)
            | none => none
      else double? .closed (c :: read) (p.next c) rest
termination_by input.length
decreasing_by all_goals simp only [List.length_cons, List.length_drop]; omega

end ChipEight.Yaml.Quoted

import ChipEight.Screen
import ChipEight.Text.Hex

/-!
# Reading dumps

A text that is written line after line, each of them ended, is cut again where the lines end. The
lines of a dump are read without the memory or the screen that they were written from.
-/
namespace ChipEight.Text

/-- The text of lines, each ended. -/
def unlines (lines : List String) : String := lines.foldl (fun text line => text ++ line ++ "\n") ""

/-- The lines that end in a text. What follows the last end is no line. -/
def lines : List Char → List (List Char)
  | [] => []
  | c :: rest => if c = '\n' then [] :: lines rest else (lines rest).modifyHead (c :: ·)

theorem toList_foldl_line (lines : List String) (text : String) :
    (lines.foldl (fun text line => text ++ line ++ "\n") text).toList =
      text.toList ++ lines.flatMap fun line => line.toList ++ ['\n'] := by
  induction lines generalizing text with
  | nil => simp
  | cons line rest ih => simp [ih]

theorem lines_append {line : List Char} (h : '\n' ∉ line) (rest : List Char) :
    lines (line ++ '\n' :: rest) = line :: lines rest := by
  induction line with
  | nil => rfl
  | cons c line ih =>
    have hc : c ≠ '\n' := fun hc => h (hc ▸ List.mem_cons_self)
    have hline : '\n' ∉ line := fun hmem => h (List.mem_cons_of_mem c hmem)
    rw [List.cons_append, lines, if_neg hc, ih hline]
    rfl

/-- A text of lines is cut into these lines, as long as none of them is broken. -/
theorem lines_unlines {written : List String} (h : ∀ line ∈ written, '\n' ∉ line.toList) :
    lines (unlines written).toList = written.map String.toList := by
  rw [unlines, toList_foldl_line, String.toList_empty, List.nil_append]
  induction written with
  | nil => rfl
  | cons line rest ih =>
    have hrest := ih fun other hmem => h other (List.mem_cons_of_mem line hmem)
    rw [List.flatMap_cons, List.append_assoc, List.singleton_append,
      lines_append (h line List.mem_cons_self), hrest]
    rfl

namespace Dump

/-- An address and the bytes from there on. -/
structure Entry where
  address : Nat
  bytes : List UInt8
deriving DecidableEq

/-- Reads a line: the address up to the colon, a blank, and two digits for each byte. -/
def line? (line : List Char) : Option Entry :=
  match line.dropWhile (· ≠ ':') with
  | ':' :: ' ' :: bytes => do
    let address ← Hex.number? (line.takeWhile (· ≠ ':'))
    return ⟨address, ← Hex.bytes? bytes⟩
  | _ => none

/-- The bytes of all lines. Each has to begin where the one before it ends, the first at `start`. -/
def bytes? (start : Nat) : List (List Char) → Option (List UInt8)
  | [] => some []
  | line :: rest => do
    let entry ← line? line
    if entry.address = start then
      return entry.bytes ++ (← bytes? (start + entry.bytes.length) rest)
    else none

def lit? (mark : Char) : Option Bool :=
  if mark = '#' then some true else if mark = '.' then some false else none

/-- The screen with the marks of all lines, row by row. -/
def screen? (lines : List (List Char)) : Option Screen := do
  let pixels ← lines.flatten.mapM lit?
  if h : pixels.length = 2048 then return ⟨⟨pixels.toArray, h⟩⟩ else none

end Dump

end ChipEight.Text

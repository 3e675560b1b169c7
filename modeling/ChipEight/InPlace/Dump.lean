import ChipEight.Memory
import ChipEight.Screen

/-!
# Dumps in place

Memory is cut into words and the screen into rows, and each piece is written behind the text so far.
A piece that lacks a byte to be written ends the dump without a text.
-/
namespace ChipEight.InPlace

open Text (Hex.fixed)

/-- Pieces of `size` one after another. What is left at the end and too short for one is dropped. -/
def chunks {α : Type} (size : Nat) (l : List α) : List (List α) :=
  (List.range (l.length / size)).map fun k => (l.drop (size * k)).take size

/-- Writes the line of a word, the address from the number of the word. -/
def writeWord (text : String) : List UInt8 × Nat → Option String
  | (word, number) => do
    let high ← word[0]?
    let low ← word[1]?
    return text ++ (Hex.fixed 4 (number * 2) ++ ": " ++ Hex.fixed 2 high.toNat ++
      Hex.fixed 2 low.toNat) ++ "\n"

/-- The words of a memory from the program start on that fit into `count` bytes. -/
def dumpMemory (memory : Vector UInt8 4096) (count : Nat) : Option String :=
  let words := (chunks 2 memory.toList).zipIdx
  let listed := (words.drop (Memory.programStart / 2)).take (count / 2)
  listed.foldlM writeWord ""

/-- Writes the marks of a row pixel by pixel. -/
def writeRow (text : String) (row : List Bool) : String :=
  (row.foldl (fun text lit => text.push (if lit then '#' else '.')) text).push '\n'

def dumpScreen (display : Vector Bool 2048) : String :=
  (chunks Screen.width display.toList).foldl writeRow ""

end ChipEight.InPlace

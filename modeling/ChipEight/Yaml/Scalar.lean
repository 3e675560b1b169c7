import ChipEight.Text.Hex
import ChipEight.Yaml.Token.Basic

/-!
# Notations of scalars

The forms in which scalars say null, a truth value, a whole number or a real number. Whole numbers
are written in base ten, or behind a mark in base sixteen, eight or two. Real numbers must be within
the range of floating point numbers of sixty-four bits.
-/
namespace ChipEight.Yaml

/-- A whole number with its sign, so that `-0` differs from `0`. -/
structure Integer where
  negative : Bool
  size : Nat
deriving DecidableEq

namespace Integer

/-- Whether a number has at most some bits, with a sign or without. -/
def fits (n : Integer) (bits : Nat) : Bool :=
  if n.negative then n.size ≤ Nat.pow 2 (bits - 1) else n.size < Nat.pow 2 bits

/-- The number without its notation. -/
def toInt (n : Integer) : Int := if n.negative then -n.size else n.size

end Integer

namespace Scalar

def digits? (base : Nat) : List Char → Option Nat
  | [] => none
  | digits => digits.foldlM (fun n c => do
      let d ← Text.Hex.value? c
      if d.val < base then return base * n + d.val else none) 0

/-- A whole number without a sign. In base ten it has no leading zeros. -/
def magnitude? : List Char → Option Nat
  | '0' :: 'x' :: digits => digits? 16 digits
  | '0' :: 'o' :: digits => digits? 8 digits
  | '0' :: 'b' :: digits => digits? 2 digits
  | digits => if digits.length > 1 ∧ digits.head? = some '0' then none else digits? 10 digits

def integer? (text : String) : Option Integer :=
  match text.toList with
  | '-' :: digits => (magnitude? digits).map (⟨true, ·⟩)
  | '+' :: digits => (magnitude? digits).map (⟨false, ·⟩)
  | digits => (magnitude? digits).map (⟨false, ·⟩)

/-- A truth value in one of its spellings. -/
def boolean? (text : String) : Option Bool :=
  if text ∈ ["true", "True", "TRUE"] then some true
  else if text ∈ ["false", "False", "FALSE"] then some false
  else none

def isNull (text : String) : Bool := text ∈ ["null", "Null", "NULL", "~"]

/-- The power of ten behind the digits of a real number, if there is one. -/
def power? : List Char → Option Int
  | [] => some 0
  | c :: rest =>
    if c = 'e' ∨ c = 'E' then
      match rest with
      | '-' :: digits => (digits? 10 digits).map fun n => -n
      | '+' :: digits => (digits? 10 digits).map fun n => n
      | digits => (digits? 10 digits).map fun n => n
    else none

/-- The digits of a real number without a sign, those of its whole part and its fraction together,
and the power of ten of the last one. -/
def decimal? (text : List Char) : Option (Nat × Int) := do
  let whole := text.takeWhile Char.isDigit
  let rest := text.dropWhile Char.isDigit
  let (fraction, rest) := match rest with
    | '.' :: rest => (rest.takeWhile Char.isDigit, rest.dropWhile Char.isDigit)
    | _ => ([], rest)
  let digits ← digits? 10 (whole ++ fraction)
  return (digits, (← power? rest) - fraction.length)

/-- The least number that is rounded to infinity: half a unit above the last finite one. -/
def infinite : Nat := Nat.pow 2 1024 - Nat.pow 2 970

/-- Whether a number of digits and a power of ten is rounded to a finite one. Far from the bound the
number of digits decides. -/
def isFinite (digits : Nat) (power : Int) : Bool :=
  let places : Int := (Nat.toDigits 10 digits).length + power
  if digits = 0 ∨ places < 300 then true
  else if 320 < places then false
  else digits * Nat.pow 10 power.toNat < infinite * Nat.pow 10 (-power).toNat

/-- Whether a scalar without a plus sign says a real number. -/
def isUnsignedReal (text : List Char) : Bool :=
  let size := if text.head? = some '-' then text.tail else text
  (decimal? size).any fun (digits, power) => isFinite digits power

/-- Whether a scalar says a real number, infinity or that it is no number. -/
def isReal (text : String) : Bool :=
  match text.toList with
  | '+' :: rest => rest.head? ≠ some '-' ∧
    (isUnsignedReal rest ∨ text ∈ ["+.inf", "+.Inf", "+.INF"])
  | rest => isUnsignedReal rest ∨
    text ∈ [".inf", ".Inf", ".INF", "-.inf", "-.Inf", "-.INF", ".nan", ".NaN", ".NAN"]

end Scalar

end ChipEight.Yaml

/-!
# Shortest decimals

A floating point number stands for all real numbers that round to it. It is written with the fewest
digits that name one of them: on the coarsest decimal grid that has a point among them, the nearest
point is taken.
-/
namespace ChipEight

/-- A number `digits * 10 ^ power`. -/
structure Decimal where
  digits : Nat
  power : Int
deriving DecidableEq

namespace Decimal

def twoTo (n : Nat) : Nat := Nat.pow 2 n

def tenTo (n : Nat) : Nat := Nat.pow 10 n

/-- A magnitude in quarters of its last binary place, `4 * mantissa`, with the bounds of the reals
that round to it; the bounds belong to it when the mantissa is even. -/
structure Interval where
  value : Nat
  lower : Nat
  upper : Nat
  closed : Bool
  /-- The power of two of a quarter. -/
  power : Int
deriving DecidableEq

/-- The interval of a finite number by its bits, sign left out. Below a power of two the neighbours
are half as far away. -/
def Interval.ofBits (bits : UInt64) : Interval :=
  let fraction := bits.toNat % twoTo 52
  let exponent := bits.toNat / twoTo 52 % twoTo 11
  let mantissa := if exponent = 0 then fraction else fraction + twoTo 52
  let below := if fraction = 0 ∧ 1 < exponent then 1 else 2
  ⟨4 * mantissa, 4 * mantissa - below, 4 * mantissa + 2, mantissa % 2 = 0,
    (max exponent 1 : Nat) - 1077⟩

/-- The scale of an interval over that of a grid, as a fraction of natural numbers. -/
def Interval.scale (i : Interval) (power : Int) : Nat × Nat :=
  (twoTo i.power.toNat * tenTo (-power).toNat, tenTo power.toNat * twoTo (-i.power).toNat)

/-- The point of a grid that an interval holds, of two the nearer, of two equally near the even
one. -/
def Interval.point? (i : Interval) (power : Int) : Option Nat :=
  let (num, den) := i.scale power
  let holds (d : Nat) : Bool :=
    if i.closed then i.lower * num ≤ d * den ∧ d * den ≤ i.upper * num
    else i.lower * num < d * den ∧ d * den < i.upper * num
  let below := i.value * num / den
  let fromBelow := i.value * num - below * den
  let nearerBelow := 2 * fromBelow < den ∨ (2 * fromBelow = den ∧ below % 2 = 0)
  match holds below, holds (below + 1) with
  | true, true => some (if nearerBelow then below else below + 1)
  | true, false => some below
  | false, true => some (below + 1)
  | false, false => none

/-- The powers of ten of all grids that can matter, coarsest first. -/
def grids : List Int := (List.range 640).map fun (k : Nat) => 310 - (k : Int)

def ofInterval (i : Interval) : Decimal :=
  (grids.findSome? fun power => (i.point? power).map fun digits => ⟨digits, power⟩).getD ⟨0, 0⟩

/-- Positional when the point falls at most four zeros before the digits and at most at the
sixteenth place, else with one digit before the point and a signed power of ten. A positional number
has a digit on each side of its point. -/
def text (d : Decimal) : String :=
  let digits := (Nat.repr d.digits).toList
  let point : Int := digits.length + d.power
  if d.digits = 0 then "0.0"
  else if 0 ≤ d.power ∧ point ≤ 16 then
    String.ofList (digits ++ List.replicate d.power.toNat '0') ++ ".0"
  else if 0 < point ∧ point ≤ 16 then
    String.ofList (digits.take point.toNat) ++ "." ++ String.ofList (digits.drop point.toNat)
  else if -5 < point ∧ point ≤ 0 then
    "0." ++ String.ofList (List.replicate (-point).toNat '0' ++ digits)
  else
    String.ofList (digits.take 1) ++ (if digits.length = 1 then "" else ".") ++
      String.ofList (digits.drop 1) ++ "e" ++ (if point < 1 then "-" else "+") ++
      Nat.repr (point - 1).natAbs

def ofFloat (x : Float) : String :=
  let bits := x.toBits
  let sign := if bits.toNat / twoTo 63 = 1 then "-" else ""
  if bits.toNat / twoTo 52 % twoTo 11 = 2047 then
    if bits.toNat % twoTo 52 = 0 then sign ++ "inf" else "NaN"
  else sign ++ (ofInterval (.ofBits bits)).text

end Decimal

end ChipEight

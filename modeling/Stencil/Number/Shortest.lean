import Stencil.Number.Double

/-!
# The shortest decimal text of a double

Of all decimals that round to a number, the one with the fewest digits stands for it, and of
several with equally few digits the one nearest to the number, on a tie the one whose last digit
is even. The decimals that round to a number fill an interval around it, which includes its ends
iff the mantissa is even; a decimal grid has a point in the interval only if one of the number's
two neighbours on the grid is such a point, so only these are tried.

`Layout` says how the digits are then written.
-/

set_option autoImplicit false

namespace Stencil.Double

/-- An interval around `num / den` of numbers that round to it: the distances to its ends, over
the same denominator, and whether the ends belong to it. -/
structure Interval where
  num : Nat
  den : Nat
  below : Nat
  above : Nat
  closed : Bool

/-- The interval of a positive finite number. The gap to the next lower number is half as wide at
the lower end of a binade, except in the lowest. -/
def interval (mantissa : Nat) (exponent : Int) : Interval :=
  let unit := scale 2 4 exponent
  let narrow := mantissa = leastMantissa && -1074 < exponent
  { num := mantissa * unit.1
    den := 4 * unit.2
    below := if narrow then unit.1 / 4 else unit.1 / 2
    above := unit.1 / 2
    closed := mantissa % 2 = 0 }

/-- Whether `point * 10 ^ grid` rounds to the number of the interval. -/
def Interval.holds (i : Interval) (point : Nat) (grid : Int) : Bool :=
  let ratio := scale 10 point grid
  let here := ratio.1 * i.den
  let low := (i.num - i.below) * ratio.2
  let high := (i.num + i.above) * ratio.2
  if i.closed then low ≤ here && here ≤ high else low < here && here < high

/-- The place of the decimal point: the number is below `10 ^ place` and at least
`10 ^ (place - 1)`. -/
def Interval.place (i : Interval) : Int :=
  let guess : Int := (Nat.toDigits 10 i.num).length - (Nat.toDigits 10 i.den).length
  let power := scale 10 1 guess
  if i.num * power.2 < power.1 * i.den then guess else guess + 1

/-- The better of the two neighbours of the number on the grid `10 ^ grid` that round to it. -/
def Interval.onGrid (i : Interval) (grid : Int) : Option Nat :=
  let step := scale 10 1 grid
  let num := i.num * step.2
  let den := i.den * step.1
  let low := num / den
  let twice := 2 * (num % den)
  match i.holds low grid, i.holds (low + 1) grid with
  | true, true => some (if twice < den || (twice = den && low % 2 = 0) then low else low + 1)
  | true, false => some low
  | false, true => some (low + 1)
  | false, false => none

/-- Tries the grids that leave `count`, `count + 1`, … digits, `tries` of them. -/
def Interval.search (i : Interval) (count : Nat) : Nat → Nat × Int
  | 0 => (0, 0)
  | tries + 1 =>
    let grid := i.place - count
    match i.onGrid grid with
    | some point => (point, grid)
    | none => i.search (count + 1) tries

/-- The shortest decimal of a positive finite number as digits and the place of the point: the
number reads `0.digits * 10 ^ place`. Seventeen digits always suffice. -/
def shortest (mantissa : Nat) (exponent : Int) : List Char × Int :=
  let found := (interval mantissa exponent).search 1 17
  let all := Nat.toDigits 10 found.1
  let digits := (all.reverse.dropWhile (· == '0')).reverse
  (digits, found.2 + all.length)

/-- How the digits of a number are written. -/
structure Layout where
  /-- The least exponent that is written with leading zeros. -/
  leastPositional : Int
  /-- The first exponent that is written with an exponent again. -/
  leastLarge : Int
  /-- The least number of digits of an exponent. -/
  exponentDigits : Nat
  notANumber : String
  infinite : String

/-- Positional from `10 ^ (-4)` and below `10 ^ 16`, otherwise with a signed exponent of at least
two digits. -/
def Layout.plain : Layout := ⟨-4, 16, 2, "nan", "inf"⟩

/-- The text of the digits with the point at `place`. -/
def Layout.write (layout : Layout) (digits : List Char) (place : Int) : List Char :=
  let exponent := place - 1
  if layout.leastPositional ≤ exponent && exponent < layout.leastLarge then
    if place ≤ 0 then ['0', '.'] ++ List.replicate place.natAbs '0' ++ digits
    else
      let whole := place.toNat
      let fraction := digits.drop whole
      digits.take whole ++ List.replicate (whole - digits.length) '0' ++ ['.']
        ++ (if fraction.isEmpty then ['0'] else fraction)
  else
    let power := Nat.toDigits 10 exponent.natAbs
    digits.take 1 ++ (if digits.length ≤ 1 then [] else '.' :: digits.drop 1)
      ++ ['e', if exponent < 0 then '-' else '+']
      ++ List.replicate (layout.exponentDigits - power.length) '0' ++ power

def text (x : Double) : String :=
  let sign (negative : Bool) : List Char := if negative then ['-'] else []
  String.ofList <|
    match x with
    | .notANumber => Layout.plain.notANumber.toList
    | .infinite negative => sign negative ++ Layout.plain.infinite.toList
    | .finite negative mantissa exponent =>
      let digits := if mantissa = 0 then (['0'], 1) else shortest mantissa exponent
      sign negative ++ Layout.plain.write digits.1 digits.2

end Stencil.Double

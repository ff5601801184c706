/-!
# Numbers of double precision

A finite number is a whole `mantissa` below `2 ^ 53` times a power of two no smaller than
`2 ^ (-1074)`, with a sign of its own, so that there are two zeros. It is held exactly, and the
arithmetic that rounds to it works on natural numbers. A finite number that is not in the lowest
binade has a mantissa of at least `2 ^ 52`; written that way no number has two forms.
-/

set_option autoImplicit false

namespace Stencil

inductive Double
  | notANumber
  | infinite (negative : Bool)
  | finite (negative : Bool) (mantissa : Nat) (exponent : Int)
deriving DecidableEq, Repr

namespace Double

/-- The numerator and denominator of `n * base ^ exponent`. -/
def scale (base n : Nat) (exponent : Int) : Nat × Nat :=
  if exponent < 0 then (n, Nat.pow base exponent.natAbs)
  else (n * Nat.pow base exponent.natAbs, 1)

/-- The least mantissa above the lowest binade: the least number of 53 binary digits. -/
def leastMantissa : Nat := Nat.pow 2 52

/-- What every mantissa is below. -/
def mantissaLimit : Nat := Nat.pow 2 53

/-- The whole number next to a ratio; a tie goes to the even one. -/
def roundRatio (num den : Nat) : Nat :=
  let quotient := num / den
  let twice := 2 * (num % den)
  if twice < den || (twice = den && quotient % 2 = 0) then quotient else quotient + 1

/-- The exponent at which a positive ratio has 53 binary digits before the point, or the lowest
exponent if it has fewer there. -/
def binaryExponent (num den : Nat) : Int :=
  let guess : Int := (num.log2 : Int) - (den.log2 : Int) - 52
  let scaled := scale 2 den guess
  let exponent := if num * scaled.2 < scaled.1 * leastMantissa then guess - 1 else guess
  max exponent (-1074)

/-- The number nearest to a ratio, to the even mantissa on a tie. -/
def ofRatio (negative : Bool) (num den : Nat) : Double :=
  if num = 0 then .finite negative 0 (-1074)
  else
    let exponent := binaryExponent num den
    let scaled := scale 2 den exponent
    let mantissa := roundRatio (num * scaled.2) scaled.1
    let carried := mantissa = mantissaLimit
    let mantissa := if carried then leastMantissa else mantissa
    let exponent := if carried then exponent + 1 else exponent
    if 971 < exponent then .infinite negative else .finite negative mantissa exponent

/-- The number nearest to `digits * 10 ^ exponent`. Powers far outside the range of the type are
settled by the number of digits alone. -/
def ofDecimal (negative : Bool) (digits : Nat) (exponent : Int) : Double :=
  if digits = 0 then .finite negative 0 (-1074)
  else
    let magnitude : Int := (Nat.toDigits 10 digits).length + exponent
    if 400 < magnitude then .infinite negative
    else if magnitude < -400 then .finite negative 0 (-1074)
    else
      let ratio := scale 10 digits exponent
      ofRatio negative ratio.1 ratio.2

def isNegative : Double → Bool
  | .notANumber => false
  | .infinite negative => negative
  | .finite negative _ _ => negative

def isZero : Double → Bool
  | .finite _ mantissa _ => mantissa == 0
  | _ => false

def negate : Double → Double
  | .notANumber => .notANumber
  | .infinite negative => .infinite (!negative)
  | .finite negative mantissa exponent => .finite (!negative) mantissa exponent

/-- The exact size of a finite number, as numerator and denominator, and whether it is negative. -/
def ratio? : Double → Option (Bool × Nat × Nat)
  | .finite negative mantissa exponent => some (negative, scale 2 mantissa exponent)
  | _ => none

/-- The sum, rounded to the nearest number. Two zeros of unlike signs make the positive one, and so
do two numbers that cancel. -/
def add (x y : Double) : Double :=
  match x, y with
  | .notANumber, _ => .notANumber
  | _, .notANumber => .notANumber
  | .infinite a, .infinite b => if a = b then .infinite a else .notANumber
  | .infinite a, _ => .infinite a
  | _, .infinite b => .infinite b
  | .finite a m e, .finite b n f =>
    let left := scale 2 m e
    let right := scale 2 n f
    let here : Int := (left.1 * right.2 : Nat)
    let there : Int := (right.1 * left.2 : Nat)
    let total := (if a then -here else here) + (if b then -there else there)
    ofRatio (if total = 0 then a && b else total < 0) total.natAbs (left.2 * right.2)

def multiply (x y : Double) : Double :=
  let negative := x.isNegative != y.isNegative
  match x.ratio?, y.ratio? with
  | some (_, left), some (_, right) => ofRatio negative (left.1 * right.1) (left.2 * right.2)
  | _, _ =>
    if x = .notANumber || y = .notANumber || x.isZero || y.isZero then .notANumber
    else .infinite negative

/-- The whole number that this number is, if it is one. -/
def toInt? : Double → Option Int
  | .finite negative mantissa exponent =>
    let ratio := scale 2 mantissa exponent
    if ratio.1 % ratio.2 = 0 then
      let size : Int := (ratio.1 / ratio.2 : Nat)
      some (if negative then -size else size)
    else none
  | _ => none

end Double

end Stencil

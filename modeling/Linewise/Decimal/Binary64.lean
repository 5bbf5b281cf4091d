/-!
# Double-precision numbers

Measurements and settings are double-precision binary numbers: a significand of
53 bits times a power of two. A number is kept as these two parts, so that every
operation is exact integer arithmetic followed by one rounding: to the nearest
natural number, a half to the even one of its two neighbours.

## Main definitions

* `roundDiv` — a rounded quotient.
* `Binary64` — a double-precision number.
* `Binary64.ofRatio` — the number nearest to a fraction.
* `Binary64.ofInt`, `Binary64.add`, `Binary64.div`, `Binary64.le`.
* `Binary64.toNat`, `Binary64.toInt64` — the whole part.
-/

namespace Linewise

/-- **The quotient rounded to the nearest natural number**, a half to the even neighbour. -/
def roundDiv (num den : Nat) : Nat :=
  let floor := num / den
  let twice := 2 * (num % den)
  if twice < den then floor
  else if den < twice then floor + 1
  else floor + floor % 2

/-- **A double-precision number.** A finite one is `mantissa * 2 ^ exponent` with a sign; its
mantissa has 53 bits, or fewer when the exponent is the least one. -/
inductive Binary64 where
  /-- A finite number. -/
  | finite (negative : Bool) (mantissa : Nat) (exponent : Int)
  /-- An infinite number. -/
  | infinite (negative : Bool)
  /-- Not a number. -/
  | nan
deriving DecidableEq, Repr

namespace Binary64

/-- The number of bits of a full mantissa. -/
def precision : Nat := 53

/-- The least exponent. -/
def minExponent : Int := -1074

/-- The greatest exponent. -/
def maxExponent : Int := 971

/-- Zero. -/
def zero : Binary64 := finite false 0 minExponent

/-- The number `num / (den * 2 ^ exponent)` rounded to a natural number. -/
def scaledDiv (num den : Nat) (exponent : Int) : Nat :=
  roundDiv (num * Nat.pow 2 (-exponent).toNat) (den * Nat.pow 2 exponent.toNat)

/-- The exponent at which the rounded mantissa of `num / den` has its 53 bits, or the least
one. -/
def exponentOf (num den : Nat) : Int :=
  let guess : Int := (num.log2 : Int) - den.log2 - (precision - 1)
  let low :=
    num * Nat.pow 2 (-guess).toNat < den * Nat.pow 2 guess.toNat * Nat.pow 2 (precision - 1)
  max minExponent (if low then guess - 1 else guess)

/-- **The number nearest to a fraction**; a tie goes to the even mantissa, and what is too large
is infinite. -/
def ofRatio (negative : Bool) (num den : Nat) : Binary64 :=
  if num = 0 then finite negative 0 minExponent
  else
    let exponent := exponentOf num den
    let mantissa := scaledDiv num den exponent
    let carried := mantissa = Nat.pow 2 precision
    let exponent := if carried then exponent + 1 else exponent
    let mantissa := if carried then Nat.pow 2 (precision - 1) else mantissa
    if maxExponent < exponent then infinite negative else finite negative mantissa exponent

/-- The number nearest to an integer. -/
def ofInt (n : Int) : Binary64 :=
  ofRatio (n < 0) n.natAbs 1

/-- The exact value of a mantissa and an exponent as a fraction: numerator and denominator. -/
def ratio (mantissa : Nat) (exponent : Int) : Nat × Nat :=
  (mantissa * Nat.pow 2 exponent.toNat, Nat.pow 2 (-exponent).toNat)

/-- The signed multiple of the least power of two that a finite number is. -/
def units : Binary64 → Int
  | finite negative mantissa exponent =>
    let magnitude : Int := (mantissa * Nat.pow 2 (exponent - minExponent).toNat : Nat)
    if negative then -magnitude else magnitude
  | _ => 0

/-- The sum of two finite numbers. -/
def add (x y : Binary64) : Binary64 :=
  let sum := x.units + y.units
  ofRatio (sum < 0) sum.natAbs (Nat.pow 2 (-minExponent).toNat)

/-- The quotient of two finite numbers, the second not zero. -/
def div (x y : Binary64) : Binary64 :=
  ofRatio ((x.units < 0) != (y.units < 0)) x.units.natAbs y.units.natAbs

/-- A number far from the bounds of the exponent, times a power of two: exact. -/
def scale (x : Binary64) (power : Nat) : Binary64 :=
  match x with
  | finite negative mantissa exponent => finite negative mantissa (exponent + power)
  | other => other

/-- Is the first of two finite numbers at most the second? -/
def le (x y : Binary64) : Bool :=
  x.units ≤ y.units

/-- The least 64-bit integer, which also stands for whole parts that do not fit. -/
def minInt64 : Int := -(Nat.pow 2 63 : Nat)

/-- The whole part of the magnitude of a finite number. -/
def whole (mantissa : Nat) (exponent : Int) : Nat :=
  (ratio mantissa exponent).1 / (ratio mantissa exponent).2

/-- The whole part of a number that is not negative. -/
def toNat : Binary64 → Nat
  | finite false mantissa exponent => whole mantissa exponent
  | _ => 0

/-- **The whole part of a number**, cut toward zero. What does not fit into 64 bits becomes the
least integer. -/
def toInt64 : Binary64 → Int
  | finite negative mantissa exponent =>
    let magnitude : Int := whole mantissa exponent
    let n := if negative then -magnitude else magnitude
    if minInt64 ≤ n && n < -minInt64 then n else minInt64
  | _ => minInt64

end Binary64

end Linewise

import Linewise.Bytes
import Linewise.Decimal.Binary64

/-!
# Reading decimal fractions

A decimal fraction has a sign, digits with at most one point among them, and
perhaps an exponent of ten. Its value is the nearest double-precision number.

## Main definitions

* `Fraction` — a fraction as it is written.
* `Fraction.read?` — reads one.
* `Fraction.toBinary64` — its value.
-/

namespace Linewise

/-- **A decimal fraction**: `digits * 10 ^ exponent` with a sign. -/
structure Fraction where
  /-- Is there a minus sign? -/
  negative : Bool
  /-- The digits before the point. -/
  whole : Bytes
  /-- The digits after the point. -/
  part : Bytes
  /-- Is there a point? -/
  pointed : Bool
  /-- The exponent of ten. -/
  power : Int
deriving DecidableEq, Repr

namespace Fraction

/-- The number that decimal digits stand for. -/
def number (digits : Bytes) : Nat :=
  digits.foldl (fun value b => 10 * value + (b.toNat - 0x30)) 0

/-- The exponent a text consists of: nothing, or a letter `e`, perhaps a sign, and digits. -/
def power? : Bytes → Option Int
  | [] => some 0
  | letter :: rest =>
    if letter ≠ ascii 'e' && letter ≠ ascii 'E' then none
    else
      let (negative, digits) : Bool × Bytes :=
        match rest with
        | 0x2D :: rest => (true, rest)
        | 0x2B :: rest => (false, rest)
        | rest => (false, rest)
      if digits.isEmpty || !digits.all Bytes.isDigit then none
      else if negative then some (-(number digits : Int))
      else some (number digits)

/-- Reads the digits and the exponent of a fraction. -/
def unsigned? (negative : Bool) (text : Bytes) : Option Fraction :=
  let whole := text.takeWhile Bytes.isDigit
  match text.dropWhile Bytes.isDigit with
  | 0x2E :: rest =>
    let part := rest.takeWhile Bytes.isDigit
    if whole.isEmpty && part.isEmpty then none
    else (power? (rest.dropWhile Bytes.isDigit)).map fun power =>
      ⟨negative, whole, part, true, power⟩
  | rest =>
    if whole.isEmpty then none
    else (power? rest).map fun power => ⟨negative, whole, [], false, power⟩

/-- **Reads a decimal fraction.** -/
def read? : Bytes → Option Fraction
  | 0x2D :: rest => unsigned? true rest
  | 0x2B :: rest => unsigned? false rest
  | text => unsigned? false text

/-- An exponent beyond which every number with fewer digits is infinite, or zero. -/
def farthest : Int := 2000

/-- **The value of a fraction**; `none` when it is too large. -/
def toBinary64 (fraction : Fraction) : Option Binary64 :=
  let digits := number (fraction.whole ++ fraction.part)
  let power := fraction.power - fraction.part.length
  let size : Int := (fraction.whole ++ fraction.part).length
  let value :=
    if digits = 0 || power + size < -farthest then Binary64.finite fraction.negative 0
      Binary64.minExponent
    else if farthest < power + size then
      if farthest < power then Binary64.infinite fraction.negative
      else
        Binary64.ofRatio fraction.negative (digits * Nat.pow 10 power.toNat)
          (Nat.pow 10 (-power).toNat)
    else
      Binary64.ofRatio fraction.negative (digits * Nat.pow 10 power.toNat)
        (Nat.pow 10 (-power).toNat)
  match value with
  | .infinite _ => none
  | value => some value

end Fraction

end Linewise

import Linewise.Bytes
import Linewise.Decimal.Binary64

/-!
# Decimal text of double-precision numbers

A number is written with the fewest significant digits that read back as the same
number; of several such decimals the nearest one is taken. It is written either
positionally or with an exponent of ten. A number may also be written with a
fixed number of places, rounded half to even on its exact value.

## Main definitions

* `Decimal` — digits and a power of ten.
* `Decimal.shortest` — the decimal with the fewest digits.
* `Decimal.positional`, `Decimal.scientific` — the two ways to write it.
* `Binary64.plainText`, `Binary64.compactText` — the text of a number.
* `Binary64.fixed` — the text with a fixed number of places.
-/

namespace Linewise

/-- **A decimal**: `digits * 10 ^ exponent`. -/
structure Decimal where
  /-- The digits as a number. -/
  digits : Nat
  /-- The power of ten of the last digit. -/
  exponent : Int
deriving DecidableEq, Repr

namespace Decimal

/-- Compares `a * 10 ^ p` with `num / den`: is it at most that? -/
def atMost (a : Nat) (p : Int) (num den : Nat) : Bool :=
  a * Nat.pow 10 p.toNat * den ≤ num * Nat.pow 10 (-p).toNat

/-- Compares `num / den` with `a * 10 ^ p`: is it at most that? -/
def atLeast (a : Nat) (p : Int) (num den : Nat) : Bool :=
  num * Nat.pow 10 (-p).toNat ≤ a * Nat.pow 10 p.toNat * den

/-- The power of ten of the first digit of a positive fraction. -/
def leading (num den : Nat) : Int :=
  if den ≤ num then ((Nat.toDigits 10 (num / den)).length : Int) - 1
  else
    let places := (Nat.toDigits 10 (den / num)).length
    if den ≤ num * Nat.pow 10 (places - 1) then 1 - (places : Int) else -(places : Int)

/-- **The numbers that round to a given one**, in units of a quarter of its last place: the two
ends, and whether they belong to it. -/
structure Interval where
  /-- The lower end. -/
  low : Nat
  /-- The upper end. -/
  high : Nat
  /-- The power of two of the unit. -/
  exponent : Int
  /-- Do the ends themselves round to the number? -/
  closed : Bool

/-- The interval of a mantissa and an exponent. The neighbour below a power of two is closer
than the one above it. -/
def Interval.around (mantissa : Nat) (exponent : Int) : Interval where
  low :=
    if mantissa = Nat.pow 2 (Binary64.precision - 1) && Binary64.minExponent < exponent then
      4 * mantissa - 1
    else 4 * mantissa - 2
  high := 4 * mantissa + 2
  exponent := exponent - 2
  closed := mantissa % 2 = 0

/-- Does `a * 10 ^ p` lie in the interval? -/
def Interval.holds (interval : Interval) (a : Nat) (p : Int) : Bool :=
  let (low, den) := Binary64.ratio interval.low interval.exponent
  let (high, _) := Binary64.ratio interval.high interval.exponent
  if interval.closed then atLeast a p low den && atMost a p high den
  else !atMost a p low den && !atLeast a p high den

/-- The decimal with `places` digits nearest to a number among the two neighbours of it that lie
in its interval, if one does. -/
def nearest? (interval : Interval) (num den : Nat) (places : Nat) : Option Decimal :=
  let p := leading num den - (places - 1 : Nat)
  let scaledNum := num * Nat.pow 10 (-p).toNat
  let scaledDen := den * Nat.pow 10 p.toNat
  let floor := scaledNum / scaledDen
  match interval.holds floor p, interval.holds (floor + 1) p with
  | false, false => none
  | true, false => some ⟨floor, p⟩
  | false, true => some ⟨floor + 1, p⟩
  | true, true => some ⟨roundDiv scaledNum scaledDen, p⟩

/-- The digits without their trailing zeros, at most `fuel` of them. -/
def strip : (fuel : Nat) → Decimal → Decimal
  | 0, d => d
  | fuel + 1, d =>
    if d.digits % 10 = 0 then strip fuel ⟨d.digits / 10, d.exponent + 1⟩ else d

/-- **The decimal with the fewest digits that reads back as the number.** Seventeen digits
always suffice. -/
def shortest (mantissa : Nat) (exponent : Int) : Decimal :=
  if mantissa = 0 then ⟨0, 0⟩
  else
    let (num, den) := Binary64.ratio mantissa exponent
    let interval := Interval.around mantissa exponent
    strip 18 <|
      ((List.range 17).findSome? fun k => nearest? interval num den (k + 1)).getD ⟨num / den, 0⟩

/-- How many digits the decimal has. -/
def length (d : Decimal) : Nat :=
  (Bytes.ofNat d.digits).length

/-- **The decimal written positionally**: all digits down to the last, zeros where needed. -/
def positional (d : Decimal) : Bytes :=
  let digits := Bytes.ofNat d.digits
  if 0 ≤ d.exponent then
    if d.digits = 0 then digits else digits ++ List.replicate d.exponent.toNat (ascii '0')
  else
    let places := (-d.exponent).toNat
    let padded := List.replicate (places + 1 - digits.length) (ascii '0') ++ digits
    padded.take (padded.length - places) ++ ascii '.' :: padded.drop (padded.length - places)

/-- **The decimal written with an exponent** of at least two digits. -/
def scientific (d : Decimal) : Bytes :=
  let digits := Bytes.ofNat d.digits
  let power : Int := d.exponent + (digits.length - 1 : Nat)
  let power' := Bytes.ofNat power.natAbs
  digits.take 1 ++ (if digits.length > 1 then ascii '.' :: digits.drop 1 else [])
    ++ [ascii 'e', ascii (if power < 0 then '-' else '+')]
    ++ List.replicate (2 - power'.length) (ascii '0') ++ power'

end Decimal

namespace Binary64

/-- A minus sign for a negative number. -/
def sign (negative : Bool) : Bytes :=
  if negative then [ascii '-'] else []

/-- The text of an infinite number. -/
def infinityText (negative : Bool) : Bytes :=
  if negative then utf8 "-Inf" else utf8 "+Inf"

/-- **The shortest text without an exponent.** -/
def plainText : Binary64 → Bytes
  | finite negative mantissa exponent =>
    sign negative ++ (Decimal.shortest mantissa exponent).positional
  | infinite negative => infinityText negative
  | nan => utf8 "NaN"

/-- **The shortest text**, with an exponent when the first digit stands for a power of ten below
`-4` or above `5`. -/
def compactText : Binary64 → Bytes
  | finite negative mantissa exponent =>
    let d := Decimal.shortest mantissa exponent
    let power : Int := d.exponent + (d.length - 1 : Nat)
    sign negative ++ if power < -4 || 6 ≤ power then d.scientific else d.positional
  | infinite negative => infinityText negative
  | nan => utf8 "NaN"

/-- **The text with a fixed number of places**, rounded half to even. -/
def fixed (places : Nat) : Binary64 → Bytes
  | finite negative mantissa exponent =>
    let (num, den) := ratio mantissa exponent
    sign negative ++ Decimal.positional ⟨roundDiv (num * Nat.pow 10 places) den, -(places : Int)⟩
  | infinite negative => infinityText negative
  | nan => utf8 "NaN"

end Binary64

end Linewise

import Linewise.Integer

/-!
# Binary numerals in a line

The binary digits of a line are its bytes `0` and `1`, in order; everything else
between them is noise. They are read as a whole number, most significant digit
first, without a bound on its size.

## Main definitions

* `binaryDigits` — the digits of a line.
* `readDigits?` — the number a row of digits spells in a base.
* `readInteger?` — the number a numeral with or without sign stands for.
-/

namespace Linewise

/-- Is the byte a binary digit? -/
def isBinaryDigit (b : UInt8) : Bool :=
  b = ascii '0' || b = ascii '1'

/-- **The binary digits of a line**, in order. -/
def binaryDigits (line : Bytes) : Bytes :=
  line.filter isBinaryDigit

/-- Reads digits in a base behind those that gave `value`, most significant first; `none` at the
first byte that is no digit of the base. -/
def readDigits? (base : Nat) : (value : Nat) → Bytes → Option Nat
  | value, [] => some value
  | value, b :: rest =>
    match Integer.digitValue? b with
    | none => none
    | some digit =>
      if base ≤ digit then none else readDigits? base (value * base + digit) rest

/-- **A whole number of any size**, read in a base: at least one digit, with or without a sign in
front. -/
def readInteger? (base : Nat) (text : Bytes) : Option Int :=
  let (negative, digits) := Integer.sign text
  if digits.isEmpty then none
  else
    match readDigits? base 0 digits with
    | none => none
    | some value => some (if negative then -(value : Int) else value)

end Linewise

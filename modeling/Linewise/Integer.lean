import Linewise.Text.Quoted

/-!
# Integer literals

Settings and options give whole numbers as literals: an optional sign, then
decimal digits, or a base given by a leading `0b`, `0o`, `0x` or plain `0`.
Underscores may stand between digits. A value has to fit into 64 bits.

## Main definitions

* `Integer.Error` — why a text is no such number.
* `Integer.magnitude` — reads digits in a base.
* `Integer.unsigned` — a literal without sign, below `2 ^ 64`.
* `Integer.parse` — a signed literal of 64 bits.
-/

namespace Linewise.Integer

/-- **Why a text is no number.** -/
inductive Error where
  /-- It is not written as one. -/
  | malformed
  /-- It does not fit. -/
  | outOfRange
deriving DecidableEq, Repr

/-- The wording of an error for the text that was read. -/
def Error.message (text : Bytes) : Error → Bytes
  | malformed => utf8 "strconv.ParseInt: parsing " ++ quoted text ++ utf8 ": invalid syntax"
  | outOfRange => utf8 "strconv.ParseInt: parsing " ++ quoted text ++ utf8 ": value out of range"

/-- The value of a digit in any base up to thirty-six, letters in either case. -/
def digitValue? (b : UInt8) : Option Nat :=
  if 0x30 ≤ b && b ≤ 0x39 then some (b.toNat - 0x30)
  else if 0x61 ≤ b && b ≤ 0x7A then some (b.toNat - 0x61 + 10)
  else if 0x41 ≤ b && b ≤ 0x5A then some (b.toNat - 0x41 + 10)
  else none

/-- The least number that does not fit into 64 bits without sign. -/
def unsignedBound : Nat := Nat.pow 2 64

/-- The least number that does not fit into 64 bits with a sign. -/
def signedBound : Nat := Nat.pow 2 63

/-- **Reads digits in a base**, most significant first, skipping underscores. The first digit that
carries the value past 64 bits ends the reading. -/
def magnitude (base : Nat) : (value : Nat) → Bytes → Except Error Nat
  | value, [] => .ok value
  | value, b :: rest =>
    if b = ascii '_' then magnitude base value rest
    else
      match digitValue? b with
      | none => .error .malformed
      | some digit =>
        if base ≤ digit then .error .malformed
        else if unsignedBound ≤ value * base + digit then .error .outOfRange
        else magnitude base (value * base + digit) rest

/-- The letter of a base given by two characters. -/
def baseOf? (letter : UInt8) : Option Nat :=
  if letter = ascii 'b' || letter = ascii 'B' then some 2
  else if letter = ascii 'o' || letter = ascii 'O' then some 8
  else if letter = ascii 'x' || letter = ascii 'X' then some 16
  else none

/-- The base of a literal without sign, and its digits. -/
def base : Bytes → Nat × Bytes
  | 0x30 :: letter :: digit :: rest =>
    match baseOf? letter with
    | some base => (base, digit :: rest)
    | none => (8, letter :: digit :: rest)
  | 0x30 :: rest => (8, rest)
  | digits => (10, digits)

/-- What stands before a place in a literal. -/
inductive Before where
  /-- Nothing yet. -/
  | start
  /-- A digit or the mark of a base. -/
  | digit
  /-- An underscore. -/
  | underscore
  /-- Anything else. -/
  | other
deriving DecidableEq, Repr

/-- Does every underscore stand between two digits? -/
def separatesDigits (hex : Bool) : Before → Bytes → Bool
  | before, [] => before ≠ .underscore
  | before, b :: rest =>
    let isDigit := Bytes.isDigit b
      || hex && (0x61 ≤ b && b ≤ 0x66 || 0x41 ≤ b && b ≤ 0x46)
    if isDigit then separatesDigits hex .digit rest
    else if b = ascii '_' then
      if before = .digit then separatesDigits hex .underscore rest else false
    else if before = .underscore then false
    else separatesDigits hex .other rest

/-- Are the underscores of a literal without sign where they may be? The mark of a base counts as
a digit. -/
def underscoresAllowed : Bytes → Bool
  | 0x30 :: letter :: rest =>
    match baseOf? letter with
    | some base => separatesDigits (base = 16) .digit rest
    | none => separatesDigits false .start (0x30 :: letter :: rest)
  | text => separatesDigits false .start text

/-- **A literal without sign**, below `2 ^ 64`. -/
def unsigned (text : Bytes) : Except Error Nat :=
  if text.isEmpty then .error .malformed
  else
    match magnitude (base text).1 0 (base text).2 with
    | .error error => .error error
    | .ok value =>
      if text.contains (ascii '_') && !underscoresAllowed text then .error .malformed else .ok value

/-- The sign of a literal, and what follows it. -/
def sign : Bytes → Bool × Bytes
  | 0x2D :: rest => (true, rest)
  | 0x2B :: rest => (false, rest)
  | text => (false, text)

/-- Puts a sign on a magnitude, which then has to fit into 64 bits. -/
def signed (negative : Bool) (value : Nat) : Except Error Int :=
  if negative then
    if value ≤ signedBound then .ok (-(value : Int)) else .error .outOfRange
  else if value < signedBound then .ok value
  else .error .outOfRange

/-- **A signed literal of 64 bits.** -/
def parse (text : Bytes) : Except Error Int :=
  (unsigned (sign text).2).bind (signed (sign text).1)

/-- Digits in a fixed base, below `2 ^ 64`. -/
def digits (base : Nat) (text : Bytes) : Except Error Nat :=
  if text.isEmpty || text.contains (ascii '_') then .error .malformed else magnitude base 0 text

end Linewise.Integer

import Linewise.Fault
import Linewise.Numeral
import Linewise.Text.Blank

/-!
# Line transformations

A transformation turns one line into one line or fails. It sees no terminator
and keeps no state from line to line. One of the two that are built in reads the
binary digits of a line; the other keeps its fields, byte for byte, and puts one
space between them.

## Main definitions

* `fields` — the maximal runs of runes that are not blank.
* `squeeze` — the fields with single spaces between them.
* `Transform` — a named transformation.
* `Transform.binary` — the decimal value of the binary digits of a line.
* `Transform.squeeze` — the fields of a line with single spaces between them.
-/

namespace Linewise

/-- **The fields of a line**: its maximal runs of runes that are not blank. -/
def fields (line : Bytes) : List Bytes :=
  (((runes line).splitOnP Rune.isBlank).filter fun run => !run.isEmpty).map ofRunes

/-- The fields of a line with one space between them, and none at its ends. -/
def squeeze (line : Bytes) : Bytes :=
  Bytes.join [Bytes.space] (fields line)

/-- **A line transformation** with the name and the description it goes by. -/
structure Transform where
  /-- The name the transformation gives itself. -/
  name : Bytes
  /-- One line on what it does. -/
  description : Bytes
  /-- The line it makes of a line. -/
  apply : Bytes → Except Fault Bytes

namespace Transform

/-- Decodes the binary digits of a line; fails on a line without one, and on digits that are no
numeral. -/
def decodeLine (line : Bytes) : Except Fault Bytes :=
  let digits := binaryDigits line
  if digits.isEmpty then .error .emptyNumeral
  else
    match readInteger? 2 digits with
    | none => .error (.other (utf8 "invalid binary numeral " ++ quoted digits))
    | some value => .ok (Bytes.decimal value)

/-- **The decimal value of the binary digits of a line.** -/
def binary : Transform where
  name := utf8 "binary"
  description := utf8 "Strip everything but 0/1 from each line and print the value in decimal"
  apply := decodeLine

/-- **The fields of a line with single spaces between them.** It never fails. -/
def squeeze : Transform where
  name := utf8 "squeeze"
  description := utf8 "Collapse runs of blanks into one space and trim both ends of each line"
  apply line := .ok (Linewise.squeeze line)

end Transform

end Linewise

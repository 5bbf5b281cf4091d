import Linewise.Text.Rune

/-!
# White space

Two classes of characters. `isSpace` holds the characters with the Unicode
property White_Space; `isBlank` adds the four ASCII information separators,
which separate words in machine listings.

## Main definitions

* `isSpace`, `isBlank` — the two classes, on code points.
* `Rune.isSpace`, `Rune.isBlank` — on runes; a stray byte is in neither.
* `Bytes.trim` — a text without leading and trailing white space.
-/

namespace Linewise

/-- The code points with the property White_Space. -/
def isSpace (code : Int) : Bool :=
  (0x09 ≤ code && code ≤ 0x0D) || code = 0x20 || code = 0x85 || code = 0xA0
    || code = 0x1680 || (0x2000 ≤ code && code ≤ 0x200A) || code = 0x2028 || code = 0x2029
    || code = 0x202F || code = 0x205F || code = 0x3000

/-- **The code points that separate words**: white space and the file, group, record and unit
separators. -/
def isBlank (code : Int) : Bool :=
  (0x1C ≤ code && code ≤ 0x1F) || isSpace code

namespace Rune

/-- The code point of a rune; that of a stray byte is U+FFFD. -/
def code (r : Rune) : Int :=
  r.toChar.toNat

/-- Is the rune white space? -/
def isSpace (r : Rune) : Bool :=
  Linewise.isSpace r.code

/-- Does the rune separate words? -/
def isBlank (r : Rune) : Bool :=
  Linewise.isBlank r.code

end Rune

/-- The text without the white space at its two ends. -/
def Bytes.trim (text : Bytes) : Bytes :=
  ofRunes ((((runes text).dropWhile Rune.isSpace).reverse.dropWhile Rune.isSpace).reverse)

end Linewise

/-!
# Byte strings

Every text the program reads or writes is a list of bytes: input files need not
be well-formed UTF-8, and the messages that quote them need not be either.

## Main definitions

* `Bytes` — a byte string.
* `utf8` — the bytes of a Lean string.
* `Bytes.replaceAll`, `Bytes.splitOn`, `Bytes.has` — search for a fixed pattern.
* `Bytes.decimal` — the decimal numeral of an integer.
-/

namespace Linewise

/-- **A byte string**, with no promise about its encoding. -/
abbrev Bytes := List UInt8

/-- The UTF-8 encoding of a string. -/
def utf8 (s : String) : Bytes :=
  s.toList.flatMap String.utf8EncodeChar

/-- The byte of an ASCII character. -/
def ascii (c : Char) : UInt8 :=
  UInt8.ofNat c.toNat

namespace Bytes

/-- The line feed, the only terminator the program writes. -/
def lineFeed : UInt8 := 0x0A

/-- The carriage return. -/
def carriageReturn : UInt8 := 0x0D

/-- The ASCII space. -/
def space : UInt8 := 0x20

/-- The decimal digits of a natural number, most significant first. -/
def ofNat (n : Nat) : Bytes :=
  (Nat.toDigits 10 n).map ascii

/-- The decimal numeral of an integer: no sign on a non-negative one. -/
def decimal : Int → Bytes
  | .ofNat n => ofNat n
  | .negSucc n => ascii '-' :: ofNat (n + 1)

/-- What is left of `text` after `start`, if it begins with it. -/
def afterStart? : (start text : Bytes) → Option Bytes
  | [], text => some text
  | _ :: _, [] => none
  | b :: start, c :: text => if b = c then afterStart? start text else none

/-- The text without `start`, or unchanged when it does not begin with it. -/
def withoutStart (start text : Bytes) : Bytes :=
  (afterStart? start text).getD text

/-- Does `pattern` occur in the text? The empty pattern always does. -/
def has (pattern : Bytes) : Bytes → Bool
  | [] => pattern.isEmpty
  | b :: rest => pattern.isPrefixOf (b :: rest) || has pattern rest

/-- One pass of `splitOn`: `skip` bytes belong to a separator already found, `word` is the
current piece and `done` the finished ones, both reversed. -/
def splitOnLoop (separator : Bytes) : (done : List Bytes) → (word : Bytes) → (skip : Nat) →
    Bytes → List Bytes
  | done, word, _, [] => (word.reverse :: done).reverse
  | done, word, skip + 1, _ :: rest => splitOnLoop separator done word skip rest
  | done, word, 0, b :: rest =>
    if !separator.isEmpty && separator.isPrefixOf (b :: rest) then
      splitOnLoop separator (word.reverse :: done) [] (separator.length - 1) rest
    else
      splitOnLoop separator done (b :: word) 0 rest

/-- The pieces between the occurrences of a non-empty separator, found from the left. -/
def splitOn (separator text : Bytes) : List Bytes :=
  splitOnLoop separator [] [] 0 text

/-- The pieces with `separator` between them. -/
def join (separator : Bytes) (pieces : List Bytes) : Bytes :=
  separator.intercalate pieces

/-- Every occurrence of `old`, found from the left, replaced by `new`. -/
def replaceAll (old new text : Bytes) : Bytes :=
  join new (splitOn old text)

/-- A run of spaces. -/
def spaces (n : Nat) : Bytes :=
  List.replicate n space

/-- Byte order: the first difference decides, a proper beginning comes first. -/
def le : Bytes → Bytes → Bool
  | [], _ => true
  | _ :: _, [] => false
  | b :: s, c :: t => b < c || (b = c && le s t)

/-- Is the byte an ASCII decimal digit? -/
def isDigit (b : UInt8) : Bool :=
  0x30 ≤ b && b ≤ 0x39

/-- The hexadecimal digit of a number below sixteen, in lower case. -/
def hexDigit (n : Nat) : UInt8 :=
  if n < 10 then UInt8.ofNat (0x30 + n) else UInt8.ofNat (0x61 + (n - 10))

/-- The last `places` hexadecimal digits of a number. -/
def hex (places n : Nat) : Bytes :=
  match places with
  | 0 => []
  | places + 1 => hex places (n / 16) ++ [hexDigit (n % 16)]

end Bytes

end Linewise

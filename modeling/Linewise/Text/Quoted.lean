import Linewise.Text.Printable
import Linewise.Text.Rune

/-!
# Quoted text

Messages show a piece of input between double quotes, in a form from which the
input can be read back byte for byte: printable characters stand for themselves,
a quote and a backslash are escaped, control characters have their short names
or two hexadecimal digits, other unprintable characters four or eight, and a
stray byte two. A reader also takes escapes that are never written: hexadecimal
digits in upper case, and bytes in octal.

## Main definitions

* `Quoted.escape` — how one rune is written.
* `quoted` — a text between quotes.
* `Quoted.read?` — reads a quoted text back.
-/

namespace Linewise

namespace Quoted

/-- The short name of a control character. -/
def shortName? (c : Char) : Option Char :=
  if c = '\x07' then some 'a'
  else if c = '\x08' then some 'b'
  else if c = '\x0c' then some 'f'
  else if c = '\n' then some 'n'
  else if c = '\r' then some 'r'
  else if c = '\t' then some 't'
  else if c = '\x0b' then some 'v'
  else none

/-- **How a rune is written** between double quotes. -/
def escape : Rune → Bytes
  | .stray b => utf8 "\\x" ++ Bytes.hex 2 b.toNat
  | .char c =>
    if c = '"' || c = '\\' then [ascii '\\', ascii c]
    else if isPrintable c then String.utf8EncodeChar c
    else
      match shortName? c with
      | some name => [ascii '\\', ascii name]
      | none =>
        if c.toNat < 0x20 || c.toNat = 0x7F then utf8 "\\x" ++ Bytes.hex 2 c.toNat
        else if c.toNat < 0x10000 then utf8 "\\u" ++ Bytes.hex 4 c.toNat
        else utf8 "\\U" ++ Bytes.hex 8 c.toNat

/-- The value of a digit of a base up to sixteen, letters in either case. -/
def digitValue? (base : Nat) (b : UInt8) : Option Nat :=
  let value? :=
    if 0x30 ≤ b && b ≤ 0x39 then some (b.toNat - 0x30)
    else if 0x61 ≤ b && b ≤ 0x66 then some (b.toNat - 0x61 + 10)
    else if 0x41 ≤ b && b ≤ 0x46 then some (b.toNat - 0x41 + 10)
    else none
  value?.filter (· < base)

/-- The number that a row of digits spells. -/
def number? (base : Nat) (digits : Bytes) : Option Nat :=
  digits.foldlM (fun value b => (digitValue? base b).map (base * value + ·)) 0

/-- The byte with a code, if there is one. -/
def byte? (code : Nat) : Option Bytes :=
  if code < 256 then some [UInt8.ofNat code] else none

/-- The spelling of the character with a code, if there is one. -/
def character? (code : Nat) : Option Bytes :=
  if code < 0xD800 || 0xDFFF < code && code < 0x110000 then
    some (String.utf8EncodeChar (Char.ofNat code))
  else none

/-- What the escape named by `name` stands for, and how many bytes after the name it takes. Where
fewer are left, so is no closing quote. -/
def unescape? (name : UInt8) (rest : Bytes) : Option (Bytes × Nat) :=
  let spelt (base places : Nat) (digits : Bytes) (spell? : Nat → Option Bytes) :=
    ((number? base digits).bind spell?).map (·, places)
  if name = ascii '"' || name = ascii '\\' then some ([name], 0)
  else if name = ascii 'a' then some ([0x07], 0)
  else if name = ascii 'b' then some ([0x08], 0)
  else if name = ascii 'f' then some ([0x0C], 0)
  else if name = ascii 'n' then some ([0x0A], 0)
  else if name = ascii 'r' then some ([0x0D], 0)
  else if name = ascii 't' then some ([0x09], 0)
  else if name = ascii 'v' then some ([0x0B], 0)
  else if name = ascii 'x' then spelt 16 2 (rest.take 2) byte?
  else if name = ascii 'u' then spelt 16 4 (rest.take 4) character?
  else if name = ascii 'U' then spelt 16 8 (rest.take 8) character?
  else spelt 8 2 (name :: rest.take 2) byte?

/-- Reads the inside of a quoted text up to the closing quote, which must end it; `skip` bytes
are already read. A line feed has to be escaped, and a stray byte that is not stands for
U+FFFD. -/
def readInside? : (skip : Nat) → Bytes → Option Bytes
  | _, [] => none
  | skip + 1, _ :: rest => readInside? skip rest
  | 0, b :: rest =>
    if b = ascii '"' then
      if rest.isEmpty then some [] else none
    else if b = Bytes.lineFeed then none
    else if b = ascii '\\' then
      match rest with
      | [] => none
      | name :: rest =>
        match unescape? name rest with
        | none => none
        | some (bytes, used) => (readInside? used rest).map (bytes ++ ·)
    else
      let rune := Rune.first b rest
      (readInside? (rune.bytes.length - 1) rest).map (String.utf8EncodeChar rune.toChar ++ ·)

/-- Reads a quoted text back. -/
def read? : Bytes → Option Bytes
  | [] => none
  | b :: rest => if b = ascii '"' then readInside? 0 rest else none

end Quoted

/-- **The text between double quotes**, every rune written by `Quoted.escape`. -/
def quoted (text : Bytes) : Bytes :=
  ascii '"' :: (runes text).flatMap Quoted.escape ++ [ascii '"']

end Linewise

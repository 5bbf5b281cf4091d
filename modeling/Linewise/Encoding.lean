import Linewise.Text.Rune

/-!
# Byte order marks and UTF-16

A text that starts with a byte order mark is decoded by what the mark announces:
UTF-8, which only loses the mark, or UTF-16 in one of the two byte orders, which
becomes UTF-8. Any other text is taken as it is. In UTF-16 a surrogate without
its partner and an odd byte at the end each become U+FFFD; two trailing
surrogates in a row become one.

`Decoder` does the same piece by piece. It waits until it has three bytes, or the
end, before it looks for a mark, and keeps back the bytes of an incomplete unit.

## Main definitions

* `ByteOrder`, `ByteOrder.encode` — the two orders, and how they write a character.
* `decodeText` — a whole text.
* `Decoder`, `Decoder.feed`, `Decoder.finish` — the same in pieces.
-/

namespace Linewise

/-- **The order of the two bytes of a unit.** -/
inductive ByteOrder where
  /-- Low byte first. -/
  | little
  /-- High byte first. -/
  | big
deriving DecidableEq, Repr

namespace ByteOrder

/-- The unit that two bytes spell. -/
def unit : ByteOrder → (first second : UInt8) → Nat
  | little, first, second => second.toNat * 256 + first.toNat
  | big, first, second => first.toNat * 256 + second.toNat

/-- The two bytes that spell a unit. -/
def bytes : ByteOrder → (unit : Nat) → Bytes
  | little, unit => [UInt8.ofNat (unit % 256), UInt8.ofNat (unit / 256)]
  | big, unit => [UInt8.ofNat (unit / 256), UInt8.ofNat (unit % 256)]

/-- The mark that announces the order. -/
def mark : ByteOrder → Bytes
  | little => [0xFF, 0xFE]
  | big => [0xFE, 0xFF]

/-- How UTF-16 in this order writes a character. -/
def encode (order : ByteOrder) (c : Char) : Bytes :=
  if c.toNat < 0x10000 then order.bytes c.toNat
  else
    order.bytes (0xD800 + (c.toNat - 0x10000) / 0x400)
      ++ order.bytes (0xDC00 + (c.toNat - 0x10000) % 0x400)

end ByteOrder

/-- The mark that announces UTF-8. -/
def utf8Mark : Bytes := [0xEF, 0xBB, 0xBF]

/-- Is the unit one half of a pair? -/
def isSurrogate (unit : Nat) : Bool :=
  0xD800 ≤ unit && unit ≤ 0xDFFF

/-- Is the unit the second half of a pair? -/
def isTrailing (unit : Nat) : Bool :=
  0xDC00 ≤ unit && unit ≤ 0xDFFF

/-- The character of two surrogates, the second of them trailing: U+FFFD unless the first is a
leading one. -/
def pairChar (first second : Nat) : Char :=
  if first < 0xDC00 then Char.ofNat (0x10000 + (first - 0xD800) * 0x400 + (second - 0xDC00))
  else '\ufffd'

/-- **Decodes units from the left**; `done` holds the UTF-8 of what is decoded, reversed. The
second result is an incomplete unit or an unpaired surrogate at the end, which more bytes could
still complete. -/
def decodeUnits (order : ByteOrder) : (done : Bytes) → Bytes → Bytes × Bytes
  | done, [] => (done.reverse, [])
  | done, [b] => (done.reverse, [b])
  | done, b₁ :: b₂ :: rest =>
    if isSurrogate (order.unit b₁ b₂) then
      match rest with
      | b₃ :: b₄ :: rest' =>
        if isTrailing (order.unit b₃ b₄) then
          decodeUnits order
            ((String.utf8EncodeChar (pairChar (order.unit b₁ b₂) (order.unit b₃ b₄))).reverse
              ++ done) rest'
        else
          decodeUnits order ((String.utf8EncodeChar '\ufffd').reverse ++ done)
            (b₃ :: b₄ :: rest')
      | _ => (done.reverse, b₁ :: b₂ :: rest)
    else
      decodeUnits order
        ((String.utf8EncodeChar (Char.ofNat (order.unit b₁ b₂))).reverse ++ done) rest

/-- What an undecided end of at most three bytes stands for once nothing more can follow: one
U+FFFD for a surrogate, one for an odd byte. -/
def decodeEnd (pending : Bytes) : Bytes :=
  (List.replicate ((pending.length + 1) / 2) (String.utf8EncodeChar '\ufffd')).flatten

/-- The UTF-8 of a complete text in UTF-16. -/
def decodeUtf16 (order : ByteOrder) (text : Bytes) : Bytes :=
  (decodeUnits order [] text).1 ++ decodeEnd (decodeUnits order [] text).2

/-- **The text without its byte order mark, in UTF-8** if the mark announces UTF-16. -/
def decodeText (text : Bytes) : Bytes :=
  match Bytes.afterStart? ByteOrder.little.mark text with
  | some rest => decodeUtf16 .little rest
  | none =>
    match Bytes.afterStart? ByteOrder.big.mark text with
    | some rest => decodeUtf16 .big rest
    | none => Bytes.withoutStart utf8Mark text

/-- **A decoder between two pieces of its text.** -/
inductive Decoder where
  /-- Fewer than three bytes have arrived: it is open whether a mark begins the text. -/
  | undecided (seen : Bytes)
  /-- The rest is passed on as it is. -/
  | verbatim
  /-- The rest is UTF-16; the bytes of an incomplete character are kept back. -/
  | utf16 (order : ByteOrder) (pending : Bytes)
deriving DecidableEq, Repr

namespace Decoder

/-- The decoder before the first byte. -/
def start : Decoder := undecided []

/-- Decodes what follows a mark, or a text without one. -/
def settle (text : Bytes) : Decoder × Bytes :=
  match Bytes.afterStart? ByteOrder.little.mark text with
  | some rest => (utf16 .little (decodeUnits .little [] rest).2, (decodeUnits .little [] rest).1)
  | none =>
    match Bytes.afterStart? ByteOrder.big.mark text with
    | some rest => (utf16 .big (decodeUnits .big [] rest).2, (decodeUnits .big [] rest).1)
    | none => (verbatim, Bytes.withoutStart utf8Mark text)

/-- **Takes the next piece** and gives what is decoded by now. -/
def feed : Decoder → Bytes → Decoder × Bytes
  | undecided seen, piece =>
    if (seen ++ piece).length < 3 then (undecided (seen ++ piece), [])
    else settle (seen ++ piece)
  | verbatim, piece => (verbatim, piece)
  | utf16 order pending, piece =>
    let decoded := decodeUnits order [] (pending ++ piece)
    (utf16 order decoded.2, decoded.1)

/-- What the bytes kept back stand for at the end of the text. -/
def finish : Decoder → Bytes
  | undecided seen => decodeText seen
  | verbatim => []
  | utf16 _ pending => decodeEnd pending

end Decoder

end Linewise

import Linewise.Bytes

/-!
# Runes: reading bytes as characters

A byte string is read as a sequence of runes. A rune is a character, spelt by a
well-formed UTF-8 sequence, or a *stray* byte: one that begins no such sequence.
Overlong spellings, surrogates and values past U+10FFFF are not well formed, so
their bytes are stray one by one. No byte is lost: the spellings of the runes of
a text, joined, are the text.

## Main definitions

* `Rune` — a character or a stray byte.
* `Rune.first` — the rune a non-empty text begins with.
* `runes` — the runes of a text.
* `Bytes.toString?` — the text as a string, when it is valid UTF-8.
-/

namespace Linewise

/-- **A unit of text**: a character, or a byte that spells none. -/
inductive Rune where
  /-- A character given by its well-formed UTF-8 spelling. -/
  | char (c : Char)
  /-- A byte that begins no well-formed spelling. -/
  | stray (b : UInt8)
deriving DecidableEq, Repr

namespace Rune

/-- How the rune is spelt. -/
def bytes : Rune → Bytes
  | char c => String.utf8EncodeChar c
  | stray b => [b]

/-- The character shown for the rune: a stray byte shows as U+FFFD. -/
def toChar : Rune → Char
  | char c => c
  | stray _ => '\ufffd'

/-- Is the rune a character? -/
def isChar : Rune → Bool
  | char _ => true
  | stray _ => false

/-- A continuation byte of UTF-8. -/
def isContinuation (b : UInt8) : Bool :=
  0x80 ≤ b && b ≤ 0xBF

/-- The smallest second byte after the given lead byte of three or four. -/
def secondLow (lead : UInt8) : UInt8 :=
  if lead = 0xE0 then 0xA0 else if lead = 0xF0 then 0x90 else 0x80

/-- The largest second byte after the given lead byte of three or four. -/
def secondHigh (lead : UInt8) : UInt8 :=
  if lead = 0xED then 0x9F else if lead = 0xF4 then 0x8F else 0xBF

/-- The six payload bits of a continuation byte. -/
def payload (b : UInt8) : Nat :=
  b.toNat - 0x80

/-- The rune a text begins with, given its first byte and the rest of it. -/
def first (b : UInt8) (rest : Bytes) : Rune :=
  if b < 0x80 then char (Char.ofNat b.toNat)
  else if 0xC2 ≤ b && b ≤ 0xDF then
    match rest with
    | b₁ :: _ =>
      if isContinuation b₁ then char (Char.ofNat ((b.toNat - 0xC0) * 64 + payload b₁))
      else stray b
    | _ => stray b
  else if 0xE0 ≤ b && b ≤ 0xEF then
    match rest with
    | b₁ :: b₂ :: _ =>
      if secondLow b ≤ b₁ && b₁ ≤ secondHigh b && isContinuation b₂ then
        char (Char.ofNat ((b.toNat - 0xE0) * 4096 + payload b₁ * 64 + payload b₂))
      else stray b
    | _ => stray b
  else if 0xF0 ≤ b && b ≤ 0xF4 then
    match rest with
    | b₁ :: b₂ :: b₃ :: _ =>
      if secondLow b ≤ b₁ && b₁ ≤ secondHigh b && isContinuation b₂ && isContinuation b₃ then
        char (Char.ofNat
          ((b.toNat - 0xF0) * 262144 + payload b₁ * 4096 + payload b₂ * 64 + payload b₃))
      else stray b
    | _ => stray b
  else stray b

end Rune

/-- One pass of `runes`: `skip` bytes are already spelt by the last rune found, and `done` holds
the runes found so far, last first. -/
def runesLoop : (done : List Rune) → (skip : Nat) → Bytes → List Rune
  | done, _, [] => done.reverse
  | done, skip + 1, _ :: rest => runesLoop done skip rest
  | done, 0, b :: rest =>
    runesLoop (Rune.first b rest :: done) ((Rune.first b rest).bytes.length - 1) rest

/-- **The runes of a text**, from left to right. -/
def runes (text : Bytes) : List Rune :=
  runesLoop [] 0 text

/-- The spellings of a list of runes, joined. -/
def ofRunes (rs : List Rune) : Bytes :=
  rs.flatMap Rune.bytes

/-- The characters a text shows, stray bytes as U+FFFD. -/
def shownChars (text : Bytes) : List Char :=
  (runes text).map Rune.toChar

/-- The UTF-8 encoding of a list of characters. -/
def ofChars (cs : List Char) : Bytes :=
  cs.flatMap String.utf8EncodeChar

/-- Is the text valid UTF-8? -/
def isValidUtf8 (text : Bytes) : Bool :=
  (runes text).all Rune.isChar

/-- The text as a string, when it is valid UTF-8. -/
def Bytes.toString? (text : Bytes) : Option String :=
  if isValidUtf8 text then some (String.ofList (shownChars text)) else none

end Linewise

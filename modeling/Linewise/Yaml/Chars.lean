import Linewise.Encoding

/-!
# The characters of a document

A document is UTF-8, or UTF-16 when a byte order mark says so. It has to be well
formed and free of control characters. The several ways to end a line are made
one before anything else is read.

## Main definitions

* `Yaml.isBreak`, `Yaml.isBlank` — what ends a line, and what separates words in it.
* `Yaml.chars?` — the characters of a document.
* `Yaml.atGap` — is the place before a blank, the end of a line or of the document?
* `Yaml.atMarker` — is the place before a line that ends or begins a document?
-/

namespace Linewise.Yaml

/-- Characters that end a line, once carriage returns are gone. -/
def isBreak (c : Char) : Bool :=
  c = '\n' || c = '\u2028' || c = '\u2029'

/-- Characters that separate words on a line. -/
def isBlank (c : Char) : Bool :=
  c = ' ' || c = '\t'

/-- Characters that a document may hold. -/
def isAllowed (c : Char) : Bool :=
  let code := c.toNat
  code = 0x09 || code = 0x0A || code = 0x0D || (0x20 ≤ code && code ≤ 0x7E) || code = 0x85
    || (0xA0 ≤ code && code ≤ 0xFFFD) || 0x10000 ≤ code

/-- The characters of UTF-16 text in which every surrogate has its partner; `done` is reversed. -/
def units? (order : ByteOrder) : (done : List Char) → Bytes → Option (List Char)
  | done, [] => some done.reverse
  | _, [_] => none
  | done, b₁ :: b₂ :: rest =>
    let unit := order.unit b₁ b₂
    if !isSurrogate unit then units? order (Char.ofNat unit :: done) rest
    else if isTrailing unit then none
    else
      match rest with
      | b₃ :: b₄ :: rest =>
        if isTrailing (order.unit b₃ b₄) then
          units? order (pairChar unit (order.unit b₃ b₄) :: done) rest
        else none
      | _ => none

/-- The characters of a text in the encoding that its mark announces. -/
def decoded? (text : Bytes) : Option (List Char) :=
  match Bytes.afterStart? ByteOrder.little.mark text, Bytes.afterStart? ByteOrder.big.mark text with
  | some rest, _ => units? .little [] rest
  | none, some rest => units? .big [] rest
  | none, none =>
    let text := Bytes.withoutStart utf8Mark text
    if isValidUtf8 text then some (shownChars text) else none

/-- The text with every line ended by one character: a line feed stands for a carriage return, for
both together and for U+0085. -/
def normalizeBreaks : List Char → List Char
  | [] => []
  | '\r' :: '\n' :: rest => '\n' :: normalizeBreaks rest
  | c :: rest => (if c = '\r' || c = '\u0085' then '\n' else c) :: normalizeBreaks rest

/-- **The characters of a document**, if it is well formed. -/
def chars? (text : Bytes) : Option (List Char) :=
  match decoded? text with
  | some cs => if cs.all isAllowed then some (normalizeBreaks cs) else none
  | none => none

/-- Is the place before a blank, the end of a line or the end of the document? -/
def atGap : List Char → Bool
  | [] => true
  | c :: _ => isBlank c || isBreak c

/-- Is the place before three equal characters that stand alone? -/
def atTriple (mark : Char) : List Char → Bool
  | a :: b :: c :: rest => a = mark && b = mark && c = mark && atGap rest
  | _ => false

/-- Is the place, at the start of a line, before a line that begins or ends a document? -/
def atMarker (text : List Char) : Bool :=
  atTriple '-' text || atTriple '.' text

end Linewise.Yaml

import Linewise.Text.Rune

/-!
# JSON

Texts, lists and objects, written on one line or indented. An object keeps the
order of its fields.

## Main definitions

* `Json` — a value.
* `Json.compact` — a value on one line.
* `Json.indented` — a value over several lines.
-/

namespace Linewise

/-- **A value.** -/
inductive Json where
  /-- A text. -/
  | text (s : Bytes)
  /-- A list. -/
  | list (items : List Json)
  /-- An object, its fields in order. -/
  | object (fields : List (Bytes × Json))
deriving Repr

namespace Json

/-- The characters that are written by a letter. -/
def shortName? (c : Char) : Option Char :=
  if c = '"' || c = '\\' then some c
  else if c = '\n' then some 'n'
  else if c = '\r' then some 'r'
  else if c = '\t' then some 't'
  else if c = Char.ofNat 8 then some 'b'
  else if c = Char.ofNat 12 then some 'f'
  else none

/-- Is the character written by its number? Control characters are, and those that would end a
script or a line in another language. -/
def isNumbered (c : Char) : Bool :=
  c.toNat < 0x20 || c = '<' || c = '>' || c = '&' || c.toNat = 0x2028 || c.toNat = 0x2029

/-- A character inside a written text. -/
def escape : Rune → Bytes
  | .stray _ => utf8 "\\ufffd"
  | .char c =>
    match shortName? c with
    | some letter => [ascii '\\', ascii letter]
    | none =>
      if isNumbered c then utf8 "\\u" ++ Bytes.hex 4 c.toNat else String.utf8EncodeChar c

/-- A text between double quotes. -/
def quotedText (s : Bytes) : Bytes :=
  ascii '"' :: (runes s).flatMap escape ++ [ascii '"']

/-- Pieces between two brackets, each on a line of its own. -/
def lines (indent : Nat) (opening closing : UInt8) (pieces : List Bytes) : Bytes :=
  if pieces.isEmpty then [opening, closing]
  else
    let margin := Bytes.lineFeed :: Bytes.spaces (indent + 2)
    opening :: margin ++ Bytes.join (ascii ',' :: margin) pieces
      ++ Bytes.lineFeed :: Bytes.spaces indent ++ [closing]

mutual

/-- **A value on one line**, without spaces. -/
def compact : Json → Bytes
  | text s => quotedText s
  | list items => ascii '[' :: Bytes.join [ascii ','] (compactItems items) ++ [ascii ']']
  | object fields => 0x7B :: Bytes.join [ascii ','] (compactFields fields) ++ [0x7D]

/-- The values of a list, each on one line. -/
def compactItems : List Json → List Bytes
  | [] => []
  | item :: rest => item.compact :: compactItems rest

/-- The fields of an object, each on one line. -/
def compactFields : List (Bytes × Json) → List Bytes
  | [] => []
  | (name, value) :: rest =>
    (quotedText name ++ ascii ':' :: value.compact) :: compactFields rest

end

mutual

/-- **A value over several lines**, each level two spaces further in. -/
def indented (indent : Nat) : Json → Bytes
  | text s => quotedText s
  | list items => lines indent (ascii '[') (ascii ']') (indentedItems (indent + 2) items)
  | object fields => lines indent 0x7B 0x7D (indentedFields (indent + 2) fields)

/-- The values of a list. -/
def indentedItems (indent : Nat) : List Json → List Bytes
  | [] => []
  | item :: rest => item.indented indent :: indentedItems indent rest

/-- The fields of an object. -/
def indentedFields (indent : Nat) : List (Bytes × Json) → List Bytes
  | [] => []
  | (name, value) :: rest =>
    (quotedText name ++ utf8 ": " ++ value.indented indent) :: indentedFields indent rest

end

end Json

end Linewise

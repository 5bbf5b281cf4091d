import Linewise.Decimal.Shortest
import Linewise.Settings
import Linewise.Yaml.Reader

/-!
# Settings from documents

The entries of a document set the settings of the same names. A name is first
looked up as it is written and then in any case. A value of another type is
converted where that makes sense; a strict reading converts only fractions to
whole numbers. What cannot be converted is a problem and leaves its setting as it
is.

## Main definitions

* `Settings.Problem` — why a value does not fit its setting.
* `Settings.Conversion` — how freely values are converted.
* `Settings.lookup?` — the entry of a name.
* `Settings.decode` — sets the settings that a document gives.
-/

namespace Linewise.Settings

open Yaml (Value)

/-- **Why a value does not fit.** -/
inductive Problem where
  /-- A value of this type cannot be made into the type of the setting. -/
  | wrongType (name wanted found : Bytes)
  /-- A text is not the number it should be. -/
  | notNumber (name text : Bytes) (error : Integer.Error)
  /-- The section is no map. -/
  | notMap (name found : Bytes)
deriving DecidableEq, Repr

/-- A name between single quotes. -/
def inQuotes (name : Bytes) : Bytes :=
  ascii '\'' :: name ++ [ascii '\'']

/-- The wording of a problem. -/
def Problem.message : Problem → Bytes
  | wrongType name wanted found =>
    inQuotes name ++ utf8 " expected type " ++ inQuotes wanted
      ++ utf8 ", got unconvertible type " ++ inQuotes found
  | notNumber name text error =>
    inQuotes name ++ utf8 " cannot parse value as 'int': " ++ error.message text
  | notMap name found =>
    inQuotes name ++ utf8 " expected a map or struct, got \"" ++ found ++ utf8 "\""

/-- **How freely values are converted.** -/
inductive Conversion where
  /-- Texts, numbers and booleans stand for each other. -/
  | free
  /-- Only a fraction is cut to a whole number. -/
  | strict
deriving DecidableEq, Repr

/-- The least number of 64 bits that has no sign bit left. -/
def wrapBound : Int := Integer.signedBound

/-- A whole number in 64 bits with a sign: the upper half of the numbers without sign is
negative. -/
def wrapped (n : Int) : Int :=
  if wrapBound ≤ n then n - Integer.unsignedBound else n

/-- The type of a value, as messages about settings name it. -/
def typeName : Value → Bytes
  | .null => utf8 "nil"
  | .bool _ => utf8 "bool"
  | .int n => if wrapBound ≤ n then utf8 "uint64" else utf8 "int"
  | .float _ => utf8 "float64"
  | .text _ => utf8 "string"
  | .time => utf8 "time.Time"
  | .list _ => utf8 "[]interface \x7b\x7d"
  | .map _ => utf8 "map[string]interface \x7b\x7d"

/-- The sort of a value, as messages about sections name it. -/
def sortName : Value → Bytes
  | .list _ => utf8 "slice"
  | value => typeName value

/-- A value as a text; `none` keeps what is there. -/
def textOf (conversion : Conversion) (name : Bytes) (value : Value) :
    Except Problem (Option Bytes) :=
  match value, conversion with
  | .null, _ => .ok none
  | .text s, _ => .ok (some s)
  | .bool b, .free => .ok (some (utf8 (if b then "1" else "0")))
  | .int n, .free => .ok (some (Bytes.decimal n))
  | .float x, .free => .ok (some x.plainText)
  | value, _ => .error (.wrongType name (utf8 "string") (typeName value))

/-- A value as a number; `none` keeps what is there. No text at all is zero. -/
def numberOf (conversion : Conversion) (name : Bytes) (value : Value) :
    Except Problem (Option Int) :=
  match value, conversion with
  | .null, _ => .ok none
  | .int n, _ => .ok (some (wrapped n))
  | .float x, _ => .ok (some x.toInt64)
  | .bool b, .free => .ok (some (if b then 1 else 0))
  | .text s, .free =>
    if s.isEmpty then .ok (some 0)
    else
      match Integer.parse s with
      | .ok n => .ok (some n)
      | .error error => .error (.notNumber name s error)
  | value, _ => .error (.wrongType name (utf8 "int") (typeName value))

/-- The value of a document as the value of a setting; `none` keeps what is there. -/
def entryOf (conversion : Conversion) (key : Key) (value : Value) :
    Except Problem (Option Entry) :=
  match key with
  | .maxLineBytes => (numberOf conversion key.fullName value).map (Option.map .number)
  | _ => (textOf conversion key.fullName value).map (Option.map .text)

/-- A letter without its case: the long s and the Kelvin sign are letters of the alphabet too. -/
def foldChar (c : Char) : Char :=
  if c = Char.ofNat 0x17F then 's'
  else if c = Char.ofNat 0x212A then 'k'
  else c.toLower

/-- Are two names the same but for case? -/
def sameName (a b : Bytes) : Bool :=
  (shownChars a).map foldChar = (shownChars b).map foldChar

/-- **The entry of a name**: as it is written if it is there, else in any case. Of several entries
that differ from the name in case only, the first one of the document is taken; the decoder whose
place this takes goes through them in no particular order and may take any of them. -/
def lookup? (name : Bytes) (entries : List (Bytes × Value)) : Option Value :=
  let exact := entries.find? fun entry => entry.1 = name
  let folded := entries.find? fun entry => sameName entry.1 name
  (exact <|> folded).map Prod.snd

/-- **Settings on their way through a document**, with the problems met so far. -/
structure Progress where
  /-- The settings. -/
  settings : Settings
  /-- The problems, in order. -/
  problems : List Problem := []

/-- Sets one setting from the entries of its map. -/
def decodeKey (conversion : Conversion) (entries : List (Bytes × Value)) (progress : Progress)
    (key : Key) : Progress :=
  match (lookup? key.name entries).map (entryOf conversion key) with
  | none | some (.ok none) => progress
  | some (.ok (some entry)) => { progress with settings := progress.settings.set key entry }
  | some (.error problem) => { progress with problems := progress.problems ++ [problem] }

/-- The entries of the section in a document, or why it has none. -/
def sectionOf (value : Value) : Except Problem (List (Bytes × Value)) :=
  match value with
  | .map entries => .ok entries
  | .null | .time => .ok []
  | value => .error (.notMap Key.sectionName (sortName value))

/-- **Sets the settings that a document gives.** -/
def decode (settings : Settings) (conversion : Conversion) (entries : List (Bytes × Value)) :
    Progress :=
  let start : Progress :=
    match (lookup? Key.sectionName entries).map sectionOf with
    | none => { settings }
    | some (.ok inside) => Key.ofSection.foldl (decodeKey conversion inside) { settings }
    | some (.error problem) => { settings, problems := [problem] }
  Key.ofTop.foldl (decodeKey conversion entries) start

end Linewise.Settings

import Linewise.Decimal.Reading
import Linewise.Integer
import Linewise.Yaml.Timestamp

/-!
# Values of a configuration document

A document holds null, booleans, whole numbers, fractions, text, timestamps,
lists and maps from names to values. What a plain scalar stands for is decided by
how it is written.

## Main definitions

* `Yaml.Value` — a value.
* `Yaml.resolve` — the value of a plain scalar.
-/

namespace Linewise.Yaml

/-- **A value of a document.** -/
inductive Value where
  /-- Nothing. -/
  | null
  /-- A boolean. -/
  | bool (b : Bool)
  /-- A whole number, from `-2 ^ 63` to `2 ^ 64 - 1`. -/
  | int (n : Int)
  /-- A fraction. -/
  | float (x : Binary64)
  /-- A text. -/
  | text (s : Bytes)
  /-- A timestamp. -/
  | time
  /-- A list. -/
  | list (items : List Value)
  /-- A map, in the order in which its names first appear. -/
  | map (entries : List (Bytes × Value))
deriving Repr

/-- The type of a scalar. -/
inductive Kind where
  /-- Nothing. -/
  | null
  /-- A boolean. -/
  | bool
  /-- A whole number. -/
  | int
  /-- A fraction. -/
  | float
  /-- A text. -/
  | text
  /-- A timestamp. -/
  | time
deriving DecidableEq, Repr

/-- The type of a scalar value. -/
def Value.kind : Value → Kind
  | null => .null
  | bool _ => .bool
  | int _ => .int
  | float _ => .float
  | time => .time
  | _ => .text

/-- The words with a meaning of their own. -/
def words : List (String × Value) :=
  [("", .null), ("~", .null), ("null", .null), ("Null", .null), ("NULL", .null),
    ("true", .bool true), ("True", .bool true), ("TRUE", .bool true),
    ("false", .bool false), ("False", .bool false), ("FALSE", .bool false),
    (".nan", .float .nan), (".NaN", .float .nan), (".NAN", .float .nan),
    (".inf", .float (.infinite false)), (".Inf", .float (.infinite false)),
    (".INF", .float (.infinite false)),
    ("+.inf", .float (.infinite false)), ("+.Inf", .float (.infinite false)),
    ("+.INF", .float (.infinite false)),
    ("-.inf", .float (.infinite true)), ("-.Inf", .float (.infinite true)),
    ("-.INF", .float (.infinite true))]

/-- The value of a word. -/
def word? (text : Bytes) : Option Value :=
  (words.find? fun entry => utf8 entry.1 = text).map Prod.snd

/-- A fraction that begins with a point, or with a sign or a digit. -/
def fraction? (text : Bytes) : Option Value :=
  (Fraction.read? text).bind fun fraction => fraction.toBinary64.map .float

/-- A fraction that begins with a point; underscores may stand between its digits. -/
def pointed? (text : Bytes) : Option Value :=
  if Integer.separatesDigits false .start text then fraction? (text.filter (· ≠ ascii '_'))
  else none

/-- A whole number in the base given by its first two characters, a sign before them counting as
part of the number. -/
def based? (mark : String) (base : Nat) (text : Bytes) : Option Value :=
  match Bytes.afterStart? (utf8 mark) text, Bytes.afterStart? (utf8 ("-" ++ mark)) text with
  | some rest, _ =>
    let (negative, digits) := Integer.sign rest
    if digits.length < rest.length then
      match (Integer.digits base digits).bind (Integer.signed negative) with
      | .ok n => some (.int n)
      | .error _ => none
    else
      match Integer.digits base rest with
      | .ok n => some (.int n)
      | .error _ => none
  | none, some rest =>
    match (Integer.digits base rest).bind (Integer.signed true) with
    | .ok n => some (.int n)
    | .error _ => none
  | none, none => none

/-- The number that a text is, once its underscores are removed. -/
def number? (text : Bytes) : Option Value :=
  let plain := text.filter (· ≠ ascii '_')
  match Integer.parse plain, Integer.unsigned plain with
  | .ok n, _ => some (.int n)
  | _, .ok n => some (.int n)
  | _, _ => fraction? plain <|> based? "0b" 2 plain <|> based? "0o" 8 plain

/-- A number or a timestamp, of a text that begins with a digit or a sign. -/
def measure? (text : Bytes) : Option Value :=
  if Timestamp.isTimestamp text then some .time else number? text

/-- The bytes a word may begin with. -/
def isWordStart (b : UInt8) : Bool :=
  (utf8 "yYnNtTfFoO~").contains b

/-- **The value of a plain scalar**: the first byte says what it may be, and what is nothing else
is text. -/
def resolve (text : Bytes) : Value :=
  match text with
  | [] => .null
  | b :: _ =>
    if b = ascii '+' || b = ascii '-' || Bytes.isDigit b then
      (word? text <|> measure? text).getD (.text text)
    else if isWordStart b then (word? text).getD (.text text)
    else if b = ascii '.' then (word? text <|> pointed? text).getD (.text text)
    else .text text

end Linewise.Yaml

import Linewise.Bytes

/-!
# Timestamps

A plain scalar that is written as a date, perhaps with a time of day, is a
timestamp. The date has a year of four digits and a month and a day of one or two.

## Main definitions

* `Timestamp.isTimestamp` — is the text a timestamp?
-/

namespace Linewise.Yaml.Timestamp

/-- Reads one or two digits. -/
def pair? : Bytes → Option (Nat × Bytes)
  | a :: b :: rest =>
    if !Bytes.isDigit a then none
    else if Bytes.isDigit b then some ((a.toNat - 0x30) * 10 + (b.toNat - 0x30), rest)
    else some (a.toNat - 0x30, b :: rest)
  | [a] => if Bytes.isDigit a then some (a.toNat - 0x30, []) else none
  | [] => none

/-- Reads exactly two digits. -/
def twoDigits? : Bytes → Option (Nat × Bytes)
  | a :: b :: rest =>
    if Bytes.isDigit a && Bytes.isDigit b then
      some ((a.toNat - 0x30) * 10 + (b.toNat - 0x30), rest)
    else none
  | _ => none

/-- What follows a byte, if the text begins with it. -/
def after? (b : UInt8) : Bytes → Option Bytes
  | c :: rest => if b = c then some rest else none
  | [] => none

/-- Is the year a leap year? -/
def isLeap (year : Nat) : Bool :=
  year % 4 = 0 && (year % 100 ≠ 0 || year % 400 = 0)

/-- The number of days of a month. -/
def daysIn (year month : Nat) : Nat :=
  if month = 2 then if isLeap year then 29 else 28
  else if month = 4 || month = 6 || month = 9 || month = 11 then 30
  else 31

/-- Reads a date and returns what follows it. -/
def date? (text : Bytes) : Option Bytes := do
  let year := text.take 4
  if year.length ≠ 4 || !year.all Bytes.isDigit then none
  let rest ← after? (ascii '-') (text.drop 4)
  let (month, rest) ← pair? rest
  if month < 1 || 12 < month then none
  let rest ← after? (ascii '-') rest
  let (day, rest) ← pair? rest
  let year := year.foldl (fun n b => 10 * n + (b.toNat - 0x30)) 0
  if day < 1 || daysIn year month < day then none
  return rest

/-- Drops a fraction of a second: a point or a comma and digits. -/
def dropFraction : Bytes → Bytes
  | mark :: digit :: rest =>
    if (mark = ascii '.' || mark = ascii ',') && Bytes.isDigit digit then
      rest.dropWhile Bytes.isDigit
    else mark :: digit :: rest
  | text => text

/-- Reads a time of day and returns what follows it. -/
def clock? (text : Bytes) : Option Bytes := do
  let (hour, rest) ← pair? text
  if 24 ≤ hour then none
  let (minute, rest) ← pair? (← after? (ascii ':') rest)
  if 60 ≤ minute then none
  let (second, rest) ← pair? (← after? (ascii ':') rest)
  if 60 ≤ second then none
  return dropFraction rest

/-- Is the text an offset from universal time: the letter `Z`, or a sign with hours and minutes? -/
def isOffset : Bytes → Bool
  | [b] => b = ascii 'Z'
  | sign :: rest =>
    (sign = ascii '+' || sign = ascii '-') &&
      match twoDigits? rest with
      | some (hours, colon :: rest) =>
        colon = ascii ':' && hours ≤ 24 &&
          match twoDigits? rest with
          | some (minutes, []) => minutes ≤ 60
          | _ => false
      | _ => false
  | [] => false

/-- Is what follows a date a time of day in one of the forms with or without an offset? -/
def isTime : Bytes → Bool
  | [] => true
  | b :: rest =>
    if b = ascii 'T' || b = ascii 't' then
      match clock? rest with
      | some rest => isOffset rest
      | none => false
    else if b = Bytes.space then clock? (rest.dropWhile (· = Bytes.space)) = some []
    else false

/-- **Is the text a timestamp?** -/
def isTimestamp (text : Bytes) : Bool :=
  match date? text with
  | some rest => isTime rest
  | none => false

end Linewise.Yaml.Timestamp

import Linewise.Decimal.Shortest

/-!
# Durations

A duration is a number of nanoseconds. Its text names the largest unit that fits:
hours, minutes and seconds from one second on, and one of milli-, micro- and
nanoseconds below. A report rounds it to whole microseconds first.

## Main definitions

* `Duration.round` — the nearest multiple of a unit.
* `Duration.text` — the text of a duration.
* `Duration.seconds` — the duration in seconds.
-/

namespace Linewise.Duration

/-- A microsecond. -/
def microsecond : Int := 1000

/-- A second. -/
def second : Int := 1000000000

/-- The longest duration. -/
def longest : Int := (Nat.pow 2 63 - 1 : Nat)

/-- The longest negative duration. -/
def least : Int := -(Nat.pow 2 63 : Nat)

/-- **The nearest multiple of a unit**, a half away from zero; it stays within the bounds of a
duration. -/
def round (unit d : Int) : Int :=
  let magnitude : Int := d.natAbs
  let rounded := (magnitude + unit / 2) / unit * unit
  if d < 0 then max least (-rounded) else min longest rounded

/-- The number `n / 10 ^ places` without trailing zeros. -/
def scaled (places n : Nat) : Bytes :=
  (Decimal.strip places ⟨n, -(places : Int)⟩).positional

/-- The text of a positive number of nanoseconds below a second. -/
def shortText (n : Nat) : Bytes :=
  if n < 1000 then Bytes.ofNat n ++ utf8 "ns"
  else if n < 1000000 then scaled 3 n ++ utf8 "µs"
  else scaled 6 n ++ utf8 "ms"

/-- The text of a number of nanoseconds of at least a second. -/
def longText (n : Nat) : Bytes :=
  let wholeSeconds := n / 1000000000
  let minutes := wholeSeconds / 60
  let hours := minutes / 60
  let rest := scaled 9 (n - minutes * 60 * 1000000000) ++ utf8 "s"
  if hours > 0 then
    Bytes.ofNat hours ++ utf8 "h" ++ Bytes.ofNat (minutes % 60) ++ utf8 "m" ++ rest
  else if minutes > 0 then Bytes.ofNat minutes ++ utf8 "m" ++ rest
  else rest

/-- **The text of a duration.** -/
def text (d : Int) : Bytes :=
  let magnitude := d.natAbs
  let body :=
    if magnitude = 0 then utf8 "0s"
    else if magnitude < 1000000000 then shortText magnitude
    else longText magnitude
  if d < 0 then ascii '-' :: body else body

/-- **The duration in seconds**: whole seconds plus the fraction, each rounded. -/
def seconds (d : Int) : Binary64 :=
  (Binary64.ofInt (d.tdiv second)).add
    ((Binary64.ofInt (d.tmod second)).div (Binary64.ofInt second))

end Linewise.Duration

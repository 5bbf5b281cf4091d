import Linewise.Decimal.Shortest

/-!
# Sizes

A number of bytes is shown in the largest binary unit of which it holds at least
one, with one decimal place. The unit is searched for in 64-bit arithmetic: the
size is divided while the unit is multiplied.

## Main definitions

* `Size.Search` — the search for the unit of a size.
* `sizeText` — the text of a size.
-/

namespace Linewise

namespace Size

/-- How many of a unit make the next one. -/
def unit : Int64 := 1024

/-- Division by the unit is exact on numbers that are not negative. -/
theorem toInt_div_unit {x : Int64} (h : 0 ≤ x.toInt) : (x / unit).toInt = x.toInt / 1024 := by
  have hhigh := x.toInt_lt
  have hdiv : (x / unit).toInt = (x.toInt.tdiv 1024).bmod (2 ^ 64) := Int64.toInt_div x unit
  rw [hdiv, Int.tdiv_eq_ediv_of_nonneg h]
  exact Int.bmod_eq_of_le (by omega) (by omega)

/-- The letters of the units from 1024 bytes on. -/
def letters : List Char :=
  ['K', 'M', 'G', 'T', 'P', 'E']

/-- **A state of the search for the unit of a size.** -/
structure Search where
  /-- The size in the unit, cut to a whole number. -/
  amount : Int64
  /-- The number of bytes in the unit. -/
  bytes : Int64
  /-- The position of the letter of the unit. -/
  position : Nat
deriving DecidableEq, Repr

namespace Search

/-- The search begins at the first unit. -/
def start (n : Int64) : Search where
  amount := n / unit
  bytes := unit
  position := 0

/-- The search goes on to the next unit. -/
def next (s : Search) : Search where
  amount := s.amount / unit
  bytes := s.bytes * unit
  position := s.position + 1

/-- An amount that holds the unit grows smaller when the search goes on. -/
theorem amount_next_lt {s : Search} (h : unit ≤ s.amount) :
    s.next.amount.toInt.toNat < s.amount.toInt.toNat := by
  have hlow : 1024 ≤ s.amount.toInt := Int64.le_iff_toInt_le.mp h
  have hdiv : s.next.amount.toInt = s.amount.toInt / 1024 := toInt_div_unit (by omega)
  omega

/-- The unit of which there are fewer than make the next one. -/
def run (s : Search) : Search :=
  if _h : unit ≤ s.amount then s.next.run else s
termination_by s.amount.toInt.toNat
decreasing_by exact amount_next_lt _h

end Search

/-- A size in a unit, with one place. -/
def number (n bytes : Int64) : Bytes :=
  ((Binary64.ofInt n.toInt).div (Binary64.ofInt bytes.toInt)).fixed 1

/-- The text of a 64-bit size: plain below 1024, and else in its unit. -/
def text (n : Int64) : Bytes :=
  if n < unit then Bytes.decimal n.toInt ++ utf8 " B"
  else
    let found := (Search.start n).run
    number n found.bytes ++ [Bytes.space, ascii (letters.getD found.position 'E')] ++ utf8 "iB"

end Size

/-- **The text of a size**, which is counted in 64 bits. -/
def sizeText (n : Int) : Bytes :=
  Size.text (Int64.ofInt n)

end Linewise

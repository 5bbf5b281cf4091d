import Linewise.Size
import Linewise.Proofs.Binary64

/-!
# The unit and the number of a size

The search for the unit carries two coupled numbers, an amount that is divided and a unit that is
multiplied, both in 64 bits. As long as it goes on, the amount is the size over the unit and
the unit is at most the size. So neither number wraps around, there are no more steps than
there are letters, and the search ends with fewer than 1024 of the unit.

Up to `2 ^ 53` the size is divided exactly, and the only rounding is the one to tenths: to the
nearest, a tie to the even one.

## Main definitions

* `Size.Search.Fits n s`: a state of the search for the unit of `n`
* `Size.Search.Reached n s`: a state that the search comes by

## Main results

* `Size.Search.Fits.next`: one step of the search
* `Size.Search.fits_of_reached`, `Size.Search.reached_run`: all of it
* `Size.exists_number_eq`: the number that is shown
* `sizeText_exact`: the text of every size
-/

namespace Linewise

/-! ## Tenths -/

/-- A number that is rounded to tenths is off by half a tenth at most. -/
theorem RoundsTo.abs_tenths_sub_le {x : ℚ} {t : Int} (h : RoundsTo (10 * x) t) :
    |(t : ℚ) / 10 - x| ≤ 1 / 20 := by
  have hle := h.abs_sub_le_half
  have hscale : (t : ℚ) / 10 - x = (t - 10 * x) / 10 := by ring
  rw [hscale, abs_div, abs_sub_comm, abs_of_pos (by norm_num : (0 : ℚ) < 10),
    div_le_iff₀ (by norm_num)]
  linarith

/-- **A decimal with one place**: the whole part, a point and a digit. -/
theorem positional_tenths (t : Nat) :
    Decimal.positional ⟨t, -1⟩ = Bytes.ofNat (t / 10) ++ ascii '.' :: Bytes.ofNat (t % 10) := by
  have hdigit : Bytes.ofNat (t % 10) = [ascii (t % 10).digitChar] := by
    rw [Bytes.ofNat, Nat.toDigits_of_lt_base (Nat.mod_lt t (by decide))]
    rfl
  rw [hdigit]
  rcases Nat.lt_or_ge t 10 with hlt | hge
  · have hall : Bytes.ofNat t = [ascii (t % 10).digitChar] := by
      rw [← hdigit, Nat.mod_eq_of_lt hlt]
    have hzero : Bytes.ofNat (t / 10) = [ascii '0'] := by
      rw [Nat.div_eq_of_lt hlt]
      rfl
    simp [Decimal.positional, hall, hzero]
  · have hall : Bytes.ofNat t = Bytes.ofNat (t / 10) ++ [ascii (t % 10).digitChar] := by
      rw [Bytes.ofNat, Nat.toDigits_of_base_le (by decide) hge, List.map_append]
      rfl
    have hlength : 1 ≤ (Bytes.ofNat (t / 10)).length := by
      rw [Bytes.ofNat, List.length_map]
      exact List.length_pos_iff.mpr Nat.toDigits_ne_nil
    have hpad : 1 + 1 - ((Bytes.ofNat (t / 10)).length + 1) = 0 := by omega
    simp [Decimal.positional, hall, hpad]

/-- **A number that is shown with one place** is rounded to tenths. -/
theorem exists_fixed_one (m : Nat) (e : Int) :
    ∃ t : Nat, (Binary64.finite false m e).fixed 1
        = Bytes.ofNat (t / 10) ++ ascii '.' :: Bytes.ofNat (t % 10) ∧
      RoundsTo (10 * (m * 2 ^ e)) t := by
  have hden : 0 < (Binary64.ratio m e).2 := Nat.pow_pos two_pos
  refine ⟨roundDiv ((Binary64.ratio m e).1 * 10) (Binary64.ratio m e).2, ?_, ?_⟩
  · rw [← positional_tenths]
    rfl
  · rw [← Binary64.ratio_eq, ← mul_div_assoc, mul_comm]
    exact_mod_cast roundDiv_roundsTo ((Binary64.ratio m e).1 * 10) hden

/-! ## The search for the unit -/

namespace Size

namespace Search

/-- **A state of the search for the unit of a size**, in exact arithmetic: the unit is a power
of 1024 that is at most the size, and the amount is the size in that unit. -/
structure Fits (n : Int64) (s : Search) : Prop where
  bytes_eq : s.bytes.toInt = 1024 ^ (s.position + 1)
  bytes_le : s.bytes ≤ n
  amount_eq : s.amount.toInt = n.toInt / s.bytes.toInt

/-- **The states that the search comes by.** -/
inductive Reached (n : Int64) : Search → Prop where
  | start : Reached n (start n)
  | next {s : Search} : Reached n s → unit ≤ s.amount → Reached n s.next

variable {n : Int64} {s : Search}

/-- The search begins with the unit. -/
theorem fits_start (h : 1024 ≤ n) : Fits n (start n) := by
  have hn : 1024 ≤ n.toInt := Int64.le_iff_toInt_le.mp h
  constructor
  · exact (pow_one 1024).symm
  · exact h
  · exact toInt_div_unit (by omega)

/-- A unit that is at most the size has a letter. -/
theorem Fits.position_lt (h : Fits n s) : s.position < letters.length := by
  have hle := Int64.le_iff_toInt_le.mp h.bytes_le
  have hlt : (1024 : Int) ^ (s.position + 1) < 1024 ^ 7 := by
    rw [← h.bytes_eq]
    exact (hle.trans_lt n.toInt_lt).trans (by norm_num)
  have hposition := (pow_lt_pow_iff_right₀ (by decide)).mp hlt
  have hlength : letters.length = 6 := rfl
  omega

/-- **One step of the search.** The next unit is at most the size, since there are enough of the
last one; so it fits into 64 bits. -/
theorem Fits.next (h : Fits n s) (hunit : unit ≤ s.amount) : Fits n s.next := by
  have hpos : 0 < s.bytes.toInt := by
    rw [h.bytes_eq]
    positivity
  have hamount : 1024 ≤ s.amount.toInt := Int64.le_iff_toInt_le.mp hunit
  have hle : 1024 * s.bytes.toInt ≤ n.toInt := by
    rw [h.amount_eq, Int.le_ediv_iff_mul_le hpos] at hamount
    exact hamount
  have hhigh := n.toInt_lt
  have hbytes : s.next.bytes.toInt = s.bytes.toInt * 1024 := by
    have hmul : s.next.bytes.toInt = (s.bytes.toInt * 1024).bmod (2 ^ 64) :=
      Int64.toInt_mul s.bytes unit
    rw [hmul]
    exact Int.bmod_eq_of_le (by omega) (by omega)
  constructor
  · rw [hbytes, h.bytes_eq]
    exact (pow_succ 1024 (s.position + 1)).symm
  · rw [Int64.le_iff_toInt_le, hbytes, mul_comm]
    exact hle
  · rw [hbytes, ← Int.ediv_ediv_of_nonneg hpos.le, ← h.amount_eq]
    exact toInt_div_unit (by omega)

/-- **The whole search** goes through such states. -/
theorem fits_of_reached (h : 1024 ≤ n) (hs : Reached n s) : Fits n s := by
  induction hs with
  | start => exact fits_start h
  | next _ hunit ih => exact ih.next hunit

/-- The search ends in a state it comes by, with fewer of the unit than make the next one. -/
theorem reached_run (hs : Reached n s) : Reached n s.run ∧ s.run.amount < unit := by
  fun_induction run s with
  | case1 s hunit ih => exact ih (hs.next hunit)
  | case2 s hunit => exact ⟨hs, Int64.not_le.mp hunit⟩

end Search

variable {n : Int64}

/-- From 1024 bytes on the text shows the unit that is found. -/
theorem text_of_unit_le (h : unit ≤ n) {letter : Char}
    (hletter : letters[(Search.start n).run.position]? = some letter) :
    text n = number n (Search.start n).run.bytes ++ [Bytes.space, ascii letter] ++ utf8 "iB" := by
  simp only [text, if_neg (Int64.not_lt.mpr h), List.getD_eq_getElem?_getD, hletter,
    Option.getD_some]

/-- **The number of units that is shown** for a size up to `2 ^ 53` is the quotient to the nearest
tenth. -/
theorem exists_number_eq {s : Search} (h : Search.Fits n s) (hn : n.toInt ≤ 2 ^ 53) :
    ∃ t : Nat, number n s.bytes = Bytes.ofNat (t / 10) ++ ascii '.' :: Bytes.ofNat (t % 10) ∧
      RoundsTo (10 * (n.toInt / s.bytes.toInt)) t := by
  have hbytes : s.bytes.toInt = (2 ^ (10 * (s.position + 1)) : Nat) := by
    rw [h.bytes_eq, pow_mul]
    push_cast
    norm_num
  have hle := Int64.le_iff_toInt_le.mp h.bytes_le
  obtain ⟨k, hk⟩ := Int.eq_ofNat_of_zero_le ((hbytes ▸ Int.natCast_nonneg _).trans hle)
  rw [hbytes, hk] at hle
  rw [hk] at hn
  obtain ⟨m, e, hdiv, hvalue⟩ :=
    Binary64.exists_div_ofInt (n := k) (by exact_mod_cast hn) (Int.ofNat_le.mp hle)
  obtain ⟨t, hfixed, hround⟩ := exists_fixed_one m e
  refine ⟨t, ?_, ?_⟩
  · rw [number, hbytes, hk, hdiv, hfixed]
  · rw [hvalue] at hround
    rw [hbytes, hk, Int.cast_natCast, Int.cast_natCast, Nat.cast_pow, Nat.cast_ofNat]
    exact hround

end Size

open Size in
/-- **The text of every size.** Below 1024 it is the number of bytes. From there on the search for
the unit never leaves the 64 bits nor the letters, it ends with the unit of which the size
holds at least one and fewer than 1024, and that unit is shown; up to `2 ^ 53` the number in
front of it is the quotient to the nearest tenth, a tie to the even one, and so off by half a
tenth at most. -/
theorem sizeText_exact (n : Int64) :
    (n < 1024 → sizeText n.toInt = Bytes.decimal n.toInt ++ utf8 " B") ∧
    (1024 ≤ n →
      (∀ s, Search.Reached n s → s.Fits n ∧ s.position < letters.length) ∧
      ∃ found letter, found = (Search.start n).run ∧ Search.Reached n found ∧
        found.bytes.toInt = 1024 ^ (found.position + 1) ∧ found.position ≤ 5 ∧
        found.bytes.toInt ≤ n.toInt ∧ n.toInt / found.bytes.toInt < 1024 ∧
        letters[found.position]? = some letter ∧
        sizeText n.toInt = number n found.bytes ++ [Bytes.space, ascii letter] ++ utf8 "iB" ∧
        (n.toInt ≤ 2 ^ 53 →
          ∃ t : Nat, number n found.bytes
              = Bytes.ofNat (t / 10) ++ ascii '.' :: Bytes.ofNat (t % 10) ∧
            RoundsTo (10 * (n.toInt / found.bytes.toInt)) t ∧
            |(t : ℚ) / 10 - n.toInt / found.bytes.toInt| ≤ 1 / 20)) := by
  have hsize : sizeText n.toInt = text n := by rw [sizeText, Int64.ofInt_toInt]
  rw [hsize]
  constructor
  · intro hn
    rw [text]
    exact if_pos hn
  · intro hn
    have hfits : ∀ s, Search.Reached n s → s.Fits n := fun s => Search.fits_of_reached hn
    obtain ⟨hreached, hend⟩ := Search.reached_run (Search.Reached.start (n := n))
    have hfound := hfits _ hreached
    have hletter := List.getElem?_eq_getElem hfound.position_lt
    refine ⟨fun s hs => ⟨hfits s hs, (hfits s hs).position_lt⟩, _, _, rfl, hreached,
      hfound.bytes_eq, Nat.le_of_lt_succ hfound.position_lt,
      Int64.le_iff_toInt_le.mp hfound.bytes_le, ?_, hletter, text_of_unit_le hn hletter, ?_⟩
    · rw [← hfound.amount_eq]
      exact Int64.lt_iff_toInt_lt.mp hend
    · intro hexact
      obtain ⟨t, hnumber, hround⟩ := exists_number_eq hfound hexact
      exact ⟨t, hnumber, hround, hround.abs_tenths_sub_le⟩

/-- Halfway between 1.2 and 1.3 of its unit, a size is shown with the even digit. -/
theorem sizeText_exact_halfway : sizeText (1280 : Int64).toInt = utf8 "1.2 KiB" := by
  have hn : (1280 : Int64).toInt = 1280 := rfl
  obtain ⟨-, found, letter, -, -, hbytes, -, hle, -, hletter, htext, hnumber⟩ :=
    (sizeText_exact 1280).2 (by decide)
  have hposition : found.position = 0 := by
    by_contra hne
    have hpow : (1024 : Int) ^ 2 ≤ 1024 ^ (found.position + 1) :=
      pow_le_pow_right₀ (by decide) (by omega)
    rw [hbytes] at hle
    omega
  obtain ⟨t, hnumber, hround, -⟩ := hnumber (by decide)
  have hquotient : (10 * ((1280 : Int64).toInt / found.bytes.toInt) : ℚ) = 25 / 2 := by
    rw [hbytes, hposition, hn]
    norm_num
  have htwelve : RoundsTo (25 / 2) 12 := .of_abs_sub (.inr ⟨by norm_num, by decide⟩)
  obtain rfl : t = 12 := Int.natCast_inj.mp ((hquotient ▸ hround).unique htwelve)
  rw [hposition] at hletter
  obtain rfl : 'K' = letter := Option.some.inj hletter
  rw [htext, hnumber]
  decide

end Linewise

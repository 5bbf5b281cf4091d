import Linewise.Decimal.Reading
import Linewise.Decimal.Shortest
import Linewise.Proofs.Binary64
import Linewise.Proofs.Numerals

/-!
# Numbers that are read back

The text of a number is a decimal, and reading the decimal gives the number again. The search
for few digits tests each decimal against the interval of what rounds to the number, so all
that can go wrong is that it finds none; a whole number has its own digits to fall back on.
What is in the interval has the exponent of the number, or the one below it where the number is
a power of two, and is rounded to its mantissa.

A decimal is written positionally or with an exponent of ten. In both forms the digits are read
as the number they spell, and the point and the exponent move them where they were.

## Main definitions

* `Decimal.value`: the number that digits and a power of ten stand for
* `Interval.Contains`: the numbers in an interval
* `Fraction.Spells`: a fraction that was read stands for a number

## Main results

* `Decimal.holds_iff`, `Decimal.contains_shortest`: the decimal that is found rounds to the number
* `Binary64.ofRatio_of_contains`: what is in the interval of a number is rounded to it
* `Decimal.spells_positional`, `Decimal.spells_scientific`: both ways to write a decimal
* `Binary64.read?_compactText`: the text of a whole number is read back
-/

namespace Linewise

/-! ## Decimals as numbers -/

/-- A power of ten, by a natural power above and one below. -/
theorem ten_zpow_mul (p : Int) : (10 : ℚ) ^ p * 10 ^ (-p).toNat = 10 ^ p.toNat := by
  rw [← zpow_natCast, ← zpow_natCast, ← zpow_add₀ (by norm_num)]
  congr 1
  omega

theorem ten_zpow_pos (p : Int) : (0 : ℚ) < 10 ^ p :=
  zpow_pos (by norm_num) p

namespace Decimal

/-- **The number that a decimal stands for.** -/
def value (d : Decimal) : ℚ :=
  d.digits * 10 ^ d.exponent

section Compare

variable {a num den : Nat} (hden : 0 < den) (p : Int)
include hden

theorem atMost_iff : atMost a p num den = true ↔ (a : ℚ) * 10 ^ p ≤ num / den := by
  have hpos : (0 : ℚ) < den := by exact_mod_cast hden
  have hscale : (0 : ℚ) < 10 ^ (-p).toNat := by positivity
  rw [atMost, decide_eq_true_iff, le_div_iff₀ hpos, ← mul_le_mul_iff_left₀ hscale,
    ← Rat.natCast_le_natCast]
  push_cast [Nat.pow_eq]
  rw [← ten_zpow_mul p]
  ring_nf

theorem atLeast_iff : atLeast a p num den = true ↔ (num : ℚ) / den ≤ a * 10 ^ p := by
  have hpos : (0 : ℚ) < den := by exact_mod_cast hden
  have hscale : (0 : ℚ) < 10 ^ (-p).toNat := by positivity
  rw [atLeast, decide_eq_true_iff, div_le_iff₀ hpos, ← mul_le_mul_iff_left₀ hscale,
    ← Rat.natCast_le_natCast]
  push_cast [Nat.pow_eq]
  rw [← ten_zpow_mul p]
  ring_nf

end Compare

/-! ## The interval of a number -/

/-- **The numbers in an interval**, with the ends or without them. -/
def Interval.Contains (interval : Interval) (x : ℚ) : Prop :=
  let low : ℚ := interval.low * 2 ^ interval.exponent
  let high : ℚ := interval.high * 2 ^ interval.exponent
  if interval.closed then low ≤ x ∧ x ≤ high else low < x ∧ x < high

/-- **A decimal is tested against the interval.** -/
theorem holds_iff (interval : Interval) (a : Nat) (p : Int) :
    interval.holds a p = true ↔ interval.Contains (a * 10 ^ p) := by
  have hden : 0 < (Binary64.ratio interval.low interval.exponent).2 := Nat.pow_pos two_pos
  have hratio := Binary64.ratio_eq interval.low interval.exponent
  have hratio' : ((Binary64.ratio interval.high interval.exponent).1 : ℚ)
      / (Binary64.ratio interval.low interval.exponent).2 = _ :=
    Binary64.ratio_eq interval.high interval.exponent
  rw [Interval.holds, Interval.Contains]
  simp only
  split_ifs
  · rw [Bool.and_eq_true, atLeast_iff hden, atMost_iff hden, hratio, hratio']
  · rw [Bool.and_eq_true, Bool.not_eq_true', Bool.not_eq_true', ← Bool.not_eq_true,
      ← Bool.not_eq_true, atLeast_iff hden, atMost_iff hden, hratio, hratio', not_le, not_le]

/-- The nearest decimal of some length is in the interval, if there is one. -/
theorem contains_nearest? {interval : Interval} {num den places : Nat} {d : Decimal}
    (h : nearest? interval num den places = some d) : interval.Contains d.value := by
  simp only [nearest?] at h
  generalize leading num den - ((places - 1 : Nat) : Int) = p at h
  generalize num * Nat.pow 10 (-p).toNat = scaledNum at h
  generalize den * Nat.pow 10 p.toNat = scaledDen at h
  split at h
  · cases h
  · next hfloor _ =>
    obtain rfl := Option.some.inj h
    exact (holds_iff _ _ _).mp hfloor
  · next _ hnext =>
    obtain rfl := Option.some.inj h
    exact (holds_iff _ _ _).mp hnext
  · next hfloor hnext =>
    obtain rfl := Option.some.inj h
    rcases roundDiv_eq_or scaledNum scaledDen with hround | hround
    · rw [hround]
      exact (holds_iff _ _ _).mp hfloor
    · rw [hround]
      exact (holds_iff _ _ _).mp hnext

@[simp] theorem value_strip (fuel : Nat) (d : Decimal) : (strip fuel d).value = d.value := by
  induction fuel generalizing d with
  | zero => rfl
  | succ fuel ih =>
    rw [strip]
    split_ifs with hzero
    · have hdigits : d.digits = 10 * (d.digits / 10) := by omega
      rw [ih, value, value]
      simp only
      conv_rhs => rw [hdigits]
      rw [zpow_add₀ (by norm_num)]
      push_cast
      ring
    · rfl

variable {m : Nat} {e : Int}

/-- The two ends of an interval are around its number. -/
theorem contains_around (hm : m ≠ 0) : (Interval.around m e).Contains (m * 2 ^ e) := by
  have hpos := Binary64.two_zpow_pos (e - 2)
  have hquarters : (m * 2 ^ e : ℚ) = (4 * m : Nat) * 2 ^ (e - 2) := by
    push_cast
    rw [zpow_sub₀ two_ne_zero]
    ring
  have hlow : (Interval.around m e).low < 4 * m := by
    simp only [Interval.around]
    split_ifs <;> omega
  have hhigh : 4 * m < (Interval.around m e).high := by
    simp only [Interval.around]
    omega
  have hlow' : ((Interval.around m e).low * 2 ^ (e - 2) : ℚ) < (4 * m : Nat) * 2 ^ (e - 2) :=
    mul_lt_mul_of_pos_right (by exact_mod_cast hlow) hpos
  have hhigh' : ((4 * m : Nat) * 2 ^ (e - 2) : ℚ) < (Interval.around m e).high * 2 ^ (e - 2) :=
    mul_lt_mul_of_pos_right (by exact_mod_cast hhigh) hpos
  rw [Interval.Contains, hquarters]
  change ite _ (((Interval.around m e).low * 2 ^ (e - 2) : ℚ) ≤ _ ∧ _ ≤ _) _
  split_ifs
  · exact ⟨hlow'.le, hhigh'.le⟩
  · exact ⟨hlow', hhigh'⟩

/-- **The decimal that is found rounds to the number**: it is in the interval, or it is the whole
number itself. -/
theorem contains_shortest {v : Nat} (hm : m ≠ 0) (hv : (m * 2 ^ e : ℚ) = v) :
    (Interval.around m e).Contains (shortest m e).value := by
  rw [shortest, if_neg hm]
  simp only [value_strip]
  cases hfind : (List.range 17).findSome? fun k =>
      nearest? (Interval.around m e) (Binary64.ratio m e).1 (Binary64.ratio m e).2 (k + 1) with
  | some d =>
    obtain ⟨k, -, hk⟩ := List.exists_of_findSome?_eq_some hfind
    exact contains_nearest? hk
  | none =>
    have hden : 0 < (Binary64.ratio m e).2 := Nat.pow_pos two_pos
    have hexact : (Binary64.ratio m e).1 = v * (Binary64.ratio m e).2 := by
      have hratio := (Binary64.ratio_eq m e).trans hv
      rw [div_eq_iff (by exact_mod_cast hden.ne')] at hratio
      exact_mod_cast hratio
    have hvalue : value ⟨(Binary64.ratio m e).1 / (Binary64.ratio m e).2, 0⟩ = m * 2 ^ e := by
      rw [value, hexact, Nat.mul_div_cancel v hden, hv]
      simp
    rw [Option.getD_none, hvalue]
    exact contains_around hm

/-- **An interval in units of the last place**: half of it on either side, and a quarter below a
power of two. -/
theorem contains_around_iff {x : ℚ} :
    (Interval.around m e).Contains x ↔
      if m % 2 = 0 then
        ((Interval.around m e).low / 4 : ℚ) ≤ x / 2 ^ e ∧ x / 2 ^ e ≤ m + 1 / 2
      else ((Interval.around m e).low / 4 : ℚ) < x / 2 ^ e ∧ x / 2 ^ e < m + 1 / 2 := by
  have hpos := Binary64.two_zpow_pos e
  have hunit : (2 : ℚ) ^ (e - 2) = 2 ^ e / 4 := by
    rw [zpow_sub₀ two_ne_zero]
    norm_num
  have hlow : ((Interval.around m e).low * 2 ^ (e - 2) : ℚ)
      = (Interval.around m e).low / 4 * 2 ^ e := by
    rw [hunit]
    ring
  have hhigh : (((Interval.around m e).high : Nat) * 2 ^ (e - 2) : ℚ) = (m + 1 / 2) * 2 ^ e := by
    rw [hunit, Interval.around]
    push_cast
    ring
  have hclosed : (Interval.around m e).closed = decide (m % 2 = 0) := rfl
  rw [Interval.Contains, hclosed]
  change ite _ (((Interval.around m e).low * 2 ^ (e - 2) : ℚ) ≤ x ∧
      x ≤ (Interval.around m e).high * 2 ^ (e - 2))
    (((Interval.around m e).low * 2 ^ (e - 2) : ℚ) < x ∧
      x < (Interval.around m e).high * 2 ^ (e - 2)) ↔ _
  simp only [hlow, hhigh, decide_eq_true_eq, le_div_iff₀ hpos, div_le_iff₀ hpos,
    lt_div_iff₀ hpos, div_lt_iff₀ hpos]

/-- What is in the interval of a number is rounded to its mantissa. -/
theorem roundsTo_of_contains {x : ℚ} (h : (Interval.around m e).Contains x) :
    RoundsTo (x / 2 ^ e) m := by
  have hlow : ((m : ℚ) - 1 / 2) ≤ (Interval.around m e).low / 4 := by
    have hle : 4 * m ≤ (Interval.around m e).low + 2 := by
      simp only [Interval.around]
      split_ifs <;> omega
    have hle' : (4 * m : ℚ) ≤ (Interval.around m e).low + 2 := by exact_mod_cast hle
    linarith
  apply RoundsTo.of_abs_sub
  rw [contains_around_iff] at h
  split_ifs at h with heven
  · have hclose : |x / 2 ^ e - (m : Int)| ≤ 1 / 2 := by
      rw [abs_le, Int.cast_natCast]
      constructor <;> linarith [h.1, h.2]
    exact hclose.lt_or_eq.imp_right fun htie => ⟨htie, by exact_mod_cast Nat.even_iff.mpr heven⟩
  · left
    rw [abs_lt, Int.cast_natCast]
    constructor <;> linarith [h.1, h.2]

end Decimal

/-! ## What rounds to a number -/

namespace Binary64

open Decimal

section Below

variable {m : Nat} {e : Int} {x y : ℚ}

theorem two_zpow_add (e k : Int) : (2 : ℚ) ^ (e + k) = 2 ^ k * 2 ^ e := by
  rw [zpow_add₀ two_ne_zero, mul_comm]

/-- What rounds to a full mantissa and is too small for its exponent rounds to the least one. -/
theorem eq_of_roundsTo_of_lt (h : Spelt m e x) (hround : RoundsTo (y / 2 ^ e) m)
    (hbelow : y < 2 ^ (e + 52)) : m = 2 ^ 52 := by
  have hto := (abs_le.mp hround.abs_sub_le_half).1
  rw [Int.cast_natCast] at hto
  have hbelow : y / 2 ^ e < 2 ^ 52 := by
    rw [two_zpow_add, ← div_lt_iff₀ (two_zpow_pos e)] at hbelow
    exact_mod_cast hbelow
  have hlt : (m : ℚ) < (2 ^ 52 : Nat) + 1 := by
    push_cast
    linarith
  exact le_antisymm (Nat.lt_succ_iff.mp (by exact_mod_cast hlt)) h.low

/-- Below a power of two the interval goes down by a quarter. -/
theorem le_of_contains_pow (hmin : minExponent < e)
    (h : (Interval.around (2 ^ 52) e).Contains y) : (2 ^ 52 - 1 / 4 : ℚ) ≤ y / 2 ^ e := by
  have hends : (Interval.around (2 ^ 52) e).low = 4 * 2 ^ 52 - 1 := by
    simp [Interval.around, precision, hmin]
  have hclosed := contains_around_iff.mp h
  rw [if_pos (by decide), hends] at hclosed
  have hfirst := hclosed.1
  norm_num at hfirst ⊢
  linarith

/-- There the exponent is one less, and the mantissa is rounded up to the power of two. -/
theorem roundsTo_below (hquarter : (2 ^ 52 - 1 / 4 : ℚ) ≤ y / 2 ^ e) (hbelow : y < 2 ^ (e + 52)) :
    RoundsTo (y / 2 ^ (e - 1)) (2 ^ 53 : Nat) := by
  have hbelow : y / 2 ^ e < 2 ^ 52 := by
    rw [two_zpow_add, ← div_lt_iff₀ (two_zpow_pos e)] at hbelow
    exact_mod_cast hbelow
  have hdouble : y / 2 ^ (e - 1) = 2 * (y / 2 ^ e) := by
    rw [zpow_sub_one₀ two_ne_zero]
    field_simp
  apply RoundsTo.of_abs_sub
  have hclose : |y / 2 ^ (e - 1) - ((2 ^ 53 : Nat) : Int)| ≤ 1 / 2 := by
    rw [hdouble, abs_le]
    push_cast
    constructor <;> linarith
  exact hclose.lt_or_eq.imp_right fun htie => ⟨htie, by decide⟩

end Below

/-- **What is in the interval of a number is rounded to it.** -/
theorem ofRatio_of_contains {m num den : Nat} {e : Int} {x : ℚ} (h : Spelt m e x)
    (hmin : minExponent < e) (hden : den ≠ 0)
    (hcontains : (Interval.around m e).Contains ((num : ℚ) / den)) (negative : Bool) :
    ofRatio negative num den = finite negative m e := by
  have hround := roundsTo_of_contains hcontains
  have hpos := two_zpow_pos e
  rcases le_or_gt ((2 : ℚ) ^ (e + 52)) (num / den) with habove | hbelow
  · have hlt : (num : ℚ) / den < 2 ^ (e + 53) := by
      have hhigh : (m : ℚ) + 1 ≤ 2 ^ 53 := by exact_mod_cast h.high
      have hto := (abs_le.mp hround.abs_sub_le_half).2
      rw [Int.cast_natCast] at hto
      rw [two_zpow_add, ← div_lt_iff₀ hpos]
      norm_num at hhigh ⊢
      linarith
    exact ofRatio_eq hden habove hlt h.least h.most hround h.high negative
  · obtain rfl := eq_of_roundsTo_of_lt h hround hbelow
    have hquarter := le_of_contains_pow hmin hcontains
    have hround' := roundsTo_below hquarter hbelow
    have hlow : (2 : ℚ) ^ (e - 1 + 52) ≤ num / den := by
      have hexponent : e - 1 + 52 = e + 51 := by ring
      rw [hexponent, two_zpow_add, ← le_div_iff₀ hpos]
      norm_num at hquarter ⊢
      linarith
    have hhigh : (num : ℚ) / den < 2 ^ (e - 1 + 53) := by
      have hexponent : e - 1 + 53 = e + 52 := by ring
      rw [hexponent]
      exact hbelow
    have hmost := h.most
    rw [ofRatio_eq_of_carried hden hlow hhigh (by omega) (by omega) hround' negative,
      sub_add_cancel]

end Binary64

/-! ## Reading a decimal -/

namespace Fraction

theorem foldl_number (init : Nat) (ds : Bytes) :
    ds.foldl (fun value b => 10 * value + (b.toNat - 0x30)) init
      = init * 10 ^ ds.length + number ds := by
  induction ds generalizing init with
  | nil => simp [number]
  | cons b ds ih =>
    rw [number, List.foldl_cons, List.foldl_cons, ih, ih, List.length_cons, pow_succ]
    ring

theorem number_append (ds es : Bytes) :
    number (ds ++ es) = number ds * 10 ^ es.length + number es := by
  rw [number, List.foldl_append, foldl_number]
  rfl

theorem number_replicate_zero (n : Nat) : number (List.replicate n (ascii '0')) = 0 := by
  induction n with
  | zero => rfl
  | succ n ih =>
    have hzero : number [ascii '0'] = 0 := rfl
    rw [List.replicate_succ, ← List.singleton_append, number_append, ih, hzero, zero_mul]

/-- **The digits of a number are read as the number.** -/
theorem number_ofNat (n : Nat) : number (Bytes.ofNat n) = n := by
  have hspelt : ∀ cs : List Char, (∀ c ∈ cs, 48 ≤ c.toNat ∧ c.toNat ≤ 57) → ∀ init : Nat,
      (cs.map ascii).foldl (fun value b => 10 * value + (b.toNat - 0x30)) init
        = Nat.ofDigitChars 10 cs init := by
    intro cs hcs
    induction cs with
    | nil => exact fun init => rfl
    | cons c cs ih =>
      intro init
      obtain ⟨hc, hcs⟩ := List.forall_mem_cons.mp hcs
      rw [List.map_cons, List.foldl_cons, ih hcs, Nat.ofDigitChars_cons, toNat_ascii hc]
      rfl
  rw [number, Bytes.ofNat, hspelt _ (fun c => toNat_of_mem_toDigits) 0]
  exact Nat.ofDigitChars_ten_toDigits

theorem isDigit_of_mem_replicate {n : Nat} {b : UInt8} (h : b ∈ List.replicate n (ascii '0')) :
    Bytes.isDigit b = true := by
  rw [List.eq_of_mem_replicate h]
  rfl

theorem number_lt {ds : Bytes} (h : ∀ b ∈ ds, Bytes.isDigit b = true) :
    number ds < 10 ^ ds.length := by
  induction ds with
  | nil => exact Nat.one_pos
  | cons b ds ih =>
    obtain ⟨hb, hds⟩ := List.forall_mem_cons.mp h
    have hdigit : b.toNat - 0x30 ≤ 9 := by
      simp only [Bytes.isDigit, Bool.and_eq_true, decide_eq_true_eq, UInt8.le_iff_toNat_le] at hb
      have hnine := hb.2
      change b.toNat ≤ 57 at hnine
      omega
    have hrest := ih hds
    rw [← List.singleton_append, number_append, List.length_append, List.length_singleton, pow_add]
    have hfirst : number [b] = b.toNat - 0x30 := by simp [number]
    rw [hfirst]
    nlinarith [Nat.pow_pos (n := ds.length) (by decide : 0 < 10)]

/-- Zeros in front of a numeral are digits. -/
theorem isDigit_padded (zeros n : Nat) :
    ∀ b ∈ List.replicate zeros (ascii '0') ++ Bytes.ofNat n, Bytes.isDigit b = true := by
  intro b hb
  rcases List.mem_append.mp hb with hzero | hdigit
  · exact isDigit_of_mem_replicate hzero
  · exact isDigit_ofNat hdigit

/-- They do not change the number. -/
theorem number_padded (zeros n : Nat) :
    number (List.replicate zeros (ascii '0') ++ Bytes.ofNat n) = n := by
  rw [number_append, number_replicate_zero, number_ofNat, zero_mul, zero_add]

/-- **An exponent of ten is read**, whatever zeros it is filled up with. -/
theorem power?_exponent (p : Int) (zeros : Nat) :
    power? (ascii 'e' :: ascii (if p < 0 then '-' else '+')
      :: (List.replicate zeros (ascii '0') ++ Bytes.ofNat p.natAbs)) = some p := by
  have hdigits := isDigit_padded zeros p.natAbs
  have hnumber := number_padded zeros p.natAbs
  have hne : List.replicate zeros (ascii '0') ++ Bytes.ofNat p.natAbs ≠ [] :=
    List.append_ne_nil_of_right_ne_nil _ (ofNat_ne_nil _)
  generalize List.replicate zeros (ascii '0') ++ Bytes.ofNat p.natAbs = ds at hdigits hnumber hne
  have hempty : ds.isEmpty = false := by simpa using hne
  have hall : ds.all Bytes.isDigit = true := List.all_eq_true.mpr hdigits
  by_cases hp : p < 0
  · rw [if_pos hp]
    change (if (ds.isEmpty || !ds.all Bytes.isDigit) = true then none
      else some (-(number ds : Int))) = some p
    rw [hempty, hall, hnumber, if_neg (by decide)]
    congr 1
    omega
  · rw [if_neg hp]
    change (if (ds.isEmpty || !ds.all Bytes.isDigit) = true then none
      else some (number ds : Int)) = some p
    rw [hempty, hall, hnumber, if_neg (by decide)]
    congr 1
    omega

section Read

variable {whole part tail : Bytes}

/-- Digits end where something else begins. -/
theorem span_digits {ds : Bytes} (h : ∀ b ∈ ds, Bytes.isDigit b = true)
    (htail : tail.takeWhile Bytes.isDigit = []) :
    (ds ++ tail).takeWhile Bytes.isDigit = ds ∧ (ds ++ tail).dropWhile Bytes.isDigit = tail := by
  have hdrop : tail.dropWhile Bytes.isDigit = tail := by
    simpa [htail] using List.takeWhile_append_dropWhile (p := Bytes.isDigit) (l := tail)
  rw [List.takeWhile_append_of_pos h, List.dropWhile_append_of_pos h, htail, hdrop,
    List.append_nil]
  exact ⟨rfl, rfl⟩

variable (hwhole : ∀ b ∈ whole, Bytes.isDigit b = true) (hne : whole ≠ [])
include hwhole hne

/-- A text that begins with a digit has no sign. -/
theorem read?_of_isDigit (rest : Bytes) :
    read? (whole ++ rest) = unsigned? false (whole ++ rest) := by
  obtain ⟨b, whole, rfl⟩ := List.exists_cons_of_ne_nil hne
  have hb := hwhole b List.mem_cons_self
  rw [List.cons_append, read?.eq_def]
  split
  · next heq =>
    rw [(List.cons.inj heq).1] at hb
    cases hb
  · next heq =>
    rw [(List.cons.inj heq).1] at hb
    cases hb
  · rfl

/-- Digits, a point and digits. -/
theorem read?_pointed (hpart : ∀ b ∈ part, Bytes.isDigit b = true)
    (htail : tail.takeWhile Bytes.isDigit = []) :
    read? (whole ++ ascii '.' :: (part ++ tail))
      = (power? tail).map fun power => ⟨false, whole, part, true, power⟩ := by
  have hpointed : (ascii '.' :: (part ++ tail)).takeWhile Bytes.isDigit = [] := rfl
  obtain ⟨hfront, hback⟩ := span_digits hwhole hpointed
  obtain ⟨hpoint, hrest⟩ := span_digits hpart htail
  have hempty : whole.isEmpty = false := by simpa using hne
  rw [read?_of_isDigit hwhole hne, unsigned?, hfront, hback]
  change (if (whole.isEmpty && ((part ++ tail).takeWhile Bytes.isDigit).isEmpty) = true then none
    else (power? ((part ++ tail).dropWhile Bytes.isDigit)).map fun power =>
      (⟨false, whole, (part ++ tail).takeWhile Bytes.isDigit, true, power⟩ : Fraction)) = _
  rw [hpoint, hrest, hempty, Bool.false_and, if_neg Bool.false_ne_true]

/-- Digits without a point. -/
theorem read?_unpointed (htail : tail.takeWhile Bytes.isDigit = [])
    (hpoint : tail.head? ≠ some 0x2E) :
    read? (whole ++ tail) = (power? tail).map fun power => ⟨false, whole, [], false, power⟩ := by
  obtain ⟨hfront, hback⟩ := span_digits hwhole htail
  have hempty : whole.isEmpty = false := by simpa using hne
  rw [read?_of_isDigit hwhole hne, unsigned?, hfront, hback]
  split
  · next rest => exact absurd rfl hpoint
  · rw [hempty, if_neg Bool.false_ne_true]

end Read

/-! ## The value of what was read -/

/-- **A fraction stands for a number**: it has no sign, its digits are digits, and they spell the
number with no zero in front unless there is nothing else before the point. -/
structure Spells (fraction : Fraction) (x : ℚ) : Prop where
  /-- There is no sign. -/
  sign : fraction.negative = false
  /-- The digits are digits. -/
  digits : ∀ b ∈ fraction.whole ++ fraction.part, Bytes.isDigit b = true
  /-- They spell the number. -/
  value : (number (fraction.whole ++ fraction.part) : ℚ)
    * 10 ^ (fraction.power - fraction.part.length) = x
  /-- There is no zero in front, or one digit before the point at most. -/
  first : fraction.power - fraction.part.length + (fraction.whole ++ fraction.part).length ≤ 1 ∨
    (10 : ℚ) ^ (fraction.power - fraction.part.length
      + (fraction.whole ++ fraction.part).length - 1) ≤ x

theorem spells_of {whole part : Bytes} {pointed : Bool} {power : Int} {x : ℚ}
    (hdigits : ∀ b ∈ whole ++ part, Bytes.isDigit b = true)
    (hvalue : (number (whole ++ part) : ℚ) * 10 ^ (power - part.length) = x)
    (hfirst : power - part.length + (whole ++ part).length ≤ 1 ∨
      (10 : ℚ) ^ (power - part.length + (whole ++ part).length - 1) ≤ x) :
    Spells ⟨false, whole, part, pointed, power⟩ x :=
  ⟨rfl, hdigits, hvalue, hfirst⟩

/-- **A fraction of moderate size is the double-precision number it is rounded to.** -/
theorem Spells.toBinary64 {fraction : Fraction} {x : ℚ} (h : fraction.Spells x)
    (hlow : 1 / 2 ≤ x) (hhigh : x < 10 ^ 1000) {m : Nat} {e : Int}
    (hround : ∀ num den : Nat, den ≠ 0 → (num : ℚ) / den = x →
      Binary64.ofRatio false num den = .finite false m e) :
    fraction.toBinary64 = some (.finite false m e) := by
  obtain ⟨negative, whole, part, pointed, power⟩ := fraction
  obtain ⟨rfl, hdigits, hvalue, hfirst⟩ := h
  have hlt := number_lt hdigits
  simp only at hdigits hvalue hfirst hlt
  simp only [Fraction.toBinary64]
  generalize power - (part.length : Int) = place at hvalue hfirst ⊢
  generalize number (whole ++ part) = n at hvalue hlt ⊢
  generalize (whole ++ part).length = size at hfirst hlt ⊢
  have hbelow : x < 10 ^ (place + size) := by
    rw [← hvalue, zpow_add₀ (by norm_num), mul_comm]
    exact mul_lt_mul_of_pos_left (by exact_mod_cast hlt) (ten_zpow_pos place)
  have hsmall : 0 ≤ place + size := by
    by_contra hneg
    have hle : (10 : ℚ) ^ (place + size) ≤ 10 ^ (-1 : Int) :=
      zpow_le_zpow_right₀ (by norm_num) (by omega)
    norm_num at hle
    linarith
  have hlarge : place + size ≤ 1000 := by
    rcases hfirst with hone | hpow
    · omega
    · have hlt : (10 : ℚ) ^ (place + size - 1) < 10 ^ (1000 : Int) := by
        exact_mod_cast hpow.trans_lt hhigh
      have := (zpow_lt_zpow_iff_right₀ (by norm_num)).mp hlt
      omega
  have hn : n ≠ 0 := by
    rintro rfl
    simp at hvalue
    linarith
  have hexact :
      ((n * Nat.pow 10 place.toNat : Nat) : ℚ) / (Nat.pow 10 (-place).toNat : Nat) = x := by
    rw [← hvalue]
    push_cast [Nat.pow_eq]
    rw [← ten_zpow_mul place]
    field_simp
  have hden : Nat.pow 10 (-place).toNat ≠ 0 := (Nat.pow_pos (by decide)).ne'
  have hnear : ¬ place + size < -farthest ∧ ¬ farthest < place + size := by
    rw [farthest]
    omega
  rw [hround _ _ hden hexact]
  simp [hn, hnear.1, hnear.2]

end Fraction

/-- A number other than zero is not smaller than the power of ten of its first digit. -/
theorem pow_length_ofNat_le {n : Nat} (h : n ≠ 0) : 10 ^ ((Bytes.ofNat n).length - 1) ≤ n := by
  rw [Bytes.ofNat, List.length_map]
  by_contra hlt
  rcases Nat.eq_zero_or_pos ((Nat.toDigits 10 n).length - 1) with hzero | hpos
  · rw [hzero] at hlt
    omega
  · have hle := (Nat.length_toDigits_le_iff (by decide) hpos).mpr (not_le.mp hlt)
    have hne := Nat.length_toDigits_pos (b := 10) (n := n)
    omega

namespace Decimal

open Fraction (Spells)

variable {d : Decimal}

theorem length_ofNat_pos (n : Nat) : 0 < (Bytes.ofNat n).length :=
  List.length_pos_iff.mpr (ofNat_ne_nil n)

/-- The first digit of a decimal other than zero stands for a power of ten that is not above the
decimal. -/
theorem pow_le_value (hd : d.digits ≠ 0) :
    (10 : ℚ) ^ (d.exponent + ((Bytes.ofNat d.digits).length - 1 : Nat)) ≤ d.value := by
  rw [value, zpow_add₀ (by norm_num), mul_comm, zpow_natCast]
  exact mul_le_mul_of_nonneg_right (by exact_mod_cast pow_length_ofNat_le hd)
    (ten_zpow_pos _).le

/-- Zeros fill up the places before the point. -/
theorem spells_positional_of_nonneg (hd : d.digits ≠ 0) (h : 0 ≤ d.exponent) :
    ∃ fraction, Fraction.read? d.positional = some fraction ∧ fraction.Spells d.value := by
  have hlength := length_ofNat_pos d.digits
  have hfirst := pow_le_value hd
  obtain ⟨k, hk⟩ := Int.eq_ofNat_of_zero_le h
  have hall : ∀ b ∈ Bytes.ofNat d.digits ++ List.replicate k (ascii '0'), Bytes.isDigit b = true :=
    List.forall_mem_append.mpr
      ⟨fun b => isDigit_ofNat, fun b => Fraction.isDigit_of_mem_replicate⟩
  have htext : d.positional = Bytes.ofNat d.digits ++ List.replicate k (ascii '0') ++ [] := by
    simp [positional, hk, hd]
  refine ⟨⟨false, Bytes.ofNat d.digits ++ List.replicate k (ascii '0'), [], false, 0⟩, ?_, ?_⟩
  · rw [htext, Fraction.read?_unpointed hall
      (List.append_ne_nil_of_left_ne_nil (ofNat_ne_nil _) _) rfl (by simp)]
    rfl
  · refine Fraction.spells_of (by simpa using hall) ?_ (.inr ?_)
    · simp [Fraction.number_append, Fraction.number_ofNat, Fraction.number_replicate_zero, value,
        hk]
    · convert hfirst using 2
      simp [hk]
      omega

/-- Zeros in front make up for places that are missing. -/
theorem spells_positional_of_neg (hd : d.digits ≠ 0) (h : d.exponent < 0) :
    ∃ fraction, Fraction.read? d.positional = some fraction ∧ fraction.Spells d.value := by
  have hlength := length_ofNat_pos d.digits
  have hfirst := pow_le_value hd
  obtain ⟨places, hplaces⟩ : ∃ places : Nat, d.exponent = -(places : Int) :=
    ⟨(-d.exponent).toNat, by omega⟩
  let zeros := places + 1 - (Bytes.ofNat d.digits).length
  set padded := List.replicate zeros (ascii '0') ++ Bytes.ofNat d.digits with hpadded
  have hall : ∀ b ∈ padded, Bytes.isDigit b = true := Fraction.isDigit_padded zeros d.digits
  have hnumber : Fraction.number padded = d.digits := Fraction.number_padded zeros d.digits
  have hsize : padded.length = max (places + 1) (Bytes.ofNat d.digits).length := by
    rw [hpadded, List.length_append, List.length_replicate]
    omega
  have hsplit := List.take_append_drop (padded.length - places) padded
  have hpart : (padded.drop (padded.length - places)).length = places := by
    rw [List.length_drop]
    omega
  have htext : d.positional = padded.take (padded.length - places)
      ++ ascii '.' :: (padded.drop (padded.length - places) ++ []) := by
    have hcount : (-d.exponent).toNat = places := by omega
    rw [positional, if_neg (not_le.mpr h), hcount, List.append_nil]
  have hwhole : padded.take (padded.length - places) ≠ [] := by
    rw [ne_eq, List.take_eq_nil_iff, ← List.length_eq_zero_iff]
    omega
  refine ⟨⟨false, padded.take (padded.length - places), padded.drop (padded.length - places),
    true, 0⟩, ?_, ?_⟩
  · rw [htext, Fraction.read?_pointed (fun b hb => hall b (List.mem_of_mem_take hb)) hwhole
      (fun b hb => hall b (List.mem_of_mem_drop hb)) rfl]
    rfl
  · apply Fraction.spells_of
    · rw [hsplit]
      exact hall
    · rw [hsplit, hpart, hnumber, value, hplaces, zero_sub]
    · rw [hsplit, hpart, hsize]
      rcases le_or_gt (Bytes.ofNat d.digits).length (places + 1) with hshort | hlong
      · left
        omega
      · right
        convert hfirst using 2
        omega

/-- **The text without an exponent stands for the decimal.** -/
theorem spells_positional (hd : d.digits ≠ 0) :
    ∃ fraction, Fraction.read? d.positional = some fraction ∧ fraction.Spells d.value :=
  (le_or_gt 0 d.exponent).elim (spells_positional_of_nonneg hd) (spells_positional_of_neg hd)

/-- **The text with an exponent stands for the decimal.** -/
theorem spells_scientific (hd : d.digits ≠ 0) :
    ∃ fraction, Fraction.read? d.scientific = some fraction ∧ fraction.Spells d.value := by
  have hlength := length_ofNat_pos d.digits
  have hfirst := pow_le_value hd
  have hdigits : ∀ b ∈ Bytes.ofNat d.digits, Bytes.isDigit b = true := fun b => isDigit_ofNat
  have hnumber := Fraction.number_ofNat d.digits
  obtain ⟨tail, htext, hletter, hpower⟩ : ∃ tail,
      d.scientific = (Bytes.ofNat d.digits).take 1
        ++ ((if (Bytes.ofNat d.digits).length > 1 then ascii '.' :: (Bytes.ofNat d.digits).drop 1
          else []) ++ ascii 'e' :: tail) ∧
      (ascii 'e' :: tail).takeWhile Bytes.isDigit = [] ∧
      Fraction.power? (ascii 'e' :: tail)
        = some (d.exponent + ((Bytes.ofNat d.digits).length - 1 : Nat)) :=
    ⟨_, by simp only [scientific, List.append_assoc, List.cons_append, List.nil_append]; rfl, rfl,
      Fraction.power?_exponent _ _⟩
  rcases Nat.lt_or_ge 1 (Bytes.ofNat d.digits).length with hmany | hone
  · have hsplit := List.take_append_drop 1 (Bytes.ofNat d.digits)
    refine ⟨⟨false, (Bytes.ofNat d.digits).take 1, (Bytes.ofNat d.digits).drop 1, true,
      d.exponent + ((Bytes.ofNat d.digits).length - 1 : Nat)⟩, ?_, ?_⟩
    · rw [htext, if_pos hmany, List.cons_append, Fraction.read?_pointed
        (fun b hb => hdigits b (List.mem_of_mem_take hb))
        (by simpa using ofNat_ne_nil d.digits)
        (fun b hb => hdigits b (List.mem_of_mem_drop hb)) hletter, hpower]
      rfl
    · apply Fraction.spells_of
      · rwa [hsplit]
      · rw [hsplit, hnumber, List.length_drop, value, add_sub_cancel_right]
      · right
        rw [hsplit]
        convert hfirst using 2
        rw [List.length_drop]
        omega
  · have hlast : (Bytes.ofNat d.digits).length - 1 = 0 := by omega
    rw [hlast, Nat.cast_zero, add_zero] at hpower hfirst
    refine ⟨⟨false, Bytes.ofNat d.digits, [], false, d.exponent⟩, ?_, ?_⟩
    · rw [htext, if_neg hone.not_gt, List.take_of_length_le hone, List.nil_append,
        Fraction.read?_unpointed hdigits (ofNat_ne_nil _) hletter (by simp; decide), hpower]
      rfl
    · apply Fraction.spells_of
      · simpa using hdigits
      · simp [hnumber, value]
      · right
        convert hfirst using 2
        simp
        omega

end Decimal

/-! ## Whole numbers -/

namespace Binary64

/-- What rounds to a number is at least half of it, and less than twice as much. -/
theorem bounds_of_roundsTo {m : Nat} {e : Int} {v x : ℚ} (h : Spelt m e v)
    (hround : RoundsTo (x / 2 ^ e) m) : v / 2 ≤ x ∧ x < 2 * v := by
  have hpos := two_zpow_pos e
  have hm : (1 : ℚ) ≤ m := by
    have hlow := h.low
    exact_mod_cast (by decide : 1 ≤ 2 ^ 52).trans hlow
  obtain ⟨hfrom, hto⟩ := abs_le.mp hround.abs_sub_le_half
  rw [Int.cast_natCast] at hfrom hto
  have hx : x = x / 2 ^ e * 2 ^ e := (div_mul_cancel₀ x hpos.ne').symm
  rw [h.eq, hx]
  constructor
  · nlinarith
  · nlinarith

/-- **The text of a whole number is read back.** -/
theorem read?_compactText {m v : Nat} {e : Int} (h : Spelt m e v) (hmin : minExponent < e) :
    (Fraction.read? (finite false m e).compactText).bind Fraction.toBinary64
      = some (finite false m e) := by
  have hm : m ≠ 0 := by
    rintro rfl
    exact absurd h.low (by decide)
  have hcontains := Decimal.contains_shortest hm h.eq.symm
  obtain ⟨hlow, hhigh⟩ := bounds_of_roundsTo h (Decimal.roundsTo_of_contains hcontains)
  have hone : (1 : ℚ) ≤ v := by
    have hpos := (two_zpow_pos (e + 52)).trans_le h.bounds.1
    exact_mod_cast (by exact_mod_cast hpos : 0 < v)
  have hfar : 2 * (v : ℚ) < 10 ^ 1000 := by
    have hmost : e + 53 ≤ (1024 : Nat) := by
      have hmax := h.most
      rw [maxExponent] at hmax
      omega
    calc 2 * (v : ℚ) < 2 * 2 ^ (e + 53) := mul_lt_mul_of_pos_left h.bounds.2 two_pos
      _ ≤ 2 * 2 ^ ((1024 : Nat) : Int) :=
        mul_le_mul_of_nonneg_left (zpow_le_zpow_right₀ one_le_two hmost) two_pos.le
      _ = 2 ^ 1025 := by rw [zpow_natCast, ← pow_succ']
      _ ≤ 2 ^ (3 * 1000) := pow_le_pow_right₀ one_le_two (by norm_num)
      _ = 8 ^ 1000 := by rw [pow_mul]; norm_num only
      _ ≤ 10 ^ 1000 := pow_le_pow_left₀ (by norm_num) (by norm_num) 1000
  have hdigits : (Decimal.shortest m e).digits ≠ 0 := by
    intro hzero
    rw [Decimal.value, hzero] at hlow
    simp at hlow
    linarith
  obtain ⟨fraction, hread, hspells⟩ : ∃ fraction,
      Fraction.read? (finite false m e).compactText = some fraction ∧
        fraction.Spells (Decimal.shortest m e).value := by
    simp only [compactText, sign, Bool.false_eq_true, if_false, List.nil_append]
    split_ifs
    · exact Decimal.spells_scientific hdigits
    · exact Decimal.spells_positional hdigits
  rw [hread, Option.bind_some]
  refine hspells.toBinary64 (by linarith) (hhigh.trans hfar) fun num den hden hvalue => ?_
  rw [← hvalue] at hcontains
  exact ofRatio_of_contains h hmin hden hcontains false

/-- **The text of a whole number of 64 bits is read back** as the number it was rounded to. -/
theorem read?_compactText_ofInt {n : Nat} (h : n < 2 ^ 64) :
    (Fraction.read? (ofInt n).compactText).bind Fraction.toBinary64 = some (ofInt n) := by
  rcases Nat.eq_zero_or_pos n with rfl | hpos
  · decide
  · obtain ⟨m, e, v, hspelt, hmin, hint⟩ := exists_spelt_ofInt hpos.ne' h
    rw [hint]
    exact read?_compactText hspelt hmin

end Binary64

end Linewise

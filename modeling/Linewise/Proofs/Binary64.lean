import Mathlib
import Linewise.Decimal.Binary64

/-!
# Double precision

A quotient of natural numbers is rounded to the nearest one, a tie to the even one. The number
nearest to a fraction is a mantissa of 53 bits times a power of two: the exponent that is
guessed from the lengths of numerator and denominator is corrected to the right one, and the
mantissa is the rounded quotient there. A fraction that has a mantissa and an exponent of its own
is therefore not rounded. Natural numbers up to `2 ^ 53` are such fractions, and so are their
quotients by powers of two that are not larger; a natural number of 64 bits is rounded to one.

## Main definitions

* `RoundsTo x t`: the nearest integer to a fraction
* `Binary64.Spelt m e x`: the mantissa and the exponent of a positive number

## Main results

* `roundDiv_roundsTo`: the rounded quotient is the nearest integer
* `Binary64.exponentOf_eq`, `Binary64.ofRatio_eq`: the exponent and the mantissa of a fraction
* `Binary64.ofRatio_of_spelt`: a fraction that has a mantissa and an exponent is not rounded
* `Binary64.exists_spelt_ofInt`: what a natural number of 64 bits is rounded to
* `Binary64.toNat_ofInt`: a number up to `2 ^ 53` goes through double precision unchanged
* `Binary64.exists_div_ofInt`: its quotient by a power of two is exact
-/

namespace Linewise

/-! ## Rounding -/

/-- **The nearest integer to a fraction**: no other is nearer, and if another is as near, it is
even. -/
structure RoundsTo (x : ℚ) (t : Int) : Prop where
  nearest : ∀ u : Int, |x - t| ≤ |x - u|
  even : ∀ u : Int, u ≠ t → |x - u| = |x - t| → Even t

/-- An integer within a half is nearest, and an even one at a half. -/
theorem RoundsTo.of_abs_sub {x : ℚ} {t : Int} (h : |x - t| < 1 / 2 ∨ |x - t| = 1 / 2 ∧ Even t) :
    RoundsTo x t := by
  have hle : |x - t| ≤ 1 / 2 := h.elim le_of_lt fun h => h.1.le
  have hother : ∀ u : Int, u ≠ t → 1 - |x - t| ≤ |x - u| := by
    intro u hu
    have hone : (1 : ℚ) ≤ |(t : ℚ) - u| := by
      exact_mod_cast Int.one_le_abs (sub_ne_zero.mpr hu.symm)
    have htriangle := abs_sub_le (t : ℚ) x u
    rw [abs_sub_comm (t : ℚ) x] at htriangle
    linarith
  constructor
  · intro u
    rcases eq_or_ne u t with rfl | hu
    · exact le_rfl
    · have := hother u hu
      linarith
  · intro u hu htie
    have := hother u hu
    rcases h with hlt | ⟨-, heven⟩
    · linarith
    · exact heven

/-- A quotient, as a whole part and a rest. -/
theorem natCast_div_eq (num : Nat) {den : Nat} (h : 0 < den) :
    (num : ℚ) / den = (num / den : Nat) + (num % den : Nat) / den := by
  have hne : (den : ℚ) ≠ 0 := by exact_mod_cast h.ne'
  rw [div_eq_iff hne, add_mul, div_mul_cancel₀ _ hne]
  exact_mod_cast (Nat.div_add_mod' num den).symm

/-- The rounding is off by a half at most. -/
theorem RoundsTo.abs_sub_le_half {x : ℚ} {t : Int} (h : RoundsTo x t) : |x - t| ≤ 1 / 2 :=
  (h.nearest (round x)).trans (abs_sub_round x)

/-- An integer bounds what is rounded from below, if it bounds the number. -/
theorem RoundsTo.le {x : ℚ} {t a : Int} (h : RoundsTo x t) (ha : a ≤ x) : a ≤ t := by
  by_contra hlt
  have hnext : (t : ℚ) + 1 ≤ a := by exact_mod_cast not_le.mp hlt
  have hclose := (abs_le.mp h.abs_sub_le_half).2
  linarith

/-- An integer bounds what is rounded from above, if it bounds the number. -/
theorem RoundsTo.ge {x : ℚ} {t b : Int} (h : RoundsTo x t) (hb : x ≤ b) : t ≤ b := by
  by_contra hlt
  have hnext : (b : ℚ) + 1 ≤ t := by exact_mod_cast not_le.mp hlt
  have hclose := (abs_le.mp h.abs_sub_le_half).1
  linarith

/-- **There is one integer to round to**: two even ones are too far apart. -/
theorem RoundsTo.unique {x : ℚ} {t u : Int} (ht : RoundsTo x t) (hu : RoundsTo x u) : t = u := by
  by_contra hne
  have htie := le_antisymm (ht.nearest u) (hu.nearest t)
  have heven : Even (t - u) := (ht.even u (Ne.symm hne) htie.symm).sub (hu.even t hne htie)
  have hclose : |(t : ℚ) - u| ≤ 1 :=
    calc |(t : ℚ) - u| ≤ |(t : ℚ) - x| + |x - u| := abs_sub_le _ _ _
      _ = |x - t| + |x - u| := by rw [abs_sub_comm (t : ℚ) x]
      _ ≤ 1 / 2 + 1 / 2 := add_le_add ht.abs_sub_le_half hu.abs_sub_le_half
      _ = 1 := by norm_num
  have hclose' : |t - u| ≤ 1 := by exact_mod_cast hclose
  obtain ⟨hlow, hhigh⟩ := abs_le.mp hclose'
  obtain ⟨k, hk⟩ := heven
  omega

/-- Rounding takes one of the two neighbours. -/
theorem roundDiv_eq_or (num den : Nat) :
    roundDiv num den = num / den ∨ roundDiv num den = num / den + 1 := by
  simp only [roundDiv]
  split_ifs
  · exact .inl rfl
  · exact .inr rfl
  · rcases Nat.mod_two_eq_zero_or_one (num / den) with heven | hodd
    · exact .inl (by rw [heven, Nat.add_zero])
    · exact .inr (by rw [hodd])

/-- **A quotient is rounded to the nearest natural number**, a tie to the even one. -/
theorem roundDiv_roundsTo (num : Nat) {den : Nat} (h : 0 < den) :
    RoundsTo ((num : ℚ) / den) (roundDiv num den : Nat) := by
  have hpos : (0 : ℚ) < den := by exact_mod_cast h
  have hrest₀ : (0 : ℚ) ≤ (num % den : Nat) / den := by positivity
  have hrest₁ : ((num % den : Nat) : ℚ) / den < 1 :=
    (div_lt_one hpos).mpr (by exact_mod_cast Nat.mod_lt num h)
  rw [natCast_div_eq num h]
  apply RoundsTo.of_abs_sub
  -- the whole part, the next number, or the even one of the two
  simp only [roundDiv]
  split_ifs with hbelow habove
  · have hlt : ((num % den : Nat) : ℚ) / den < 1 / 2 := by
      rw [div_lt_div_iff₀ hpos two_pos, one_mul]
      exact_mod_cast mul_comm 2 (num % den) ▸ hbelow
    left
    rw [Int.cast_natCast, add_sub_cancel_left, abs_of_nonneg hrest₀]
    exact hlt
  · have hlt : 1 / 2 < ((num % den : Nat) : ℚ) / den := by
      rw [div_lt_div_iff₀ two_pos hpos, one_mul]
      exact_mod_cast mul_comm 2 (num % den) ▸ habove
    left
    rw [Int.cast_natCast, Nat.cast_succ, abs_lt]
    constructor <;> linarith
  · have hhalf : ((num % den : Nat) : ℚ) / den = 1 / 2 := by
      rw [div_eq_div_iff hpos.ne' two_ne_zero, one_mul]
      exact_mod_cast (by omega : num % den * 2 = den)
    right
    rw [hhalf, Int.cast_natCast, Nat.cast_add, add_sub_add_left_eq_sub, Int.even_coe_nat]
    rcases Nat.mod_two_eq_zero_or_one (num / den) with heven | hodd
    · rw [heven]
      exact ⟨by norm_num, (Nat.even_iff.mpr heven).add Even.zero⟩
    · rw [hodd]
      exact ⟨by norm_num, (Nat.odd_iff.mpr hodd).add_odd odd_one⟩

namespace Binary64

/-! ## Powers of two -/

/-- A power of two, by a natural power above and one below. -/
theorem two_zpow_mul (e : Int) : (2 : ℚ) ^ e * 2 ^ (-e).toNat = 2 ^ e.toNat := by
  rw [← zpow_natCast, ← zpow_natCast, ← zpow_add₀ two_ne_zero]
  congr 1
  omega

theorem two_zpow_pos (e : Int) : (0 : ℚ) < 2 ^ e :=
  zpow_pos two_pos e

theorem log2_bounds {n : Nat} (h : n ≠ 0) :
    (2 : ℚ) ^ (n.log2 : Int) ≤ n ∧ (n : ℚ) < 2 ^ ((n.log2 : Int) + 1) := by
  constructor
  · rw [zpow_natCast]
    exact_mod_cast Nat.log2_self_le h
  · rw [← Nat.cast_succ, zpow_natCast]
    exact_mod_cast Nat.lt_log2_self

/-! ## Rounding a fraction -/

section Ratio

variable {num den : Nat} (hden : den ≠ 0) {e : Int}
include hden

/-- A guess is too high just if the number is below its least power of two. -/
theorem low_iff (guess : Int) :
    num * Nat.pow 2 (-guess).toNat < den * Nat.pow 2 guess.toNat * Nat.pow 2 52 ↔
      (num : ℚ) / den < 2 ^ (guess + 52) := by
  have hpos : (0 : ℚ) < den := by exact_mod_cast Nat.pos_of_ne_zero hden
  have hscale : (0 : ℚ) < 2 ^ (-guess).toNat := pow_pos two_pos _
  rw [div_lt_iff₀ hpos, ← mul_lt_mul_iff_left₀ hscale, zpow_add₀ two_ne_zero,
    ← Rat.natCast_lt_natCast]
  push_cast [Nat.pow_eq]
  rw [← two_zpow_mul guess]
  ring_nf

/-- **The mantissa is rounded to the nearest**, a tie to the even one. -/
theorem scaledDiv_roundsTo (e : Int) :
    RoundsTo ((num : ℚ) / den / 2 ^ e) (scaledDiv num den e : Nat) := by
  have hpos : 0 < den * Nat.pow 2 e.toNat :=
    Nat.mul_pos (Nat.pos_of_ne_zero hden) (Nat.pow_pos two_pos)
  have hscaled : (num : ℚ) / den / 2 ^ e
      = ((num * Nat.pow 2 (-e).toNat : Nat) : ℚ) / (den * Nat.pow 2 e.toNat : Nat) := by
    have hden' : (den : ℚ) ≠ 0 := by exact_mod_cast hden
    have hexponent := (two_zpow_pos e).ne'
    have hshift := two_zpow_mul e
    push_cast [Nat.pow_eq]
    rw [← hshift]
    field_simp
  rw [hscaled]
  exact roundDiv_roundsTo _ hpos

section Exponent

variable (hlow : (2 : ℚ) ^ (e + 52) ≤ (num : ℚ) / den) (hhigh : (num : ℚ) / den < 2 ^ (e + 53))

omit hden in
include hlow in
theorem num_ne_zero : num ≠ 0 := by
  rintro rfl
  have hpos := (two_zpow_pos (e + 52)).trans_le hlow
  simp at hpos

include hlow hhigh

/-- **The guess is right or one too high**: it goes by the lengths of numerator and denominator
alone. -/
theorem guess_eq :
    (num.log2 : Int) - den.log2 - 52 = e ∨ (num.log2 : Int) - den.log2 - 52 = e + 1 := by
  obtain ⟨hnum, hnum'⟩ := log2_bounds (num_ne_zero hlow)
  obtain ⟨hdenlow, hden'⟩ := log2_bounds hden
  have hpos : (0 : ℚ) < den := by exact_mod_cast Nat.pos_of_ne_zero hden
  rw [le_div_iff₀ hpos] at hlow
  rw [div_lt_iff₀ hpos] at hhigh
  have h₁ : (2 : ℚ) ^ (e + 52 + den.log2) < 2 ^ ((num.log2 : Int) + 1) := by
    rw [zpow_add₀ two_ne_zero]
    exact ((mul_le_mul_of_nonneg_left hdenlow (two_zpow_pos _).le).trans hlow).trans_lt hnum'
  have h₂ : (2 : ℚ) ^ (num.log2 : Int) < 2 ^ (e + 53 + (den.log2 + 1)) := by
    rw [zpow_add₀ two_ne_zero]
    exact (hnum.trans_lt hhigh).trans (mul_lt_mul_of_pos_left hden' (two_zpow_pos _))
  rw [zpow_lt_zpow_iff_right₀ one_lt_two] at h₁ h₂
  omega

/-- **The exponent is found.** -/
theorem exponentOf_eq (hmin : minExponent ≤ e) : exponentOf num den = e := by
  have hprecision : ((precision : Int) - 1) = 52 := rfl
  simp only [exponentOf, hprecision]
  change max minExponent (if num * Nat.pow 2 _ < den * Nat.pow 2 _ * Nat.pow 2 52 then _ else _) = e
  rcases guess_eq hden hlow hhigh with hguess | hguess
  · have hnot : ¬ (num : ℚ) / den < 2 ^ (e + 52) := not_lt.mpr hlow
    rw [hguess, if_neg (fun hlt => hnot ((low_iff hden e).mp hlt))]
    exact max_eq_right hmin
  · have hlt : (num : ℚ) / den < 2 ^ (e + 1 + 52) := by
      rw [add_assoc]
      exact hhigh
    rw [hguess, if_pos ((low_iff hden (e + 1)).mpr hlt)]
    omega

/-- **A fraction is the number with the mantissa it is rounded to**, at the exponent that leaves
it 53 bits. -/
theorem ofRatio_eq {m : Nat} (hmin : minExponent ≤ e) (hmax : e ≤ maxExponent)
    (hround : RoundsTo ((num : ℚ) / den / 2 ^ e) m) (hm : m < 2 ^ 53) (negative : Bool) :
    ofRatio negative num den = finite negative m e := by
  have hmantissa : scaledDiv num den e = m := by
    exact_mod_cast (scaledDiv_roundsTo hden e).unique hround
  have hcarried : ¬ m = Nat.pow 2 precision := hm.ne
  have hexponent : ¬ maxExponent < e := not_lt.mpr hmax
  rw [ofRatio, if_neg (num_ne_zero hlow)]
  simp only [exponentOf_eq hden hlow hhigh hmin, hmantissa, if_neg hcarried, if_neg hexponent]

/-- A mantissa that is rounded up to 54 bits is halved. -/
theorem ofRatio_eq_of_carried (hmin : minExponent ≤ e) (hmax : e < maxExponent)
    (hround : RoundsTo ((num : ℚ) / den / 2 ^ e) (2 ^ 53 : Nat)) (negative : Bool) :
    ofRatio negative num den = finite negative (2 ^ 52) (e + 1) := by
  have hmantissa : scaledDiv num den e = 2 ^ 53 := by
    exact_mod_cast (scaledDiv_roundsTo hden e).unique hround
  have hcarried : 2 ^ 53 = Nat.pow 2 precision := rfl
  have hexponent : ¬ maxExponent < e + 1 := by omega
  rw [ofRatio, if_neg (num_ne_zero hlow)]
  simp only [exponentOf_eq hden hlow hhigh hmin, hmantissa, if_pos hcarried, if_neg hexponent]
  rfl

end Exponent

end Ratio

/-! ## Mantissa and exponent -/

/-- **The mantissa and the exponent of a positive number**, if it has 53 bits at most and is in
range. -/
structure Spelt (mantissa : Nat) (exponent : Int) (x : ℚ) : Prop where
  low : 2 ^ 52 ≤ mantissa
  high : mantissa < 2 ^ 53
  least : minExponent ≤ exponent
  most : exponent ≤ maxExponent
  eq : x = mantissa * 2 ^ exponent

section Spelt

variable {m num den : Nat} {e : Int}

/-- The number lies between two powers of two. -/
theorem Spelt.bounds {x : ℚ} (h : Spelt m e x) : (2 : ℚ) ^ (e + 52) ≤ x ∧ x < 2 ^ (e + 53) := by
  have hlow : ((2 : ℚ) ^ (52 : Int)) ≤ m := by exact_mod_cast h.low
  have hhigh : (m : ℚ) < 2 ^ (53 : Int) := by exact_mod_cast h.high
  rw [h.eq, zpow_add₀ two_ne_zero, zpow_add₀ two_ne_zero, mul_comm (m : ℚ)]
  exact ⟨mul_le_mul_of_nonneg_left hlow (two_zpow_pos e).le,
    mul_lt_mul_of_pos_left hhigh (two_zpow_pos e)⟩

/-- **A fraction that is a double-precision number is that number.** -/
theorem ofRatio_of_spelt (hden : den ≠ 0) (h : Spelt m e ((num : ℚ) / den)) (negative : Bool) :
    ofRatio negative num den = finite negative m e := by
  obtain ⟨hlow, hhigh⟩ := h.bounds
  refine ofRatio_eq hden hlow hhigh h.least h.most ?_ h.high negative
  apply RoundsTo.of_abs_sub
  rw [h.eq, mul_div_cancel_right₀ _ (two_zpow_pos e).ne']
  norm_num

end Spelt

/-! ## Whole numbers -/

section Whole

variable {n : Nat}

/-- **Numbers up to `2 ^ 53` have a mantissa and an exponent.** -/
theorem exists_spelt (h₀ : n ≠ 0) (h : n ≤ 2 ^ 53) :
    ∃ m e, Spelt m e n ∧ -52 ≤ e ∧ e ≤ 1 := by
  rcases Nat.lt_or_eq_of_le h with hlt | rfl
  · -- the number shifted to the left
    have hlog : n.log2 < 53 := (Nat.log2_lt h₀).mpr hlt
    obtain ⟨k, hk⟩ : ∃ k, n.log2 + k = 52 := ⟨52 - n.log2, by omega⟩
    refine ⟨n * 2 ^ k, -k, ⟨?_, ?_, ?_, ?_, ?_⟩, by omega, by omega⟩
    · calc 2 ^ 52 = 2 ^ n.log2 * 2 ^ k := by rw [← Nat.pow_add, hk]
        _ ≤ n * 2 ^ k := Nat.mul_le_mul_right _ (Nat.log2_self_le h₀)
    · calc n * 2 ^ k < 2 ^ (n.log2 + 1) * 2 ^ k :=
            Nat.mul_lt_mul_of_pos_right Nat.lt_log2_self (Nat.pow_pos two_pos)
        _ = 2 ^ 53 := by rw [← Nat.pow_add, Nat.add_right_comm, hk]
    · rw [minExponent]
      omega
    · rw [maxExponent]
      omega
    · push_cast
      rw [zpow_neg, zpow_natCast]
      field_simp
  · exact ⟨2 ^ 52, 1, ⟨by decide, by decide, by decide, by decide, by norm_num⟩, by decide,
      le_rfl⟩

/-- The exact value of a mantissa and an exponent, as a fraction. -/
theorem ratio_eq (m : Nat) (e : Int) :
    ((ratio m e).1 : ℚ) / (ratio m e).2 = m * 2 ^ e := by
  simp only [ratio, Nat.pow_eq]
  push_cast
  rw [← two_zpow_mul e]
  field_simp

/-- A whole number is the quotient of its magnitude and one. -/
theorem ofInt_natCast (n : Nat) : ofInt n = ofRatio false n 1 := by
  have hsign : decide ((n : Int) < 0) = false := by simp
  rw [ofInt, hsign, Int.natAbs_natCast]

theorem ofInt_of_spelt {m : Nat} {e : Int} (h : Spelt m e n) : ofInt n = finite false m e := by
  have hone : Spelt m e ((n : ℚ) / (1 : Nat)) := by simpa using h
  rw [ofInt_natCast]
  exact ofRatio_of_spelt one_ne_zero hone false

/-- **A whole number of 64 bits is rounded to a whole number**, which has a mantissa and an
exponent. -/
theorem exists_spelt_ofInt (h₀ : n ≠ 0) (h : n < 2 ^ 64) :
    ∃ (m : Nat) (e : Int) (v : Nat),
      Spelt m e v ∧ minExponent < e ∧ ofInt n = finite false m e := by
  rcases Nat.lt_or_ge (2 ^ 53) n with hlarge | hsmall
  · -- the bits beyond the 53rd are rounded away
    obtain ⟨k, hk⟩ : ∃ k, n.log2 = k + 52 := by
      have hlog : 53 ≤ n.log2 := (Nat.le_log2 h₀).mpr hlarge.le
      exact ⟨n.log2 - 52, by omega⟩
    have hlog : n.log2 < 64 := (Nat.log2_lt h₀).mpr h
    have hmin : minExponent < (k : Int) := by
      rw [minExponent]
      omega
    have hmax : (k : Int) < maxExponent := by
      rw [maxExponent]
      omega
    obtain ⟨hlow, hhigh⟩ := log2_bounds h₀
    have hwhole : (n : ℚ) = n / (1 : Nat) := by simp
    rw [hk, Nat.cast_add, Nat.cast_ofNat, hwhole] at hlow hhigh
    rw [add_assoc] at hhigh
    have hround : RoundsTo ((n : ℚ) / (1 : Nat) / 2 ^ (k : Int)) (scaledDiv n 1 k : Nat) :=
      scaledDiv_roundsTo one_ne_zero k
    have hpos := two_zpow_pos (k : Int)
    have hfrom : 2 ^ 52 ≤ scaledDiv n 1 k := by
      have hle : ((2 ^ 52 : Int) : ℚ) ≤ (n : ℚ) / (1 : Nat) / 2 ^ (k : Int) := by
        rw [le_div_iff₀ hpos, mul_comm]
        rw [zpow_add₀ two_ne_zero] at hlow
        exact_mod_cast hlow
      exact_mod_cast hround.le hle
    have hto : scaledDiv n 1 k ≤ 2 ^ 53 := by
      have hle : (n : ℚ) / (1 : Nat) / 2 ^ (k : Int) ≤ ((2 ^ 53 : Int) : ℚ) := by
        rw [div_le_iff₀ hpos, mul_comm]
        rw [zpow_add₀ two_ne_zero] at hhigh
        exact_mod_cast hhigh.le
      exact_mod_cast hround.ge hle
    rw [ofInt_natCast]
    rcases Nat.lt_or_eq_of_le hto with hlt | heq
    · refine ⟨scaledDiv n 1 k, k, scaledDiv n 1 k * 2 ^ k, ?_, hmin, ?_⟩
      · exact ⟨hfrom, hlt, hmin.le, hmax.le, by push_cast; rw [zpow_natCast]⟩
      · exact ofRatio_eq one_ne_zero hlow hhigh hmin.le hmax.le hround hlt false
    · rw [heq] at hround
      refine ⟨2 ^ 52, k + 1, 2 ^ 52 * 2 ^ (k + 1), ?_, hmin.trans (by omega), ?_⟩
      · exact ⟨le_rfl, by decide, by omega, hmax, by exact_mod_cast rfl⟩
      · exact ofRatio_eq_of_carried one_ne_zero hlow hhigh hmin.le hmax hround false
  · obtain ⟨m, e, hspelt, hlow, -⟩ := exists_spelt h₀ hsmall
    refine ⟨m, e, n, hspelt, ?_, ofInt_of_spelt hspelt⟩
    rw [minExponent]
    omega

/-- **Whole numbers up to `2 ^ 53` go through double precision unchanged.** -/
theorem toNat_ofInt (h : n ≤ 2 ^ 53) : (ofInt n).toNat = n := by
  rcases Nat.eq_zero_or_pos n with rfl | hpos
  · simp [ofInt, ofRatio, toNat, whole, ratio]
  · obtain ⟨m, e, hspelt, -⟩ := exists_spelt hpos.ne' h
    have hden : 0 < (ratio m e).2 := Nat.pow_pos two_pos
    have hexact : (ratio m e).1 = n * (ratio m e).2 := by
      have hratio := (ratio_eq m e).trans hspelt.eq.symm
      rw [div_eq_iff (by exact_mod_cast hden.ne')] at hratio
      exact_mod_cast hratio
    rw [ofInt_of_spelt hspelt, toNat, whole, hexact]
    exact Nat.mul_div_cancel n hden

/-- A whole number in units of the least power of two. -/
theorem units_ofInt (h₀ : n ≠ 0) (h : n ≤ 2 ^ 53) :
    (ofInt n).units = (n * 2 ^ (-minExponent).toNat : Nat) := by
  obtain ⟨m, e, hspelt, -⟩ := exists_spelt h₀ h
  have hleast := hspelt.least
  have hsplit : ((e - minExponent).toNat : Int) = e + (-minExponent).toNat := by
    rw [minExponent] at *
    omega
  rw [ofInt_of_spelt hspelt, units, if_neg Bool.false_ne_true, Int.natCast_inj,
    ← Nat.cast_inj (R := ℚ)]
  push_cast [Nat.pow_eq]
  rw [hspelt.eq, ← zpow_natCast 2 (e - minExponent).toNat, hsplit, zpow_add₀ two_ne_zero,
    zpow_natCast, mul_assoc]

/-- **The quotient by a power of two is exact.** -/
theorem exists_div_ofInt {j : Nat} (h : n ≤ 2 ^ 53) (hj : 2 ^ j ≤ n) :
    ∃ m e, (ofInt n).div (ofInt (2 ^ j : Nat)) = finite false m e ∧
      (m * 2 ^ e : ℚ) = n / 2 ^ j := by
  have hpos : 0 < 2 ^ j := Nat.pow_pos two_pos
  have hj' : j ≤ 53 := (Nat.pow_le_pow_iff_right one_lt_two).mp (hj.trans h)
  have hscale : 0 < 2 ^ (-minExponent).toNat := Nat.pow_pos two_pos
  have hn := units_ofInt (hpos.trans_le hj).ne' h
  have hd := units_ofInt hpos.ne' (hj.trans h)
  generalize 2 ^ (-minExponent).toNat = scale at hscale hn hd
  obtain ⟨m, e, hspelt, hlow, hhigh⟩ := exists_spelt (hpos.trans_le hj).ne' h
  have hvalue : (m * 2 ^ (e - j) : ℚ) = n / 2 ^ j := by
    rw [zpow_sub₀ two_ne_zero, zpow_natCast, ← mul_div_assoc, ← hspelt.eq]
  have hquotient : Spelt m (e - j) (((n * scale : Nat) : ℚ) / (2 ^ j * scale : Nat)) := by
    refine ⟨hspelt.low, hspelt.high, ?_, ?_, ?_⟩
    · rw [minExponent]
      omega
    · rw [maxExponent]
      omega
    · rw [hvalue]
      push_cast
      exact mul_div_mul_right _ _ (by exact_mod_cast hscale.ne')
  refine ⟨m, e - j, ?_, hvalue⟩
  have hsign : ∀ k : Nat, decide ((k : Int) < 0) = false := fun k => by simp
  rw [div, hn, hd, hsign, hsign, Int.natAbs_natCast, Int.natAbs_natCast]
  exact ofRatio_of_spelt (Nat.mul_pos hpos hscale).ne' hquotient false

end Whole

end Binary64

end Linewise

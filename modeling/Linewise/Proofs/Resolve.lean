import Mathlib.Data.Bool.AllAny
import Linewise.Proofs.Numerals
import Linewise.Proofs.Scalars

/-!
# What plain scalars stand for

A plain scalar that does not stand for something else stands for itself, so a text that is
written plain comes back as it was. A decimal numeral stands for its number: it has no sign
and no leading zero that would give a base, it is no date, and below `2 ^ 63` no digit
carries it out of range.

## Main results

* `Yaml.resolve_eq_text`: a plain scalar of the type of texts is its own text
* `Integer.unsigned_ofNat`: a decimal numeral is read as its number
* `Yaml.resolve_ofNat`: a decimal numeral stands for its number
* `Yaml.bare_toDigits`: a decimal numeral can stand plain
-/

namespace Linewise

namespace Yaml

/-! ## Texts -/

/-- What was found, if anything, is no text. -/
def NoText (found : Option Value) : Prop :=
  ∀ value ∈ found, value.kind ≠ .text

theorem NoText.orElse {found other : Option Value} (h : NoText found) (hother : NoText other) :
    NoText (found <|> other) := by
  cases found with
  | none => exact hother
  | some value => exact h

theorem NoText.getD {found : Option Value} (h : NoText found) {text : Bytes}
    (hkind : (found.getD (.text text)).kind = .text) : found.getD (.text text) = .text text := by
  cases found with
  | none => rfl
  | some value => exact absurd hkind (h value rfl)

theorem noText_word? (text : Bytes) : NoText (word? text) := by
  have hall : ∀ entry ∈ words, entry.2.kind ≠ .text := by decide
  intro value hvalue
  obtain ⟨entry, hentry, rfl⟩ := Option.map_eq_some_iff.mp hvalue
  exact hall entry (List.mem_of_find?_eq_some hentry)

theorem noText_fraction? (text : Bytes) : NoText (fraction? text) := by
  intro value hvalue
  obtain ⟨fraction, -, hfraction⟩ := Option.bind_eq_some_iff.mp hvalue
  obtain ⟨x, -, rfl⟩ := Option.map_eq_some_iff.mp hfraction
  nofun

theorem noText_pointed? (text : Bytes) : NoText (pointed? text) := by
  rw [pointed?]
  split_ifs
  · exact noText_fraction? _
  · exact fun _ => nofun

theorem noText_based? (mark : String) (base : Nat) (text : Bytes) :
    NoText (based? mark base text) := by
  intro value hvalue
  rw [based?.eq_def] at hvalue
  repeat' split at hvalue
  all_goals cases hvalue
  all_goals nofun

theorem noText_number? (text : Bytes) : NoText (number? text) := by
  simp only [number?]
  split
  · rintro value ⟨⟩
    nofun
  · rintro value ⟨⟩
    nofun
  · exact (noText_fraction? _).orElse ((noText_based? _ _ _).orElse (noText_based? _ _ _))

theorem noText_measure? (text : Bytes) : NoText (measure? text) := by
  rw [measure?]
  split_ifs
  · rintro value ⟨⟩
    nofun
  · exact noText_number? text

/-- **A plain scalar of the type of texts is its own text.** -/
theorem resolve_eq_text {text : Bytes} (h : (resolve text).kind = .text) :
    resolve text = .text text := by
  rw [resolve.eq_def] at h ⊢
  cases text with
  | nil => cases h
  | cons b rest =>
    simp only at h ⊢
    split_ifs at h ⊢ with hmeasure hword hpoint
    · exact ((noText_word? _).orElse (noText_measure? _)).getD h
    · exact (noText_word? _).getD h
    · exact ((noText_word? _).orElse (noText_pointed? _)).getD h
    · rfl

end Yaml

/-! ## Numerals -/

namespace Integer

/-- Digits only make a number larger. -/
theorem le_ofDigitChars (digits : List Char) (value : Nat) :
    value ≤ Nat.ofDigitChars 10 digits value := by
  induction digits generalizing value with
  | nil => exact le_rfl
  | cons c digits ih =>
    rw [Nat.ofDigitChars_cons]
    refine le_trans ?_ (ih _)
    omega

/-- **Digits are read as the number they spell**, if it fits. -/
theorem magnitude_digits {digits : List Char} (hdigits : ∀ c ∈ digits, 48 ≤ c.toNat ∧ c.toNat ≤ 57)
    {value : Nat} (hvalue : Nat.ofDigitChars 10 digits value < unsignedBound) :
    magnitude 10 value (digits.map ascii) = .ok (Nat.ofDigitChars 10 digits value) := by
  induction digits generalizing value with
  | nil => rfl
  | cons c digits ih =>
    have hc := hdigits c List.mem_cons_self
    have htoNat := toNat_ascii hc
    have hunderscore : ascii c ≠ ascii '_' := by
      intro h
      have := congrArg UInt8.toNat h
      rw [htoNat] at this
      exact absurd this (by simp [ascii]; omega)
    have hdigit := digitValue?_ascii hc
    have hten : ¬ 10 ≤ c.toNat - 48 := by omega
    rw [Nat.ofDigitChars_cons] at hvalue ⊢
    have hcode : '0'.toNat = 48 := rfl
    have hle := le_ofDigitChars digits (10 * value + (c.toNat - '0'.toNat))
    have hfits : ¬ unsignedBound ≤ value * 10 + (c.toNat - 48) := by omega
    rw [List.map_cons, magnitude, if_neg hunderscore, hdigit]
    simp only
    rw [if_neg hten, if_neg hfits, Nat.mul_comm value 10]
    exact ih (fun d hd => hdigits d (List.mem_cons_of_mem c hd)) hvalue

theorem base_of_ne_zero {b : UInt8} (h : b ≠ 0x30) (rest : Bytes) :
    base (b :: rest) = (10, b :: rest) := by
  rw [base.eq_def]
  split
  · rename_i heq
    exact absurd (List.cons.inj heq).1 h
  · rename_i heq
    exact absurd (List.cons.inj heq).1 h
  · rfl

/-- **A decimal numeral is read as its number.** -/
theorem unsigned_ofNat {n : Nat} (h : n < unsignedBound) : unsigned (Bytes.ofNat n) = .ok n := by
  rcases Nat.eq_zero_or_pos n with rfl | hpos
  · rfl
  have hdigits : ∀ c ∈ Nat.toDigits 10 n, 48 ≤ c.toNat ∧ c.toNat ≤ 57 := fun c hc =>
    toNat_of_mem_toDigits hc
  have hvalue : Nat.ofDigitChars 10 (Nat.toDigits 10 n) 0 = n :=
    Nat.ofDigitChars_toDigits (by decide) (Nat.le_refl 10)
  obtain ⟨c, cs, hcs⟩ := List.exists_cons_of_ne_nil (Nat.toDigits_ne_nil (n := n) (b := 10))
  have hofNat : Bytes.ofNat n = ascii c :: cs.map ascii := by
    rw [Bytes.ofNat, hcs, List.map_cons]
  have hzero : ascii c ≠ 0x30 := by
    intro hzero
    have htoNat := toNat_ascii (hdigits c (hcs ▸ List.mem_cons_self))
    rw [hzero] at htoNat
    have hc : c = '0' := Char.toNat_inj.mp htoNat.symm
    exact head?_toDigits hpos.ne' (by rw [hcs, hc, List.head?_cons])
  have hbase : base (Bytes.ofNat n) = (10, Bytes.ofNat n) := by
    rw [hofNat, base_of_ne_zero hzero]
  have hunderscore : (Bytes.ofNat n).contains (ascii '_') = false := by
    rw [← Bool.not_eq_true, List.contains_iff_mem]
    intro hmem
    exact absurd (isDigit_ofNat hmem) (by decide)
  have hempty : (Bytes.ofNat n).isEmpty = false := by
    rw [hofNat, List.isEmpty_cons]
  have hmagnitude : magnitude 10 0 (Bytes.ofNat n) = .ok n := by
    rw [Bytes.ofNat, magnitude_digits hdigits (by rw [hvalue]; exact h), hvalue]
  rw [unsigned, hempty, hbase, hmagnitude, hunderscore]
  rfl

end Integer

namespace Yaml

theorem word?_of_isDigit {b : UInt8} (hb : Bytes.isDigit b = true) (rest : Bytes) :
    word? (b :: rest) = none := by
  have hall : ∀ entry ∈ words, (utf8 entry.1).head?.any Bytes.isDigit = false := by decide
  rw [word?, Option.map_eq_none_iff, List.find?_eq_none]
  intro entry hentry heq
  rw [decide_eq_true_eq] at heq
  have hstart := hall entry hentry
  rw [heq, List.head?_cons, Option.any_some, hb] at hstart
  cases hstart

/-- A row of digits is no date: no dash follows the year. -/
theorem isTimestamp_of_isDigit {text : Bytes} (h : ∀ b ∈ text, Bytes.isDigit b = true) :
    Timestamp.isTimestamp text = false := by
  have hdash : Timestamp.after? (ascii '-') (text.drop 4) = none := by
    cases hdrop : text.drop 4 with
    | nil => rfl
    | cons b rest =>
      have hb := h b (List.mem_of_mem_drop (hdrop ▸ List.mem_cons_self))
      have hne : ascii '-' ≠ b := by
        rintro rfl
        exact absurd hb (by decide)
      exact if_neg hne
  have hdate : Timestamp.date? text = none := by
    simp [Timestamp.date?, hdash]
  rw [Timestamp.isTimestamp, hdate]

/-- **A decimal numeral stands for its number.** -/
theorem resolve_ofNat {n : Nat} (h : n < Integer.signedBound) :
    resolve (Bytes.ofNat n) = .int n := by
  obtain ⟨b, rest, hn⟩ := List.exists_cons_of_ne_nil (ofNat_ne_nil n)
  have hdigits : ∀ c ∈ Bytes.ofNat n, Bytes.isDigit c = true := fun c hc => isDigit_ofNat hc
  have hb : Bytes.isDigit b = true := hdigits b (hn ▸ List.mem_cons_self)
  have hplain : (Bytes.ofNat n).filter (· ≠ ascii '_') = Bytes.ofNat n := by
    refine List.filter_eq_self.mpr fun c hc => decide_eq_true ?_
    rintro rfl
    exact absurd (hdigits _ hc) (by decide)
  have hbound : n < Integer.unsignedBound := lt_of_lt_of_le h (by decide)
  have hparse : Integer.parse (Bytes.ofNat n) = .ok n := by
    rw [Integer.parse, hn, Integer.sign_of_isDigit hb, ← hn, Integer.unsigned_ofNat hbound]
    exact if_pos h
  have hnumber : number? (Bytes.ofNat n) = some (.int n) := by
    simp only [number?, hplain, hparse]
  have hmeasure : measure? (Bytes.ofNat n) = some (.int n) := by
    rw [measure?, isTimestamp_of_isDigit hdigits, hnumber]
    rfl
  have hword : word? (Bytes.ofNat n) = none := hn ▸ word?_of_isDigit hb rest
  rw [resolve.eq_def]
  simp only [hn, hb, Bool.or_true, if_true]
  rw [← hn, hword, hmeasure]
  rfl

/-! ## Numerals as texts -/

theorem toNat_of_isForbiddenStart (c : Char) (h : isForbiddenStart c = true) :
    c.toNat < 48 ∨ 57 < c.toNat := by
  rw [isForbiddenStart, List.contains_iff_mem] at h
  revert c
  exact List.all_iff_forall_prop.mp (by decide)

/-- Digits are no signs wherever they stand. -/
theorem unmarked_of_isDigit {text : List Char} (h : ∀ c ∈ text, 48 ≤ c.toNat ∧ c.toNat ≤ 57)
    (before : Option Char) : Unmarked before text := by
  induction text generalizing before with
  | nil => trivial
  | cons c rest ih =>
    refine ⟨?_, ih (fun d hd => h d (List.mem_cons_of_mem c hd)) (some c)⟩
    have hc := h c List.mem_cons_self
    have hne (d : Char) (hd : d.toNat < 48 ∨ 57 < d.toNat) : c ≠ d := by
      rintro rfl
      omega
    have hstart : isForbiddenStart c = false := by
      rw [← Bool.not_eq_true]
      exact fun hstart => hne c (toNat_of_isForbiddenStart c hstart) rfl
    cases before <;> simp [isIndicatorAt, hstart, hne ':' (by decide), hne '?' (by decide),
      hne '-' (by decide), hne '#' (by decide)]

/-- **A decimal numeral can stand plain.** -/
theorem bare_toDigits (n : Nat) : Bare (Nat.toDigits 10 n) where
  ne_nil := Nat.toDigits_ne_nil
  unmarked := unmarked_of_isDigit (fun c hc => toNat_of_mem_toDigits hc) none
  head := by
    intro hhead
    exact absurd (toNat_of_mem_toDigits (List.mem_of_head? hhead)) (by decide)
  last := by
    intro hlast
    exact absurd (toNat_of_mem_toDigits (List.mem_of_getLast? hlast)) (by decide)

end Yaml

end Linewise

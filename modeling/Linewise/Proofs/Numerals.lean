import Mathlib.Algebra.BigOperators.Fin
import Mathlib.Tactic.Ring
import Linewise.Proofs.Runes

/-!
# Numerals of any width

Decoding a line is exact. Its binary digits are taken byte by byte, and still they are the
characters `0` and `1` of the line: neither byte occurs inside the spelling of another
character, nor as a stray byte. A row of them is always a numeral, so a line without digits
is the only one that cannot be decoded. The decimal numeral that comes out is read back as
the sum of the digits at their places, and written in base two it is the row again, up to
the zeros in front.

Rows of digits are lists of characters here, as `Nat.toDigits` and `Nat.ofDigitChars` have
them. Both directions of the conversion go by the last digit: `ofDigitChars_append` takes it
off, and `leftpad_toDigits_snoc` puts it back behind digits that may begin with zeros.

## Main definitions

* `bits line`: the characters `0` and `1` that a line shows
* `bitsValue cs`: the sum of binary digits at their places
* `IsCanonicalNumeral text`: a decimal numeral without sign and without zeros in front

## Main results

* `readDigits?_map_ascii`, `readInteger?_map_ascii`: digits are read as the number they spell
* `binaryDigits_eq_ofChars`: the scan of the bytes finds the characters
* `ofDigitChars_two`, `leftpad_toDigits_ofDigitChars`: from digits to their sum, and back
* `decodeLine_eq`: what a line is decoded to
* `decodeLine_exact`: all of it
-/

namespace Linewise

/-! ## Decimal numerals -/

theorem toNat_of_mem_toDigits {n : Nat} {c : Char} (h : c ∈ Nat.toDigits 10 n) :
    48 ≤ c.toNat ∧ c.toNat ≤ 57 := by
  have hdigit := Nat.isDigit_of_mem_toDigits (by decide) (Nat.le_refl 10) h
  simpa [Char.isDigit, UInt32.le_iff_toNat_le] using hdigit

theorem toNat_ascii {c : Char} (h : 48 ≤ c.toNat ∧ c.toNat ≤ 57) : (ascii c).toNat = c.toNat := by
  rw [ascii, UInt8.toNat_ofNat']
  omega

theorem isDigit_ascii {c : Char} (h : 48 ≤ c.toNat ∧ c.toNat ≤ 57) :
    Bytes.isDigit (ascii c) = true := by
  have htoNat := toNat_ascii h
  simp [Bytes.isDigit, UInt8.le_iff_toNat_le, htoNat, h]

theorem isDigit_ofNat {n : Nat} {b : UInt8} (h : b ∈ Bytes.ofNat n) : Bytes.isDigit b = true := by
  obtain ⟨c, hc, rfl⟩ := List.mem_map.mp h
  exact isDigit_ascii (toNat_of_mem_toDigits hc)

theorem ofNat_ne_nil (n : Nat) : Bytes.ofNat n ≠ [] := by
  rw [Bytes.ofNat, ne_eq, List.map_eq_nil_iff]
  exact Nat.toDigits_ne_nil

/-- A number other than zero does not begin with a zero. -/
theorem head?_toDigits {n : Nat} (h : n ≠ 0) : (Nat.toDigits 10 n).head? ≠ some '0' := by
  induction n using Nat.strongRecOn with
  | ind n ih =>
    rcases Nat.lt_or_ge n 10 with hlt | hge
    · rw [Nat.toDigits_of_lt_base hlt]
      intro hhead
      have hcode := congrArg Char.toNat (Option.some.inj hhead)
      rw [Nat.toNat_digitChar_of_lt_ten hlt] at hcode
      have : '0'.toNat = 48 := rfl
      omega
    · rw [Nat.toDigits_of_base_le (by decide) hge,
        List.head?_append_of_ne_nil _ Nat.toDigits_ne_nil]
      exact ih (n / 10) (by omega) (by omega)

/-- **A decimal numeral without anything to spare**: digits only, and none in front that could be
left out. -/
structure IsCanonicalNumeral (text : Bytes) : Prop where
  ne_nil : text ≠ []
  digits : ∀ b ∈ text, Bytes.isDigit b = true
  leading : text.head? = some (ascii '0') → text = [ascii '0']

theorem isCanonicalNumeral_ofNat (n : Nat) : IsCanonicalNumeral (Bytes.ofNat n) := by
  constructor
  · exact ofNat_ne_nil n
  · intro b hb
    exact isDigit_ofNat hb
  · intro hhead
    rcases Nat.eq_zero_or_pos n with rfl | hpos
    · rfl
    · rw [Bytes.ofNat, List.head?_map, Option.map_eq_some_iff] at hhead
      obtain ⟨c, hc, hzero⟩ := hhead
      have hcode := toNat_ascii (toNat_of_mem_toDigits (List.mem_of_mem_head? hc))
      rw [hzero] at hcode
      have hc' : c = '0' := Char.toNat_inj.mp hcode.symm
      exact absurd (hc' ▸ hc) (head?_toDigits hpos.ne')

/-! ## Reading digits -/

namespace Integer

theorem digitValue?_ascii {c : Char} (h : 48 ≤ c.toNat ∧ c.toNat ≤ 57) :
    digitValue? (ascii c) = some (c.toNat - 48) := by
  simp [digitValue?, UInt8.le_iff_toNat_le, toNat_ascii h, h]

theorem sign_of_isDigit {b : UInt8} (h : Bytes.isDigit b = true) (rest : Bytes) :
    sign (b :: rest) = (false, b :: rest) := by
  rw [sign.eq_def]
  split
  · rename_i heq
    rw [(List.cons.inj heq).1] at h
    cases h
  · rename_i heq
    rw [(List.cons.inj heq).1] at h
    cases h
  · rfl

end Integer

section Reading

variable {base : Nat} (hbase : base ≤ 10) {cs : List Char}
  (hcs : ∀ c ∈ cs, 48 ≤ c.toNat ∧ c.toNat < 48 + base)

include hbase hcs

/-- **Digits are read as the number they spell**, however many there are. -/
theorem readDigits?_map_ascii (value : Nat) :
    readDigits? base value (cs.map ascii) = some (Nat.ofDigitChars base cs value) := by
  induction cs generalizing value with
  | nil => rfl
  | cons c cs ih =>
    obtain ⟨hc, hcs⟩ := List.forall_mem_cons.mp hcs
    have hdigit := Integer.digitValue?_ascii (c := c) (by omega)
    have hbelow : ¬ base ≤ c.toNat - 48 := by omega
    calc readDigits? base value ((c :: cs).map ascii)
        = readDigits? base (value * base + (c.toNat - 48)) (cs.map ascii) := by
          rw [List.map_cons, readDigits?, hdigit]
          exact if_neg hbelow
      _ = some (Nat.ofDigitChars base cs (value * base + (c.toNat - 48))) := ih hcs _
      _ = some (Nat.ofDigitChars base (c :: cs) value) := by
          rw [Nat.ofDigitChars_cons, Nat.mul_comm base]
          rfl

theorem readInteger?_map_ascii (hne : cs ≠ []) :
    readInteger? base (cs.map ascii) = some (Nat.ofDigitChars base cs 0 : Int) := by
  obtain ⟨c, rest, rfl⟩ := List.exists_cons_of_ne_nil hne
  have hc := hcs c List.mem_cons_self
  have hsign := Integer.sign_of_isDigit (isDigit_ascii (c := c) (by omega)) (rest.map ascii)
  have hread := readDigits?_map_ascii hbase hcs 0
  rw [List.map_cons] at hread ⊢
  rw [readInteger?, hsign]
  simp only [List.isEmpty_cons, hread]
  rfl

end Reading

/-- **A decimal numeral is read back**, whatever its size. -/
theorem readInteger?_ofNat (n : Nat) : readInteger? 10 (Bytes.ofNat n) = some (n : Int) := by
  have hdigits : ∀ c ∈ Nat.toDigits 10 n, 48 ≤ c.toNat ∧ c.toNat < 48 + 10 := by
    intro c hc
    have := toNat_of_mem_toDigits hc
    omega
  rw [Bytes.ofNat, readInteger?_map_ascii (Nat.le_refl 10) hdigits Nat.toDigits_ne_nil,
    Nat.ofDigitChars_toDigits (by decide) (Nat.le_refl 10)]

/-! ## The digits of a line -/

def isBit (c : Char) : Bool :=
  c = '0' || c = '1'

/-- **The characters `0` and `1` that a line shows**, in order. -/
def bits (line : Bytes) : List Char :=
  (shownChars line).filter isBit

theorem eq_of_isBit {c : Char} (h : isBit c = true) : c = '0' ∨ c = '1' := by
  simpa [isBit] using h

theorem toNat_of_isBinaryDigit {b : UInt8} (h : isBinaryDigit b = true) :
    b.toNat = '0'.toNat ∨ b.toNat = '1'.toNat := by
  have hb : b = ascii '0' ∨ b = ascii '1' := by simpa [isBinaryDigit] using h
  rcases hb with rfl | rfl
  · exact .inl rfl
  · exact .inr rfl

/-- **A binary digit among the bytes of a rune is the whole rune.** -/
theorem Rune.filter_bytes_first (b : UInt8) (rest : Bytes) :
    (first b rest).bytes.filter isBinaryDigit
      = ofChars ([(first b rest).toChar].filter isBit) := by
  rcases first_eq_char_or_stray b rest with ⟨c, hc⟩ | hstray
  · rw [hc, bytes, toChar]
    by_cases hbit : isBit c = true
    · rcases eq_of_isBit hbit with rfl | rfl <;> decide
    · rw [List.filter_cons_of_neg hbit, List.filter_nil, List.filter_eq_nil_iff.mpr]
      · rfl
      intro b' hb' hdigit
      have hcode := toNat_of_isBinaryDigit hdigit
      have hc' : c.toNat = b'.toNat := toNat_eq_of_mem_utf8EncodeChar hb' (by
        rcases hcode with h | h <;> rw [h] <;> decide)
      rw [← hc'] at hcode
      apply hbit
      rcases hcode with h | h
      · rw [Char.toNat_inj.mp h]
        rfl
      · rw [Char.toNat_inj.mp h]
        rfl
  · have hdigit : ¬ isBinaryDigit b = true := by
      intro hdigit
      have hlt : b < 0x80 := by
        rw [UInt8.lt_iff_toNat_lt]
        rcases toNat_of_isBinaryDigit hdigit with h | h <;> rw [h] <;> decide
      rw [first_of_lt hlt] at hstray
      cases hstray
    rw [hstray, bytes, List.filter_cons_of_neg hdigit]
    rfl

/-- **The scan of the bytes finds the characters.** -/
theorem binaryDigits_eq_ofChars (line : Bytes) : binaryDigits line = ofChars (bits line) := by
  have hrune : ∀ r ∈ runes line,
      r.bytes.filter isBinaryDigit = ofChars ([r.toChar].filter isBit) := by
    intro r hr
    rcases exists_first_of_mem_runesLoop hr with hnil | ⟨b, rest, rfl⟩
    · cases hnil
    · exact Rune.filter_bytes_first b rest
  have hbits : bits line = (runes line).flatMap fun r => [r.toChar].filter isBit := by
    rw [bits, shownChars, List.map_eq_flatMap, List.filter_flatMap]
  calc binaryDigits line
      = (ofRunes (runes line)).filter isBinaryDigit := by
        rw [ofRunes_runes]
        rfl
    _ = (runes line).flatMap fun r => r.bytes.filter isBinaryDigit := List.filter_flatMap
    _ = (runes line).flatMap fun r => ofChars ([r.toChar].filter isBit) :=
        List.flatMap_congr hrune
    _ = ofChars (bits line) := by
        rw [hbits, ofChars, List.flatMap_assoc]
        rfl

theorem eq_of_mem_bits (line : Bytes) : ∀ c ∈ bits line, c = '0' ∨ c = '1' := by
  intro c hc
  exact eq_of_isBit (List.mem_filter.mp hc).2

/-! ## Binary numbers -/

/-- **The sum of binary digits at their places**, the first of them being the most significant. -/
def bitsValue (cs : List Char) : Nat :=
  ∑ i : Fin cs.length, (if cs[i] = '1' then 1 else 0) * 2 ^ (cs.length - 1 - i)

@[simp] theorem bitsValue_nil : bitsValue [] = 0 := rfl

theorem bitsValue_cons (c : Char) (cs : List Char) :
    bitsValue (c :: cs) = (if c = '1' then 1 else 0) * 2 ^ cs.length + bitsValue cs := by
  rw [bitsValue]
  refine (Fin.sum_univ_succ _).trans (congrArg₂ (· + ·) rfl (Finset.sum_congr rfl ?_))
  intro i _
  have hplace : cs.length + 1 - 1 - (i + 1) = cs.length - 1 - (i : Nat) := by omega
  exact congrArg (fun place => (if cs[i] = '1' then 1 else 0) * 2 ^ place) hplace

section Bits

variable {cs : List Char} (hcs : ∀ c ∈ cs, c = '0' ∨ c = '1')

include hcs

theorem toNat_of_bits : ∀ c ∈ cs, 48 ≤ c.toNat ∧ c.toNat < 48 + 2 := by
  intro c hc
  rcases hcs c hc with rfl | rfl <;> decide

/-- **Digits spell the sum of their places**, behind those read before. -/
theorem ofDigitChars_two (value : Nat) :
    Nat.ofDigitChars 2 cs value = value * 2 ^ cs.length + bitsValue cs := by
  induction cs generalizing value with
  | nil => simp
  | cons c cs ih =>
    obtain ⟨hc, hcs⟩ := List.forall_mem_cons.mp hcs
    have hdigit : c.toNat - '0'.toNat = if c = '1' then 1 else 0 := by
      rcases hc with rfl | rfl <;> rfl
    rw [Nat.ofDigitChars_cons, ih hcs, hdigit, bitsValue_cons, List.length_cons]
    ring

end Bits

/-- **A last digit goes behind padded digits.** -/
theorem leftpad_toDigits_snoc {places digit : Nat} (hplaces : 0 < places) (hdigit : digit < 2)
    (value : Nat) :
    (Nat.toDigits 2 (2 * value + digit)).leftpad (places + 1) '0'
      = (Nat.toDigits 2 value).leftpad places '0' ++ [digit.digitChar] := by
  have hlast : Nat.toDigits 2 digit = [digit.digitChar] := Nat.toDigits_of_lt_base hdigit
  rcases Nat.eq_zero_or_pos value with rfl | hpos
  · obtain ⟨n, rfl⟩ := Nat.exists_eq_add_one_of_ne_zero hplaces.ne'
    have hzero : Nat.toDigits 2 0 = ['0'] := rfl
    rw [Nat.mul_zero, Nat.zero_add, hlast, hzero, List.leftpad, List.leftpad,
      ← List.replicate_succ']
    rfl
  · rw [← Nat.toDigits_append_toDigits (by decide) hpos hdigit, hlast, List.leftpad, List.leftpad,
      List.length_append, List.length_singleton, Nat.add_sub_add_right, List.append_assoc]

/-- **A row of binary digits is read back from its number**, with zeros in front up to its
length. -/
theorem leftpad_toDigits_ofDigitChars {cs : List Char} (hcs : ∀ c ∈ cs, c = '0' ∨ c = '1')
    (hne : cs ≠ []) :
    (Nat.toDigits 2 (Nat.ofDigitChars 2 cs 0)).leftpad cs.length '0' = cs := by
  -- by the last digit: a number is twice that of the digits before it, and the digit
  induction cs using List.reverseRecOn with
  | nil => exact absurd rfl hne
  | append_singleton cs c ih =>
    have hc : c = '0' ∨ c = '1' := hcs c (by simp)
    have hdigit : c.toNat - '0'.toNat < 2 := by
      rcases hc with rfl | rfl <;> decide
    have hchar : (c.toNat - '0'.toNat).digitChar = c := by
      rcases hc with rfl | rfl <;> rfl
    rw [Nat.ofDigitChars_append, Nat.ofDigitChars_cons, Nat.ofDigitChars_nil, List.length_append,
      List.length_singleton]
    by_cases hnil : cs = []
    · subst hnil
      rw [Nat.ofDigitChars_nil, Nat.mul_zero, Nat.zero_add, Nat.toDigits_of_lt_base hdigit, hchar]
      rfl
    · rw [leftpad_toDigits_snoc (List.length_pos_of_ne_nil hnil) hdigit, hchar,
        ih (fun d hd => hcs d (List.mem_append_left _ hd)) hnil]

/-! ## Decoded lines -/

/-- **What a line is decoded to**: its digits always are a numeral. -/
theorem decodeLine_eq (line : Bytes) :
    Transform.decodeLine line
      = if bits line = [] then .error .emptyNumeral
        else .ok (Bytes.ofNat (Nat.ofDigitChars 2 (bits line) 0)) := by
  have hbits := toNat_of_bits (eq_of_mem_bits line)
  have hdigits : binaryDigits line = (bits line).map ascii := by
    rw [binaryDigits_eq_ofChars]
    apply ofChars_ascii
    intro c hc
    have := hbits c hc
    omega
  rw [Transform.decodeLine, hdigits]
  by_cases hnil : bits line = []
  · rw [hnil]
    rfl
  · simp only [List.isEmpty_map, List.isEmpty_iff, hnil, if_false,
      readInteger?_map_ascii (by decide) hbits hnil]
    rfl

/-- **Decoding is exact at any width.** The bytes that are kept of a line are the characters `0` and
`1` it shows. Decoding fails just if there is none, and with that as the reason. Otherwise its
result is the canonical decimal numeral of the sum of the digits at their places, which is read as
that sum; and the sum, written in base two with zeros in front, is the digits again. -/
theorem decodeLine_exact (line : Bytes) :
    binaryDigits line = ofChars (bits line) ∧
      (∀ fault, Transform.decodeLine line = .error fault ↔
        bits line = [] ∧ fault = .emptyNumeral) ∧
      (bits line ≠ [] → ∃ numeral,
        Transform.decodeLine line = .ok numeral ∧
        IsCanonicalNumeral numeral ∧
        readInteger? 10 numeral = some (bitsValue (bits line) : Int) ∧
        (Nat.toDigits 2 (bitsValue (bits line))).leftpad (bits line).length '0' = bits line) := by
  have hvalue : Nat.ofDigitChars 2 (bits line) 0 = bitsValue (bits line) := by
    rw [ofDigitChars_two (eq_of_mem_bits line), Nat.zero_mul, Nat.zero_add]
  refine ⟨binaryDigits_eq_ofChars line, ?_, ?_⟩
  · intro fault
    rw [decodeLine_eq]
    constructor
    · intro h
      split_ifs at h with hnil
      exact ⟨hnil, (Except.error.inj h).symm⟩
    · rintro ⟨hnil, rfl⟩
      exact if_pos hnil
  · intro hne
    have hdecode := (decodeLine_eq line).trans (if_neg hne)
    rw [hvalue] at hdecode
    refine ⟨_, hdecode, isCanonicalNumeral_ofNat _, readInteger?_ofNat _, ?_⟩
    rw [← hvalue]
    exact leftpad_toDigits_ofDigitChars (eq_of_mem_bits line) hne

/-- Digits between a broken spelling, an accented letter and a stray byte. -/
theorem decodeLine_exact_malformed :
    bits [0xE2, 0x30, 0xC3, 0xA9, 0x31, 0xFF, 0x30] = ['0', '1', '0'] ∧
      ∃ numeral, Transform.decodeLine [0xE2, 0x30, 0xC3, 0xA9, 0x31, 0xFF, 0x30] = .ok numeral ∧
        IsCanonicalNumeral numeral ∧ readInteger? 10 numeral = some 2 ∧
        (Nat.toDigits 2 2).leftpad 3 '0' = ['0', '1', '0'] := by
  have hbits : bits [0xE2, 0x30, 0xC3, 0xA9, 0x31, 0xFF, 0x30] = ['0', '1', '0'] := by decide
  have hvalue : bitsValue ['0', '1', '0'] = 2 := by decide
  obtain ⟨numeral, hdecode, hcanonical, hread, hpad⟩ :=
    (decodeLine_exact [0xE2, 0x30, 0xC3, 0xA9, 0x31, 0xFF, 0x30]).2.2 (by rw [hbits]; decide)
  rw [hbits, hvalue] at hread hpad
  exact ⟨hbits, numeral, hdecode, hcanonical, hread, hpad⟩

end Linewise

import Linewise.Proofs.Transform

/-!
# Characters and their spellings

Reading runes undoes spelling them. A text begins with the rune of a character just if it
begins with the UTF-8 of that character, so the runes of a text that was put together from
characters are these characters, and a text without stray bytes is put together from the
characters it shows. The argument goes by the length of a spelling: for each of the long
ones, what the bytes spell and how the character is spelt are two lemmas over the same
bounds.

## Main results

* `toNat_lt_of_mem_utf8EncodeChar`: which bytes occur in no spelling
* `Rune.first_utf8EncodeChar`, `Rune.exists_of_first_eq_char`: a text begins with a character
  where it begins with its spelling
* `ofRunes_runes`: the spellings of the runes of a text, joined, are the text
* `runes_ofChars`, `shownChars_ofChars`, `isValidUtf8_ofChars`: spelt characters are read back
* `ofChars_shownChars`: valid text is spelt by the characters it shows
* `ofChars_codes`: in ASCII, bytes are the codes of characters
-/

namespace Linewise

/-- The code of a character that is given by its code. -/
theorem toNat_charOfNat {n : Nat} (h : n.isValidChar) : (Char.ofNat n).toNat = n := by
  rw [Char.ofNat, dif_pos h]
  rfl

/-- No character is spelt with the two highest bytes, and none below U+E000 with a byte from `0xEF`
on. -/
theorem toNat_lt_of_mem_utf8EncodeChar {c : Char} {b : UInt8} (h : b ∈ String.utf8EncodeChar c) :
    b.toNat < 0xFE ∧ (c.toNat < 0xE000 → b.toNat < 0xEF) := by
  have htoNat : c.toNat = c.val.toNat := rfl
  simp only [String.utf8EncodeChar] at h
  split_ifs at h
  · obtain rfl := List.mem_singleton.mp h
    rw [UInt8.toNat_ofNat']
    omega
  · simp only [List.mem_cons, List.not_mem_nil, or_false] at h
    rcases h with rfl | rfl <;> rw [UInt8.toNat_ofNat'] <;> omega
  · simp only [List.mem_cons, List.not_mem_nil, or_false] at h
    rcases h with rfl | rfl | rfl <;> rw [UInt8.toNat_ofNat'] <;> omega
  · simp only [List.mem_cons, List.not_mem_nil, or_false] at h
    rcases h with rfl | rfl | rfl | rfl <;> rw [UInt8.toNat_ofNat'] <;> omega

namespace Rune

/-! ## One rune -/

theorem between_iff {low high b : UInt8} :
    (decide (low ≤ b) && decide (b ≤ high)) = true ↔
      low.toNat ≤ b.toNat ∧ b.toNat ≤ high.toNat := by
  rw [Bool.and_eq_true, decide_eq_true_eq, decide_eq_true_eq, UInt8.le_iff_toNat_le,
    UInt8.le_iff_toNat_le]

theorem isContinuation_iff {b : UInt8} :
    isContinuation b = true ↔ 0x80 ≤ b.toNat ∧ b.toNat ≤ 0xBF :=
  between_iff

/-- The second byte of a long spelling is in the range that its first byte allows: neither a
shorter spelling nor a surrogate nor a code past the last one is left. -/
theorem second_iff {b b₁ : UInt8} :
    secondLow b ≤ b₁ ∧ b₁ ≤ secondHigh b ↔
      0x80 ≤ b₁.toNat ∧ b₁.toNat ≤ 0xBF ∧ (b.toNat = 0xE0 → 0xA0 ≤ b₁.toNat) ∧
        (b.toNat = 0xF0 → 0x90 ≤ b₁.toNat) ∧ (b.toNat = 0xED → b₁.toNat ≤ 0x9F) ∧
        (b.toNat = 0xF4 → b₁.toNat ≤ 0x8F) := by
  simp only [secondLow, secondHigh, UInt8.le_iff_toNat_le, ← UInt8.toNat_inj,
    UInt8.toNat_ofNat]
  split_ifs <;> simp_all <;> omega

theorem payload_eq (b : UInt8) : payload b = b.toNat - 0x80 :=
  rfl

/-- A byte is given by its code. -/
theorem ofNat_eq {b : UInt8} {n : Nat} (h : n = b.toNat) : UInt8.ofNat n = b := by
  rw [h, UInt8.ofNat_toNat]

/-! ### Two bytes -/

section Two

variable {b b₁ : UInt8} (hlead : 0xC2 ≤ b.toNat ∧ b.toNat ≤ 0xDF)
  (hnext : 0x80 ≤ b₁.toNat ∧ b₁.toNat ≤ 0xBF)

include hlead hnext

theorem first_two (rest : Bytes) :
    first b (b₁ :: rest) = char (Char.ofNat ((b.toNat - 0xC0) * 64 + payload b₁)) := by
  have hlong : ¬ b < 0x80 := fun h => absurd (UInt8.lt_iff_toNat_lt.mp h) (by simp; omega)
  have hhere : (decide (0xC2 ≤ b) && decide (b ≤ 0xDF)) = true := between_iff.mpr hlead
  rw [first, if_neg hlong, if_pos hhere]
  exact if_pos (isContinuation_iff.mpr hnext)

theorem utf8EncodeChar_two :
    String.utf8EncodeChar (Char.ofNat ((b.toNat - 0xC0) * 64 + payload b₁)) = [b, b₁] := by
  generalize hn : (b.toNat - 0xC0) * 64 + payload b₁ = n
  rw [payload_eq] at hn
  have hcode : (Char.ofNat n).val.toNat = n := toNat_charOfNat (.inl (by omega))
  rw [String.utf8EncodeChar, hcode, if_neg (by omega), if_pos (by omega),
    ofNat_eq (b := b) (by omega), ofNat_eq (b := b₁) (by omega)]

end Two

/-! ### Three bytes -/

section Three

variable {b b₁ b₂ : UInt8} (hlead : 0xE0 ≤ b.toNat ∧ b.toNat ≤ 0xEF)
  (hsecond : secondLow b ≤ b₁ ∧ b₁ ≤ secondHigh b)
  (hthird : 0x80 ≤ b₂.toNat ∧ b₂.toNat ≤ 0xBF)

include hlead hsecond hthird

theorem first_three (rest : Bytes) :
    first b (b₁ :: b₂ :: rest)
      = char (Char.ofNat ((b.toNat - 0xE0) * 4096 + payload b₁ * 64 + payload b₂)) := by
  have hlong : ¬ b < 0x80 := fun h => absurd (UInt8.lt_iff_toNat_lt.mp h) (by simp; omega)
  have htwo : ¬ (decide (0xC2 ≤ b) && decide (b ≤ 0xDF)) = true := fun h =>
    absurd (between_iff.mp h).2 (by simp; omega)
  have hhere : (decide (0xE0 ≤ b) && decide (b ≤ 0xEF)) = true := between_iff.mpr hlead
  rw [first, if_neg hlong, if_neg htwo, if_pos hhere]
  exact if_pos (by simp [hsecond, isContinuation_iff.mpr hthird])

theorem utf8EncodeChar_three :
    String.utf8EncodeChar (Char.ofNat ((b.toNat - 0xE0) * 4096 + payload b₁ * 64 + payload b₂))
      = [b, b₁, b₂] := by
  have hbounds := second_iff.mp hsecond
  generalize hn : (b.toNat - 0xE0) * 4096 + payload b₁ * 64 + payload b₂ = n
  rw [payload_eq, payload_eq] at hn
  have hvalid : n < 0xD800 ∨ 0xDFFF < n ∧ n < 0x110000 := by omega
  have hcode : (Char.ofNat n).val.toNat = n := toNat_charOfNat hvalid
  rw [String.utf8EncodeChar, hcode, if_neg (by omega), if_neg (by omega), if_pos (by omega),
    ofNat_eq (b := b) (by omega), ofNat_eq (b := b₁) (by omega), ofNat_eq (b := b₂) (by omega)]

end Three

/-! ### Four bytes -/

section Four

variable {b b₁ b₂ b₃ : UInt8} (hlead : 0xF0 ≤ b.toNat ∧ b.toNat ≤ 0xF4)
  (hsecond : secondLow b ≤ b₁ ∧ b₁ ≤ secondHigh b)
  (hthird : 0x80 ≤ b₂.toNat ∧ b₂.toNat ≤ 0xBF) (hfourth : 0x80 ≤ b₃.toNat ∧ b₃.toNat ≤ 0xBF)

include hlead hsecond hthird hfourth

theorem first_four (rest : Bytes) :
    first b (b₁ :: b₂ :: b₃ :: rest)
      = char (Char.ofNat
          ((b.toNat - 0xF0) * 262144 + payload b₁ * 4096 + payload b₂ * 64 + payload b₃)) := by
  have hlong : ¬ b < 0x80 := fun h => absurd (UInt8.lt_iff_toNat_lt.mp h) (by simp; omega)
  have htwo : ¬ (decide (0xC2 ≤ b) && decide (b ≤ 0xDF)) = true := fun h =>
    absurd (between_iff.mp h).2 (by simp; omega)
  have hthree : ¬ (decide (0xE0 ≤ b) && decide (b ≤ 0xEF)) = true := fun h =>
    absurd (between_iff.mp h).2 (by simp; omega)
  have hhere : (decide (0xF0 ≤ b) && decide (b ≤ 0xF4)) = true := between_iff.mpr hlead
  rw [first, if_neg hlong, if_neg htwo, if_neg hthree, if_pos hhere]
  exact if_pos (by
    simp [hsecond, isContinuation_iff.mpr hthird, isContinuation_iff.mpr hfourth])

theorem utf8EncodeChar_four :
    String.utf8EncodeChar (Char.ofNat
        ((b.toNat - 0xF0) * 262144 + payload b₁ * 4096 + payload b₂ * 64 + payload b₃))
      = [b, b₁, b₂, b₃] := by
  have hbounds := second_iff.mp hsecond
  generalize hn : (b.toNat - 0xF0) * 262144 + payload b₁ * 4096 + payload b₂ * 64 + payload b₃ = n
  rw [payload_eq, payload_eq, payload_eq] at hn
  have hvalid : n < 0xD800 ∨ 0xDFFF < n ∧ n < 0x110000 := by omega
  have hcode : (Char.ofNat n).val.toNat = n := toNat_charOfNat hvalid
  rw [String.utf8EncodeChar, hcode, if_neg (by omega), if_neg (by omega), if_neg (by omega),
    ofNat_eq (b := b) (by omega), ofNat_eq (b := b₁) (by omega), ofNat_eq (b := b₂) (by omega),
    ofNat_eq (b := b₃) (by omega)]

end Four

/-! ### Any length -/

/-- **A text that begins with the rune of a character begins with its spelling.** -/
theorem exists_of_first_eq_char {b : UInt8} {rest : Bytes} {c : Char}
    (h : first b rest = char c) : ∃ tail, b :: rest = String.utf8EncodeChar c ++ tail := by
  -- one case for each length of a spelling; in the others the byte is stray
  revert h
  fun_cases first b rest with
  | case1 _ hb =>
    intro h
    have hlow : b.toNat < 0x80 := UInt8.lt_iff_toNat_lt.mp hb
    have hcode : (Char.ofNat b.toNat).val.toNat = b.toNat := toNat_charOfNat (.inl (by omega))
    refine ⟨rest, ?_⟩
    rw [← char.inj h, String.utf8EncodeChar, hcode, if_pos (by omega), ofNat_eq rfl]
    rfl
  | case2 hb hb' b₁ tail hb₁ =>
    intro h
    have hspelt := utf8EncodeChar_two (between_iff.mp hb') (isContinuation_iff.mp hb₁)
    rw [char.inj h] at hspelt
    exact ⟨tail, by rw [hspelt]; rfl⟩
  | case5 hb _ hb' b₁ b₂ tail hb₂ =>
    intro h
    rw [Bool.and_eq_true, Bool.and_eq_true, decide_eq_true_eq, decide_eq_true_eq] at hb₂
    have hspelt := utf8EncodeChar_three (between_iff.mp hb') hb₂.1 (isContinuation_iff.mp hb₂.2)
    rw [char.inj h] at hspelt
    exact ⟨tail, by rw [hspelt]; rfl⟩
  | case8 hb _ _ hb' b₁ b₂ b₃ tail hb₃ =>
    intro h
    rw [Bool.and_eq_true, Bool.and_eq_true, Bool.and_eq_true, decide_eq_true_eq,
      decide_eq_true_eq] at hb₃
    have hspelt := utf8EncodeChar_four (between_iff.mp hb') hb₃.1.1
      (isContinuation_iff.mp hb₃.1.2) (isContinuation_iff.mp hb₃.2)
    rw [char.inj h] at hspelt
    exact ⟨tail, by rw [hspelt]; rfl⟩
  | _ => simp

theorem toNat_byte {n : Nat} (h : n < 256) : (UInt8.ofNat n).toNat = n := by
  rw [UInt8.toNat_ofNat']
  omega

/-- **A character is read back from its spelling**, whatever follows. -/
theorem first_utf8EncodeChar (c : Char) (rest : Bytes) :
    ∃ b tail, String.utf8EncodeChar c = b :: tail ∧ first b (tail ++ rest) = char c := by
  have hvalid : c.toNat < 0xD800 ∨ 0xDFFF < c.toNat ∧ c.toNat < 0x110000 := c.valid
  have hval : c.val.toNat = c.toNat := rfl
  rw [String.utf8EncodeChar, hval]
  -- one case for each length of a spelling; its payloads, put together, are the code of `c`
  by_cases h₁ : c.toNat ≤ 0x7F
  · refine ⟨_, _, if_pos h₁, ?_⟩
    have hb := toNat_byte (show c.toNat < 256 by omega)
    rw [first_of_lt (UInt8.lt_iff_toNat_lt.mpr (by rw [hb]; exact Nat.lt_succ_of_le h₁)), hb,
      Char.ofNat_toNat]
  rw [if_neg h₁]
  by_cases h₂ : c.toNat ≤ 0x7FF
  · refine ⟨_, _, if_pos h₂, ?_⟩
    have hb := toNat_byte (show c.toNat / 64 % 32 + 192 < 256 by omega)
    have hb₁ := toNat_byte (show c.toNat % 64 + 128 < 256 by omega)
    rw [List.singleton_append, first_two (by omega) (by omega), payload_eq, hb, hb₁,
      show (c.toNat / 64 % 32 + 192 - 0xC0) * 64 + (c.toNat % 64 + 128 - 0x80) = c.toNat by omega,
      Char.ofNat_toNat]
  rw [if_neg h₂]
  by_cases h₃ : c.toNat ≤ 0xFFFF
  · refine ⟨_, _, if_pos h₃, ?_⟩
    have hb := toNat_byte (show c.toNat / 4096 % 16 + 224 < 256 by omega)
    have hb₁ := toNat_byte (show c.toNat / 64 % 64 + 128 < 256 by omega)
    have hb₂ := toNat_byte (show c.toNat % 64 + 128 < 256 by omega)
    rw [List.cons_append, List.singleton_append,
      first_three (by omega) (second_iff.mpr (by omega)) (by omega), payload_eq, payload_eq, hb,
      hb₁, hb₂, show (c.toNat / 4096 % 16 + 224 - 0xE0) * 4096
        + (c.toNat / 64 % 64 + 128 - 0x80) * 64 + (c.toNat % 64 + 128 - 0x80) = c.toNat by omega,
      Char.ofNat_toNat]
  · refine ⟨_, _, if_neg h₃, ?_⟩
    have hb := toNat_byte (show c.toNat / 262144 % 8 + 240 < 256 by omega)
    have hb₁ := toNat_byte (show c.toNat / 4096 % 64 + 128 < 256 by omega)
    have hb₂ := toNat_byte (show c.toNat / 64 % 64 + 128 < 256 by omega)
    have hb₃ := toNat_byte (show c.toNat % 64 + 128 < 256 by omega)
    rw [List.cons_append, List.cons_append, List.singleton_append,
      first_four (by omega) (second_iff.mpr (by omega)) (by omega) (by omega), payload_eq,
      payload_eq, payload_eq, hb, hb₁, hb₂, hb₃,
      show (c.toNat / 262144 % 8 + 240 - 0xF0) * 262144 + (c.toNat / 4096 % 64 + 128 - 0x80) * 4096
        + (c.toNat / 64 % 64 + 128 - 0x80) * 64 + (c.toNat % 64 + 128 - 0x80) = c.toNat by omega,
      Char.ofNat_toNat]

/-- The bytes of the first rune, and what follows them, are the text. -/
theorem bytes_first_append (b : UInt8) (rest : Bytes) :
    (first b rest).bytes ++ rest.drop ((first b rest).bytes.length - 1) = b :: rest := by
  rcases first_eq_char_or_stray b rest with ⟨c, hc⟩ | hstray
  · obtain ⟨tail, htail⟩ := exists_of_first_eq_char hc
    have hpos : 1 ≤ (String.utf8EncodeChar c).length := by
      rw [String.length_utf8EncodeChar]
      exact Char.utf8Size_pos c
    have hdrop : rest.drop ((String.utf8EncodeChar c).length - 1) = tail := by
      calc rest.drop ((String.utf8EncodeChar c).length - 1)
          = (b :: rest).drop (String.utf8EncodeChar c).length := by
            rw [← List.drop_succ_cons (a := b), Nat.sub_add_cancel hpos]
        _ = tail := by rw [htail, List.drop_left]
    rw [hc, bytes, hdrop, htail]
  · rw [hstray]
    rfl

end Rune

/-! ## All runes -/

/-- **No byte is lost**: the spellings of the runes of a text are the text. -/
theorem ofRunes_runesLoop (done : List Rune) (skip : Nat) (text : Bytes) :
    ofRunes (runesLoop done skip text) = ofRunes done.reverse ++ text.drop skip := by
  fun_induction runesLoop done skip text with
  | case1 done skip => simp
  | case2 done skip b rest ih => rw [ih, List.drop_succ_cons]
  | case3 done b rest ih =>
    rw [ih, List.drop_zero, ← Rune.bytes_first_append b rest]
    simp [ofRunes]

theorem ofRunes_runes (text : Bytes) : ofRunes (runes text) = text := by
  rw [runes, ofRunes_runesLoop]
  rfl

/-- **Valid text is spelt by the characters it shows.** -/
theorem ofChars_shownChars {text : Bytes} (h : isValidUtf8 text = true) :
    ofChars (shownChars text) = text := by
  conv_rhs => rw [← ofRunes_runes text]
  rw [ofChars, shownChars, ofRunes, List.flatMap_map]
  apply List.flatMap_congr
  intro r hr
  cases r with
  | char c => rfl
  | stray b => exact absurd (List.all_eq_true.mp h _ hr) nofun

@[simp] theorem ofChars_append (cs ds : List Char) :
    ofChars (cs ++ ds) = ofChars cs ++ ofChars ds :=
  List.flatMap_append

theorem runesLoop_skip (done : List Rune) (tail rest : Bytes) :
    runesLoop done tail.length (tail ++ rest) = runesLoop done 0 rest := by
  induction tail with
  | nil => rfl
  | cons b tail ih => exact ih

theorem runesLoop_ofChars (done : List Rune) (cs : List Char) :
    runesLoop done 0 (ofChars cs) = done.reverse ++ cs.map .char := by
  induction cs generalizing done with
  | nil => simp [ofChars, runesLoop]
  | cons c cs ih =>
    obtain ⟨b, tail, hspelt, hfirst⟩ := Rune.first_utf8EncodeChar c (ofChars cs)
    have hlength : (Rune.char c).bytes.length - 1 = tail.length := by
      rw [Rune.bytes, hspelt, List.length_cons, Nat.add_sub_cancel]
    calc runesLoop done 0 (ofChars (c :: cs))
        = runesLoop done 0 (b :: (tail ++ ofChars cs)) := by
          rw [ofChars, List.flatMap_cons, hspelt]
          rfl
      _ = runesLoop (.char c :: done) 0 (ofChars cs) := by
          rw [runesLoop, hfirst, hlength, runesLoop_skip]
      _ = done.reverse ++ (c :: cs).map .char := by
          rw [ih]
          simp

/-- **Spelt characters are read back.** -/
theorem runes_ofChars (cs : List Char) : runes (ofChars cs) = cs.map .char :=
  runesLoop_ofChars [] cs

@[simp] theorem shownChars_ofChars (cs : List Char) : shownChars (ofChars cs) = cs := by
  rw [shownChars, runes_ofChars, List.map_map]
  exact List.map_id cs

@[simp] theorem isValidUtf8_ofChars (cs : List Char) : isValidUtf8 (ofChars cs) = true := by
  simp [isValidUtf8, runes_ofChars, Rune.isChar]

/-! ## ASCII -/

theorem utf8EncodeChar_ascii {c : Char} (h : c.toNat < 0x80) :
    String.utf8EncodeChar c = [ascii c] := by
  have hv : c.val.toNat ≤ 0x7F := Nat.le_of_lt_succ h
  rw [String.utf8EncodeChar, if_pos hv]
  rfl

/-- An ASCII character is spelt by one byte. -/
theorem ofChars_ascii {cs : List Char} (h : ∀ c ∈ cs, c.toNat < 0x80) :
    ofChars cs = cs.map ascii := by
  rw [List.map_eq_flatMap]
  exact List.flatMap_congr fun c hc => utf8EncodeChar_ascii (h c hc)

/-- **An ASCII text is spelt by the characters with the codes of its bytes.** -/
theorem ofChars_codes {text : Bytes} (h : ∀ b ∈ text, b.toNat < 0x80) :
    ofChars (text.map fun b => Char.ofNat b.toNat) = text := by
  have hcode {b : UInt8} (hb : b ∈ text) : (Char.ofNat b.toNat).toNat = b.toNat :=
    toNat_charOfNat (.inl (lt_trans (h b hb) (by decide)))
  rw [ofChars_ascii, List.map_map]
  · calc text.map (ascii ∘ fun b => Char.ofNat b.toNat)
        = text.map id := List.map_congr_left fun b hb => Rune.ofNat_eq (hcode hb)
      _ = text := List.map_id text
  · intro c hc
    obtain ⟨b, hb, rfl⟩ := List.mem_map.mp hc
    rw [hcode hb]
    exact h b hb

end Linewise

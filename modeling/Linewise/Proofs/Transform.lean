import Linewise.Proofs.Lines
import Linewise.Transform

/-!
# Results are lines

What the built-in transformations make of a line is a line again: it holds no byte that
ends one. A decimal numeral has digits only. A squeezed line has the runes of its fields
and single spaces; a break is a blank and so in no field, and no byte of a longer UTF-8
sequence is a break.

## Main results

* `toNat_eq_of_mem_utf8EncodeChar`: a byte below `0x80` spells a character of its own
* `Rune.unbroken_bytes`: a rune that is no blank holds no break
* `unbroken_of_decodeLine`, `unbroken_squeeze`: the two kinds of results
-/

namespace Linewise

/-! ## Runes -/

/-- A byte below `0x80` in the UTF-8 of a character is all of it. -/
theorem toNat_eq_of_mem_utf8EncodeChar {c : Char} {b : UInt8}
    (h : b ∈ String.utf8EncodeChar c) (hb : b.toNat < 0x80) : c.toNat = b.toNat := by
  have htoNat : c.toNat = c.val.toNat := rfl
  simp only [String.utf8EncodeChar] at h
  split_ifs at h
  -- one byte: the code itself
  · obtain rfl := List.mem_singleton.mp h
    rw [UInt8.toNat_ofNat']
    omega
  -- in the longer forms every byte has its highest bit set
  · simp only [List.mem_cons, List.not_mem_nil, or_false] at h
    rcases h with rfl | rfl <;> rw [UInt8.toNat_ofNat'] at hb <;> omega
  · simp only [List.mem_cons, List.not_mem_nil, or_false] at h
    rcases h with rfl | rfl | rfl <;> rw [UInt8.toNat_ofNat'] at hb <;> omega
  · simp only [List.mem_cons, List.not_mem_nil, or_false] at h
    rcases h with rfl | rfl | rfl | rfl <;> rw [UInt8.toNat_ofNat'] at hb <;> omega

/-- A break is an ASCII byte. -/
theorem toNat_of_isBreak {b : UInt8} (h : isBreak b = true) :
    b.toNat = 0x0A ∨ b.toNat = 0x0D := by
  rcases isBreak_iff.mp h with rfl | rfl
  · exact .inl rfl
  · exact .inr rfl

namespace Rune

/-- An ASCII byte is never stray. -/
theorem first_of_lt {b : UInt8} (h : b < 0x80) (rest : Bytes) :
    first b rest = char (Char.ofNat b.toNat) :=
  if_pos h

/-- A text begins with a character or with a stray byte, its first one. -/
theorem first_eq_char_or_stray (b : UInt8) (rest : Bytes) :
    (∃ c, first b rest = char c) ∨ first b rest = stray b := by
  fun_cases first b rest <;> simp

/-- **A rune that is no blank holds no break**: as a character it would be the break itself, and
a stray byte is not in ASCII. -/
theorem unbroken_bytes {b : UInt8} {rest : Bytes} (h : (first b rest).isBlank = false) :
    Unbroken (first b rest).bytes := by
  intro b' hb'
  by_contra hbreak
  have hcode := toNat_of_isBreak (by simpa using hbreak)
  rcases first_eq_char_or_stray b rest with ⟨c, hc⟩ | hstray
  · rw [hc] at h hb'
    have hc' : c.toNat = b'.toNat := toNat_eq_of_mem_utf8EncodeChar hb' (by omega)
    have hblank : (char c).isBlank = true := by
      simp only [isBlank, code, toChar, hc', Linewise.isBlank]
      rcases hcode with hcode | hcode <;> rw [hcode] <;> decide
    rw [hblank] at h
    cases h
  · rw [hstray] at hb'
    obtain rfl := List.mem_singleton.mp hb'
    have hlt : b' < 0x80 := by
      rw [UInt8.lt_iff_toNat_lt]
      have : (0x80 : UInt8).toNat = 128 := rfl
      omega
    rw [first_of_lt hlt] at hstray
    cases hstray

end Rune

/-- Every rune of a text is the one some rest of it begins with. -/
theorem exists_first_of_mem_runesLoop {r : Rune} {done : List Rune} {skip : Nat} {text : Bytes}
    (h : r ∈ runesLoop done skip text) : r ∈ done ∨ ∃ b rest, r = Rune.first b rest := by
  fun_induction runesLoop done skip text with
  | case1 done skip => exact .inl (List.mem_reverse.mp h)
  | case2 done skip b rest ih => exact ih h
  | case3 done b rest ih =>
    rcases ih h with hmem | hfirst
    · rcases List.mem_cons.mp hmem with rfl | hdone
      · exact .inr ⟨b, rest, rfl⟩
      · exact .inl hdone
    · exact .inr hfirst

/-! ## Squeezed lines -/

/-- The pieces between separators hold elements of the list that are none. -/
theorem mem_of_mem_splitOnP {α : Type} {p : α → Bool} {xs piece : List α} {x : α}
    (hpiece : piece ∈ xs.splitOnP p) (hx : x ∈ piece) : x ∈ xs ∧ p x = false := by
  induction xs generalizing piece with
  | nil =>
    obtain rfl : piece = [] := by simpa using hpiece
    cases hx
  | cons y xs ih =>
    rw [List.splitOnP_cons_eq_if_modifyHead] at hpiece
    split_ifs at hpiece with hy
    · rcases List.mem_cons.mp hpiece with rfl | hpiece
      · cases hx
      · obtain ⟨hmem, hp⟩ := ih hpiece hx
        exact ⟨List.mem_cons_of_mem y hmem, hp⟩
    · obtain ⟨head, tail, hsplit⟩ := List.exists_cons_of_ne_nil (List.splitOnP_ne_nil p xs)
      rw [hsplit, List.modifyHead_cons] at hpiece
      rcases List.mem_cons.mp hpiece with rfl | htail
      · rcases List.mem_cons.mp hx with rfl | hx
        · exact ⟨List.mem_cons_self, by simpa using hy⟩
        · obtain ⟨hmem, hp⟩ := ih (hsplit ▸ List.mem_cons_self) hx
          exact ⟨List.mem_cons_of_mem y hmem, hp⟩
      · obtain ⟨hmem, hp⟩ := ih (hsplit ▸ List.mem_cons_of_mem head htail) hx
        exact ⟨List.mem_cons_of_mem y hmem, hp⟩

/-- Unbroken pieces with an unbroken separator between them are unbroken. -/
theorem unbroken_join {separator : Bytes} {pieces : List Bytes} (hs : Unbroken separator)
    (hp : ∀ piece ∈ pieces, Unbroken piece) : Unbroken (Bytes.join separator pieces) := by
  rw [Bytes.join]
  induction pieces with
  | nil => exact unbroken_nil
  | cons piece pieces ih =>
    obtain ⟨hpiece, hpieces⟩ := List.forall_mem_cons.mp hp
    rcases pieces with _ | ⟨next, pieces⟩
    · rw [List.intercalate_singleton]
      exact hpiece
    · rw [List.intercalate_cons_cons]
      intro b hb
      rcases List.mem_append.mp hb with hb | hb
      · exact (List.mem_append.mp hb).elim (hpiece b) (hs b)
      · exact ih hpieces b hb

/-- **A squeezed line is a line**, whatever it was made of. -/
theorem unbroken_squeeze (line : Bytes) : Unbroken (squeeze line) := by
  have hspace : Unbroken [Bytes.space] := unbroken_cons.mpr ⟨rfl, unbroken_nil⟩
  refine unbroken_join hspace fun field hfield => ?_
  obtain ⟨run, hrun, rfl⟩ := List.mem_map.mp hfield
  intro b hb
  obtain ⟨r, hr, hb⟩ := List.mem_flatMap.mp hb
  obtain ⟨hmem, hblank⟩ := mem_of_mem_splitOnP (List.mem_of_mem_filter hrun) hr
  rcases exists_first_of_mem_runesLoop hmem with hnil | ⟨b', rest, rfl⟩
  · cases hnil
  · exact Rune.unbroken_bytes hblank b hb

/-! ## Numerals -/

/-- A decimal numeral is a line. -/
theorem unbroken_ofNat (n : Nat) : Unbroken (Bytes.ofNat n) := by
  intro b hb
  obtain ⟨c, hc, rfl⟩ := List.mem_map.mp hb
  have hdigit : 48 ≤ c.toNat ∧ c.toNat ≤ 57 := by
    have h := Nat.isDigit_of_mem_toDigits (by decide) (Nat.le_refl 10) hc
    simpa [Char.isDigit, UInt32.le_iff_toNat_le] using h
  by_contra hbreak
  have hcode := toNat_of_isBreak (by simpa using hbreak)
  rw [ascii, UInt8.toNat_ofNat'] at hcode
  omega

theorem unbroken_decimal (n : Int) : Unbroken (Bytes.decimal n) := by
  cases n with
  | ofNat n => exact unbroken_ofNat n
  | negSucc n => exact unbroken_cons.mpr ⟨rfl, unbroken_ofNat (n + 1)⟩

/-- **A decoded line is a line.** -/
theorem unbroken_of_decodeLine {line result : Bytes}
    (h : Transform.decodeLine line = .ok result) : Unbroken result := by
  rw [Transform.decodeLine] at h
  split_ifs at h
  split at h
  · cases h
  · obtain rfl := Except.ok.inj h
    exact unbroken_decimal _

end Linewise

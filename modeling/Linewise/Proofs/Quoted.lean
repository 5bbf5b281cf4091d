import Linewise.Fault
import Linewise.Proofs.Numerals

/-!
# Quoted lines are read back

A message about a line shows its beginning between double quotes. Every rune is written in a
form of its own: as it is, with a backslash, by a short name, or by digits. Reading takes the
forms off one after the other, and each gives back the bytes of its rune, also where these
spell no character. So the quoted text stands for the very bytes of the line, and two short
lines never share a message. What is written is printable, whatever was to be written:
neither a line break nor a control character nor a stray byte is left in it.

## Main definitions

* `Quoted.IsPrinted text`: a text that is spelt by printable characters
* `IsQuotation text`: a text between double quotes, in one line and without control characters

## Main results

* `Quoted.number?_hex`: hexadecimal digits are read as the number they were written for
* `Quoted.readInside?_escape`: one rune is read back, whatever follows
* `Quoted.read?_quoted`: a quoted text is read back
* `Quoted.isPrinted_quoted`: a quoted text is printable
* `message_parse_quotes`: the message about a line
-/

namespace Linewise

/-! ## The number of a line -/

theorem ofNat_eq_utf8 (n : Nat) : Bytes.ofNat n = utf8 (toString n) := by
  have hascii : ∀ c ∈ Nat.toDigits 10 n, c.toNat < 0x80 := fun c hc =>
    Nat.lt_of_le_of_lt (toNat_of_mem_toDigits hc).2 (by decide)
  have hchars : (toString n).toList = Nat.toDigits 10 n := String.toList_ofList
  rw [Bytes.ofNat, ← ofChars_ascii hascii, utf8, hchars, ofChars]

/-- The decimal numeral of an integer is the string that shows it. -/
theorem decimal_eq_utf8 (n : Int) : Bytes.decimal n = utf8 (toString n) := by
  cases n with
  | ofNat n => exact ofNat_eq_utf8 n
  | negSucc n =>
    have hchars : (toString (Int.negSucc n)).toList = '-' :: (toString (n + 1)).toList :=
      String.toList_append
    rw [Bytes.decimal, ofNat_eq_utf8, utf8, utf8, hchars]
    rfl

namespace Quoted

/-! ## Digits -/

theorem digitValue?_hexDigit {n : Nat} (h : n < 16) :
    digitValue? 16 (Bytes.hexDigit n) = some n := by
  revert n
  decide

theorem number?_snoc (base : Nat) (digits : Bytes) (b : UInt8) :
    number? base (digits ++ [b]) = (number? base digits).bind fun value =>
      (digitValue? base b).map (base * value + ·) := by
  simp [number?, List.foldlM_append]

/-- **Hexadecimal digits are read as the number they were written for.** -/
theorem number?_hex {places n : Nat} (h : n < 16 ^ places) :
    number? 16 (Bytes.hex places n) = some n := by
  induction places generalizing n with
  | zero =>
    obtain rfl : n = 0 := by simpa using h
    rfl
  | succ places ih =>
    have hfront : n / 16 < 16 ^ places := by
      rw [pow_succ] at h
      exact Nat.div_lt_of_lt_mul (by omega)
    rw [Bytes.hex, number?_snoc, ih hfront, digitValue?_hexDigit (Nat.mod_lt n (by decide))]
    simp [Nat.div_add_mod]

@[simp] theorem length_hex (places n : Nat) : (Bytes.hex places n).length = places := by
  induction places generalizing n with
  | zero => rfl
  | succ places ih => rw [Bytes.hex, List.length_append, ih, List.length_singleton]

/-! ## Reading back -/

/-- Bytes that are already read are passed over. -/
theorem readInside?_skip (used rest : Bytes) :
    readInside? used.length (used ++ rest) = readInside? 0 rest := by
  induction used with
  | nil => rfl
  | cons b used ih => exact ih

/-- **An escape is read as what it stands for.** -/
theorem readInside?_backslash {name : UInt8} {bytes used rest : Bytes}
    (h : unescape? name (used ++ rest) = some (bytes, used.length)) :
    readInside? 0 (ascii '\\' :: name :: (used ++ rest))
      = (readInside? 0 rest).map (bytes ++ ·) := by
  rw [readInside?, if_neg (by decide), if_neg (by decide), if_pos rfl]
  simp only [h, readInside?_skip]

/-- An escape without digits ends with its name. -/
theorem readInside?_name {name : UInt8} {bytes rest : Bytes}
    (h : unescape? name rest = some (bytes, 0)) :
    readInside? 0 (ascii '\\' :: name :: rest) = (readInside? 0 rest).map (bytes ++ ·) :=
  @readInside?_backslash name bytes [] rest h

/-- An escape by digits stands for what is spelt by their number. -/
theorem readInside?_digits {name : UInt8} {places code : Nat} {spell? : Nat → Option Bytes}
    {bytes : Bytes}
    (hname : ∀ text, unescape? name text
      = ((number? 16 (text.take places)).bind spell?).map (·, places))
    (hcode : code < 16 ^ places) (hspelt : spell? code = some bytes) (rest : Bytes) :
    readInside? 0 (ascii '\\' :: name :: (Bytes.hex places code ++ rest))
      = (readInside? 0 rest).map (bytes ++ ·) := by
  apply readInside?_backslash
  rw [hname, List.take_left' (length_hex places code), number?_hex hcode, Option.bind_some, hspelt,
    length_hex]
  rfl

/-- Any other byte begins a rune that is read as it stands. -/
theorem readInside?_first {b : UInt8} {rest : Bytes} (hquote : b ≠ ascii '"')
    (hfeed : b ≠ Bytes.lineFeed) (hbackslash : b ≠ ascii '\\') :
    readInside? 0 (b :: rest)
      = (readInside? ((Rune.first b rest).bytes.length - 1) rest).map
          (String.utf8EncodeChar (Rune.first b rest).toChar ++ ·) := by
  rw [readInside?.eq_def]
  exact (if_neg hquote).trans ((if_neg hfeed).trans (if_neg hbackslash))

theorem eq_of_ascii_mem {c d : Char} (hd : d.toNat < 0x80)
    (h : ascii d ∈ String.utf8EncodeChar c) : c = d := by
  have hcode : (ascii d).toNat = d.toNat := Rune.toNat_byte (by omega)
  have hc := toNat_eq_of_mem_utf8EncodeChar h (by omega)
  exact Char.toNat_inj.mp (hc.trans hcode)

/-- **A character that needs no escape is read as it stands.** -/
theorem readInside?_char {c : Char} (hquote : c ≠ '"') (hfeed : c ≠ '\n') (hbackslash : c ≠ '\\')
    (rest : Bytes) :
    readInside? 0 (String.utf8EncodeChar c ++ rest)
      = (readInside? 0 rest).map (String.utf8EncodeChar c ++ ·) := by
  obtain ⟨b, tail, hspelt, hfirst⟩ := Rune.first_utf8EncodeChar c rest
  have hne {d : Char} (hd : d.toNat < 0x80) (hcd : c ≠ d) : b ≠ ascii d := by
    rintro rfl
    exact hcd (eq_of_ascii_mem hd (by simp [hspelt]))
  have hlength : (Rune.char c).bytes.length - 1 = tail.length := by
    rw [Rune.bytes, hspelt, List.length_cons, Nat.add_sub_cancel]
  conv_lhs => rw [hspelt, List.cons_append]
  rw [readInside?_first (hne (by decide) hquote) (hne (d := '\n') (by decide) hfeed)
    (hne (by decide) hbackslash), hfirst, hlength, readInside?_skip]
  rfl

/-- A short name stands for its character. -/
theorem unescape?_shortName {c name : Char} (h : shortName? c = some name) (rest : Bytes) :
    unescape? (ascii name) rest = some (String.utf8EncodeChar c, 0) := by
  unfold shortName? at h
  split_ifs at h with h₁ h₂ h₃ h₄ h₅ h₆ h₇
  all_goals
    subst c
    cases h
    rfl

theorem byte?_toNat (b : UInt8) : byte? b.toNat = some [b] := by
  rw [byte?, if_pos b.toNat_lt, UInt8.ofNat_toNat]

theorem character?_toNat (c : Char) : character? c.toNat = some (String.utf8EncodeChar c) := by
  have hvalid : c.toNat < 0xD800 ∨ 0xDFFF < c.toNat ∧ c.toNat < 0x110000 := c.valid
  rw [character?, if_pos (by simpa using hvalid), Char.ofNat_toNat]

/-- **One rune is read back**, whatever follows. -/
theorem readInside?_escape (r : Rune) (rest : Bytes) :
    readInside? 0 (escape r ++ rest) = (readInside? 0 rest).map (r.bytes ++ ·) := by
  -- one case for each form that a rune is written in
  fun_cases escape r with
  | case1 b => exact readInside?_digits (fun _ => rfl) b.toNat_lt (byte?_toNat b) rest
  | case2 c hc =>
    rcases (by simpa using hc : c = '"' ∨ c = '\\') with rfl | rfl
    · exact readInside?_name rfl
    · exact readInside?_name rfl
  | case3 c hc hprintable =>
    obtain ⟨hquote, hbackslash⟩ : c ≠ '"' ∧ c ≠ '\\' := by simpa using hc
    have hfeed : c ≠ '\n' := by
      rintro rfl
      exact absurd hprintable (by decide)
    exact readInside?_char hquote hfeed hbackslash rest
  | case4 c hc hprintable name hname => exact readInside?_name (unescape?_shortName hname rest)
  | case5 c hc hprintable hname hcontrol =>
    have hlow : c.toNat < 0x80 := by
      rcases (by simpa using hcontrol : c.toNat < 0x20 ∨ c.toNat = 0x7F) with h | h <;> omega
    have hbyte : byte? c.toNat = some (String.utf8EncodeChar c) := by
      rw [utf8EncodeChar_ascii hlow, ← byte?_toNat (ascii c), ascii, Rune.toNat_byte (by omega)]
    exact readInside?_digits (fun _ => rfl) (by omega) hbyte rest
  | case6 c hc hprintable hname hcontrol hlow =>
    exact readInside?_digits (fun _ => rfl) hlow (character?_toNat c) rest
  | case7 c hc hprintable hname hcontrol hhigh =>
    have hcode : c.toNat < 16 ^ 8 := by
      have hvalid : c.toNat < 0xD800 ∨ 0xDFFF < c.toNat ∧ c.toNat < 0x110000 := c.valid
      omega
    exact readInside?_digits (fun _ => rfl) hcode (character?_toNat c) rest

theorem readInside?_flatMap (rs : List Rune) :
    readInside? 0 (rs.flatMap escape ++ [ascii '"']) = some (ofRunes rs) := by
  induction rs with
  | nil => rfl
  | cons r rs ih =>
    rw [List.flatMap_cons, List.append_assoc, readInside?_escape, ih]
    rfl

/-- **A quoted text is read back**, byte for byte. -/
theorem read?_quoted (text : Bytes) : read? (quoted text) = some text := by
  have hinside := readInside?_flatMap (runes text)
  rw [ofRunes_runes] at hinside
  rw [quoted, List.cons_append, read?, if_pos rfl, hinside]

/-! ## What is written is printable -/

/-- **A text that is spelt by printable characters.** -/
def IsPrinted (text : Bytes) : Prop :=
  ∃ cs : List Char, text = ofChars cs ∧ ∀ c ∈ cs, isPrintable c = true

theorem IsPrinted.append {text more : Bytes} (h : IsPrinted text) (hmore : IsPrinted more) :
    IsPrinted (text ++ more) := by
  obtain ⟨cs, rfl, hcs⟩ := h
  obtain ⟨ds, rfl, hds⟩ := hmore
  refine ⟨cs ++ ds, (ofChars_append cs ds).symm, ?_⟩
  intro c hc
  rcases List.mem_append.mp hc with hc | hc
  · exact hcs c hc
  · exact hds c hc

theorem isPrinted_flatMap {α : Type} {xs : List α} {write : α → Bytes}
    (h : ∀ x ∈ xs, IsPrinted (write x)) : IsPrinted (xs.flatMap write) := by
  induction xs with
  | nil => exact ⟨[], rfl, nofun⟩
  | cons x xs ih =>
    obtain ⟨hx, hxs⟩ := List.forall_mem_cons.mp h
    rw [List.flatMap_cons]
    exact hx.append (ih hxs)

/-- Is the byte one of printable ASCII? -/
def isPlain (b : UInt8) : Bool :=
  0x20 ≤ b && b < 0x7F

theorem isPlain_iff {b : UInt8} : isPlain b = true ↔ 0x20 ≤ b.toNat ∧ b.toNat < 0x7F := by
  rw [isPlain, Bool.and_eq_true, decide_eq_true_eq, decide_eq_true_eq, UInt8.le_iff_toNat_le,
    UInt8.lt_iff_toNat_lt]
  rfl

/-- Printable ASCII is spelt by the characters with the codes of its bytes. -/
theorem isPrinted_plain {text : Bytes} (h : text.all isPlain = true) : IsPrinted text := by
  have hplain (b : UInt8) (hb : b ∈ text) : 0x20 ≤ b.toNat ∧ b.toNat < 0x7F :=
    isPlain_iff.mp (List.all_eq_true.mp h b hb)
  have hascii : ∀ b ∈ text, b.toNat < 0x80 := fun b hb =>
    Nat.lt_of_lt_of_le (hplain b hb).2 (by decide)
  refine ⟨_, (ofChars_codes hascii).symm, ?_⟩
  intro c hc
  obtain ⟨b, hb, rfl⟩ := List.mem_map.mp hc
  have hcode : (Char.ofNat b.toNat).toNat = b.toNat :=
    toNat_charOfNat (.inl (Nat.lt_trans (hascii b hb) (by decide)))
  rw [isPrintable, hcode, if_pos (hplain b hb).2]
  exact decide_eq_true (hplain b hb).1

theorem isPlain_hexDigit {n : Nat} (h : n < 16) : isPlain (Bytes.hexDigit n) = true := by
  revert n
  decide

theorem all_isPlain_hex (places n : Nat) : (Bytes.hex places n).all isPlain = true := by
  induction places generalizing n with
  | zero => rfl
  | succ places ih =>
    rw [Bytes.hex, List.all_append, ih, List.all_cons, isPlain_hexDigit (Nat.mod_lt n (by decide))]
    rfl

theorem isPlain_shortName {c name : Char} (h : shortName? c = some name) :
    isPlain (ascii name) = true := by
  unfold shortName? at h
  split_ifs at h with h₁ h₂ h₃ h₄ h₅ h₆ h₇
  all_goals
    cases h
    rfl

/-- An escape by digits, whatever its name. -/
theorem isPrinted_digits {start : Bytes} (h : start.all isPlain = true) (places n : Nat) :
    IsPrinted (start ++ Bytes.hex places n) := by
  apply isPrinted_plain
  rw [List.all_append, h, all_isPlain_hex]
  rfl

/-- **Every rune is written by printable characters.** -/
theorem isPrinted_escape (r : Rune) : IsPrinted (escape r) := by
  fun_cases escape r with
  | case1 b => exact isPrinted_digits rfl 2 b.toNat
  | case2 c hc =>
    apply isPrinted_plain
    rcases (by simpa using hc : c = '"' ∨ c = '\\') with rfl | rfl
    · rfl
    · rfl
  | case3 c hc hprintable =>
    exact ⟨[c], by simp [ofChars], fun d hd => List.mem_singleton.mp hd ▸ hprintable⟩
  | case4 c hc hprintable name hname =>
    apply isPrinted_plain
    rw [List.all_cons, List.all_cons, isPlain_shortName hname]
    rfl
  | case5 c => exact isPrinted_digits rfl 2 c.toNat
  | case6 c => exact isPrinted_digits rfl 4 c.toNat
  | case7 c => exact isPrinted_digits rfl 8 c.toNat

/-- **A quoted text is printable**, whatever was to be quoted. -/
theorem isPrinted_quoted (text : Bytes) : IsPrinted (quoted text) := by
  have hquote : IsPrinted [ascii '"'] := isPrinted_plain rfl
  have hinside : IsPrinted ((runes text).flatMap escape) :=
    isPrinted_flatMap fun r _ => isPrinted_escape r
  exact (hquote.append hinside).append hquote

/-! ### Printable characters -/

/-- The characters that end a line in Unicode. -/
def lineBreaks : List Char :=
  ['\n', '\x0b', '\x0c', '\r', '\u0085', '\u2028', '\u2029']

/-- Is the character a control character: one of ASCII, or one of those right above? -/
def isControl (c : Char) : Bool :=
  c.toNat < 0x20 || 0x7F ≤ c.toNat && c.toNat < 0xA0

theorem not_mem_lineBreaks {c : Char} (h : isPrintable c = true) : c ∉ lineBreaks := by
  have hnone : lineBreaks.all (fun d => !isPrintable d) = true := by decide +kernel
  intro hmem
  have hc := List.all_eq_true.mp hnone c hmem
  rw [h] at hc
  cases hc

theorem isControl_eq_false {c : Char} (h : isPrintable c = true) : isControl c = false := by
  unfold isPrintable at h
  split_ifs at h with hlow hmiddle
  · have hprintable : 0x20 ≤ c.toNat := of_decide_eq_true h
    simp only [isControl, Bool.or_eq_false_iff, Bool.and_eq_false_iff, decide_eq_false_iff_not]
    omega
  · simp only [isControl, Bool.or_eq_false_iff, Bool.and_eq_false_iff, decide_eq_false_iff_not]
    omega

end Quoted

/-- **A text between double quotes**, in one line and without anything that does not show. -/
structure IsQuotation (text : Bytes) : Prop where
  /-- It begins and ends with a quote. -/
  quotes : ∃ inside, text = ascii '"' :: inside ++ [ascii '"']
  /-- It holds no stray byte. -/
  valid : isValidUtf8 text = true
  /-- Its characters are printable: none ends a line, and none is a control character. -/
  shown : ∀ c ∈ shownChars text,
    isPrintable c = true ∧ c ∉ Quoted.lineBreaks ∧ Quoted.isControl c = false

theorem isQuotation_quoted (text : Bytes) : IsQuotation (quoted text) := by
  obtain ⟨cs, hspelt, hcs⟩ := Quoted.isPrinted_quoted text
  refine ⟨⟨_, rfl⟩, ?_, ?_⟩
  · rw [hspelt]
    exact isValidUtf8_ofChars cs
  · rw [hspelt, shownChars_ofChars]
    intro c hc
    have hprintable := hcs c hc
    exact ⟨hprintable, Quoted.not_mem_lineBreaks hprintable, Quoted.isControl_eq_false hprintable⟩

/-! ## Messages -/

namespace Fault

theorem clip_of_le {input : Bytes} (h : input.length ≤ 64) : clip input = input :=
  if_neg (Nat.not_lt.mpr h)

theorem clip_of_lt {input : Bytes} (h : 64 < input.length) :
    clip input = input.take 64 ++ utf8 "..." :=
  if_pos h

/-- **A line that is quoted whole** is told from every other line, also from those that are cut:
they are longer with their dots. -/
theorem eq_of_clip {input other : Bytes} (h : input.length ≤ 64) (heq : clip other = clip input) :
    other = input := by
  rw [clip_of_le h] at heq
  rcases Nat.lt_or_ge 64 other.length with hlong | hshort
  · have hlength := congrArg List.length heq
    have hdots : (utf8 "...").length = 3 := by decide
    rw [clip_of_lt hlong, List.length_append, List.length_take, hdots] at hlength
    omega
  · rwa [clip_of_le hshort] at heq

/-- Two lines have the same message only if the same is quoted of them. -/
theorem clip_of_message {transform input other : Bytes} {line : Int} {cause : Fault}
    (h : (parse transform line other cause).message = (parse transform line input cause).message) :
    clip other = clip input := by
  simp only [message, List.append_assoc, List.append_cancel_left_eq,
    List.append_cancel_right_eq] at h
  have hread := congrArg Quoted.read? h
  rw [Quoted.read?_quoted, Quoted.read?_quoted] at hread
  exact Option.some.inj hread

end Fault

/-- **The message about a line quotes it faithfully.** It names the transformation, the number of the
line and the cause, and then shows a text between double quotes, in one line, without control
characters and without stray bytes. Read back, this text is the line if that has at most 64
bytes, and otherwise its first 64 bytes and three dots. So a line of at most 64 bytes has a
message of its own: with the same transformation, number and cause no other line has it, of
whatever length. -/
theorem message_parse_quotes (transform : Bytes) (line : Int) (cause : Fault) :
    (∀ input : Bytes, ∃ shown : Bytes,
      (Fault.parse transform line input cause).message
        = transform ++ utf8 ": line " ++ utf8 (toString line) ++ utf8 ": " ++ cause.message
          ++ utf8 " (input " ++ shown ++ utf8 ")" ∧
      IsQuotation shown ∧
      Quoted.read? shown
        = some (if input.length ≤ 64 then input else input.take 64 ++ utf8 "...")) ∧
    ∀ input other : Bytes, input.length ≤ 64 → other ≠ input →
      (Fault.parse transform line other cause).message
        ≠ (Fault.parse transform line input cause).message := by
  constructor
  · intro input
    refine ⟨quoted (Fault.clip input), ?_, isQuotation_quoted _, ?_⟩
    · rw [Fault.message, decimal_eq_utf8]
    · rw [Quoted.read?_quoted]
      split_ifs with hlength
      · rw [Fault.clip_of_le hlength]
      · rw [Fault.clip_of_lt (Nat.lt_of_not_le hlength)]
  · intro input other hlength hne heq
    exact hne (Fault.eq_of_clip hlength (Fault.clip_of_message heq))

/-- A stray byte and the character that it is shown as look the same, but are quoted apart. -/
theorem message_parse_quotes_stray :
    shownChars [0xFF] = shownChars (utf8 "\ufffd") ∧
    (Fault.parse (utf8 "binary") 3 [0xFF] .emptyNumeral).message
      ≠ (Fault.parse (utf8 "binary") 3 (utf8 "\ufffd") .emptyNumeral).message :=
  ⟨by decide, (message_parse_quotes (utf8 "binary") 3 .emptyNumeral).2 (utf8 "\ufffd") [0xFF]
    (by decide) (by decide)⟩

/-- A cut inside a character leaves a stray byte, which is written by its digits. -/
example : quoted (Fault.clip (List.replicate 63 (ascii 'a') ++ utf8 "é"))
    = ascii '"' :: List.replicate 63 (ascii 'a') ++ utf8 "\\xc3...\"" := by
  decide

end Linewise

import Linewise.Proofs.FileLines
import Linewise.Proofs.LineLimit
import Linewise.Proofs.Squeeze

/-!
# Squeezed texts

Squeezing a line takes blanks away and puts spaces in. So of all the bytes that occur in
no blank it keeps each one, in order, and adds none; and the same goes for a text whose
lines are squeezed, since line breaks are blanks too. Binary digits are such bytes, so a
line decodes to the same number before and after it is squeezed. The bytes that a byte
order mark begins with are such bytes as well. This decides what happens to a text that
is squeezed twice: the second time nothing changes, unless the first time has laid bare
a mark, and then the mark is lost.

## Main definitions

* `Solid p`: the bytes with `p` occur in no blank

## Main results

* `filter_squeeze`, `filter_terminated_squeeze`: solid bytes are kept, in a line and in a text
* `decodeLine_squeeze`: squeezing a line first does not change what it decodes to
* `filter_decodeText_ne`: a mark is lost in decoding, and nothing else
* `run_squeeze_twice`: squeezing a text again
-/

namespace Linewise

/-! ## Solid bytes -/

/-- **Bytes that occur in no blank.** -/
def Solid (p : UInt8 → Bool) : Prop :=
  ∀ c : Char, isBlank c.toNat = true → ∀ b ∈ String.utf8EncodeChar c, p b = false

section Solid

variable {p : UInt8 → Bool} (hp : Solid p)

include hp

theorem filter_bytes_of_isBlank {r : Rune} (hr : r.isBlank = true) : r.bytes.filter p = [] := by
  cases r with
  | char c => exact List.filter_eq_nil_iff.mpr fun b hb => by simp [hp c hr b hb]
  | stray b => cases hr

theorem filter_gap {gap : List Rune} (h : ∀ r ∈ gap, r.isBlank = true) :
    (ofRunes gap).filter p = [] := by
  rw [ofRunes, List.filter_flatMap, List.flatMap_eq_nil_iff]
  intro r hr
  exact filter_bytes_of_isBlank hp (h r hr)

theorem filter_spaced_cons (run : List Rune) (runs : List (List Rune)) :
    (ofRunes (spaced (run :: runs))).filter p
      = (ofRunes run).filter p ++ (ofRunes (spaced runs)).filter p := by
  cases runs with
  | nil =>
    rw [spaced_singleton]
    exact (List.append_nil _).symm
  | cons next runs =>
    have hspace : (ofRunes [Rune.space]).filter p = [] :=
      filter_gap hp (List.forall_mem_singleton.mpr rfl)
    rw [spaced_cons_cons, List.append_cons, ofRunes_append, ofRunes_append, List.filter_append,
      List.filter_append, hspace, List.append_nil]

/-- The runs hold all solid bytes, and the spaces between them hold none. -/
theorem Separated.filter_spaced {rs : List Rune} {runs : List (List Rune)}
    (h : Separated rs runs) : (ofRunes (spaced runs)).filter p = (ofRunes rs).filter p := by
  induction h with
  | blank gap hgap => exact (filter_gap hp hgap).symm
  | run gap run rest runs hgap _ _ _ _ ih =>
    rw [filter_spaced_cons hp, ih, ofRunes_append, ofRunes_append, List.filter_append,
      List.filter_append, filter_gap hp hgap, List.nil_append]

/-- **Squeezing a line keeps its solid bytes**, and adds none. -/
theorem filter_squeeze (line : Bytes) : (squeeze line).filter p = line.filter p := by
  obtain ⟨runs, h⟩ := exists_separated (runes line)
  rw [squeeze_of_separated h, h.filter_spaced hp, ofRunes_runes]

theorem filter_terminator (terminator : Terminator) : terminator.bytes.filter p = [] := by
  have hfeed : [Bytes.lineFeed].filter p = [] := filter_bytes_of_isBlank hp (r := .char '\n') rfl
  have hreturn : [Bytes.carriageReturn].filter p = [] :=
    filter_bytes_of_isBlank hp (r := .char '\r') rfl
  cases terminator with
  | lineFeed => exact hfeed
  | carriageReturn => exact hreturn
  | endOfText => rfl
  | returnFeed =>
    rw [Terminator.bytes, ← List.singleton_append, List.filter_append, hfeed, hreturn]
    rfl

/-- **Squeezing the lines of a text keeps its solid bytes**, however the lines end. -/
theorem filter_terminated_squeeze (text : Bytes) :
    (terminated ((lines text).map squeeze)).filter p = text.filter p := by
  have hcut : ∀ cut : Cut, (squeeze cut.line ++ [Bytes.lineFeed]).filter p
      = cut.piece.filter p := by
    intro cut
    rw [Cut.piece, List.filter_append, List.filter_append, filter_squeeze hp,
      filter_terminator hp cut.terminator]
    exact congrArg _ (filter_terminator hp .lineFeed)
  calc (terminated ((lines text).map squeeze)).filter p
      = (cuts text).flatMap fun cut => (squeeze cut.line ++ [Bytes.lineFeed]).filter p := by
        rw [lines_eq_cuts, terminated, List.map_map, List.flatMap_map, List.filter_flatMap]
        rfl
    _ = (cuts text).flatMap fun cut => cut.piece.filter p := by simp only [hcut]
    _ = text.filter p := by rw [← List.filter_flatMap, flatMap_piece_cuts]

end Solid

/-! ## Digits -/

theorem solid_isBinaryDigit : Solid isBinaryDigit := by
  intro c hblank b hb
  by_contra hdigit
  have hcode := toNat_of_isBinaryDigit (Bool.not_eq_false _ ▸ hdigit)
  have hc : c.toNat = b.toNat := toNat_eq_of_mem_utf8EncodeChar hb (by
    rcases hcode with h | h <;> rw [h] <;> decide)
  rw [hc] at hblank
  rcases hcode with h | h
  · rw [h] at hblank
    cases hblank
  · rw [h] at hblank
    cases hblank

/-- **Squeezing a line first does not change what it decodes to**, whatever its bytes are: the
digits are the same ones in the same order, and so is the result, or the failure, which is that
there are none. -/
theorem decodeLine_squeeze (line : Bytes) :
    binaryDigits (squeeze line) = binaryDigits line ∧
      Transform.decodeLine (squeeze line) = Transform.decodeLine line ∧
      ∀ fault, Transform.decodeLine line = .error fault → fault = .emptyNumeral := by
  have hdigits : binaryDigits (squeeze line) = binaryDigits line :=
    filter_squeeze solid_isBinaryDigit line
  refine ⟨hdigits, ?_, ?_⟩
  · rw [Transform.decodeLine, hdigits]
    rfl
  · intro fault hfault
    exact eq_emptyNumeral_of_decodeLine hfault

/-! ## Marks -/

/-- Is the byte above those that spell blanks? Every mark begins with such a byte. -/
def isHigh (b : UInt8) : Bool :=
  0xEF ≤ b

theorem solid_isHigh : Solid isHigh := by
  intro c hblank b hb
  have hcode : c.toNat < 0xE000 := by
    simp [isBlank, isSpace] at hblank
    omega
  have hlow := (toNat_lt_of_mem_utf8EncodeChar hb).2 hcode
  simp only [isHigh, decide_eq_false_iff_not, UInt8.le_iff_toNat_le, Nat.not_le]
  exact hlow

/-- What units decode to is UTF-8, in which two bytes never occur. -/
theorem toNat_lt_of_mem_decodeUnits {order : ByteOrder} {done text : Bytes}
    (hdone : ∀ b ∈ done, b.toNat < 0xFE) :
    ∀ b ∈ (decodeUnits order done text).1, b.toNat < 0xFE := by
  have hmore : ∀ (c : Char) (done : Bytes), (∀ b ∈ done, b.toNat < 0xFE) →
      ∀ b ∈ (String.utf8EncodeChar c).reverse ++ done, b.toNat < 0xFE := by
    intro c done hdone b hb
    rcases List.mem_append.mp hb with hb | hb
    · exact (toNat_lt_of_mem_utf8EncodeChar (List.mem_reverse.mp hb)).1
    · exact hdone b hb
  fun_induction decodeUnits order done text with
  | case1 done | case2 done b | case5 done b₁ b₂ rest hs hr => simpa using hdone
  | case3 done b₁ b₂ hs b₃ b₄ rest ht ih => exact ih (hmore _ done hdone)
  | case4 done b₁ b₂ hs b₃ b₄ rest ht ih => exact ih (hmore _ done hdone)
  | case6 done b₁ b₂ rest hs ih => exact ih (hmore _ done hdone)

theorem toNat_lt_of_mem_decodeUtf16 {order : ByteOrder} {text : Bytes} {b : UInt8}
    (h : b ∈ decodeUtf16 order text) : b.toNat < 0xFE := by
  rcases List.mem_append.mp h with h | h
  · exact toNat_lt_of_mem_decodeUnits (by simp) b h
  · obtain ⟨spelt, hspelt, hb⟩ := List.mem_flatten.mp h
    rw [List.eq_of_mem_replicate hspelt] at hb
    exact (toNat_lt_of_mem_utf8EncodeChar hb).1

/-- **A mark is lost in decoding**, and its first byte is not made up for. -/
theorem filter_decodeText_ne {text : Bytes} (h : ¬ Unmarked text) :
    (decodeText text).filter isHigh ≠ text.filter isHigh := by
  intro heq
  rw [Unmarked, not_and_or, not_not, not_forall] at h
  rcases h with ⟨rest, rfl⟩ | ⟨order, horder⟩
  · have hdecode : decodeText (utf8Mark ++ rest) = rest := rfl
    have hfirst : (utf8Mark ++ rest).filter isHigh = 0xEF :: rest.filter isHigh := rfl
    rw [hdecode, hfirst] at heq
    exact absurd heq.symm (List.cons_ne_self _ _)
  · obtain ⟨rest, rfl⟩ := not_not.mp horder
    have hdecode : decodeText (order.mark ++ rest) = decodeUtf16 order rest := by
      cases order <;> rfl
    have hmark : (0xFF : UInt8) ∈ (order.mark ++ rest).filter isHigh := by
      cases order <;> simp [ByteOrder.mark, isHigh]
    rw [hdecode] at heq
    rw [← heq] at hmark
    exact absurd (toNat_lt_of_mem_decodeUtf16 (List.mem_of_mem_filter hmark)) (by decide)

/-! ## Squeezing twice -/

/-- **Squeezed lines are read back as they are**, and squeezing them again changes nothing. -/
theorem lines_decodeText_squeezed {ls : List Bytes} (h : Unmarked (terminated (ls.map squeeze))) :
    lines (decodeText (terminated (ls.map squeeze))) = ls.map squeeze ∧
      (ls.map squeeze).map squeeze = ls.map squeeze := by
  have hunbroken : ∀ result ∈ ls.map squeeze, Unbroken result := by
    intro result hresult
    obtain ⟨line, -, rfl⟩ := List.mem_map.mp hresult
    exact unbroken_squeeze line
  constructor
  · rw [decodeText_of_unmarked h, lines_terminated hunbroken]
  · rw [List.map_map]
    refine List.map_congr_left fun line _ => ?_
    rw [Function.comp_apply, squeeze, fields_squeeze, ← squeeze]

/-- **A text that comes out of squeezing as it went in has no mark.** -/
theorem unmarked_of_squeezed {text : Bytes}
    (h : terminated ((lines (decodeText text)).map squeeze) = text) : Unmarked text := by
  by_contra hmarked
  apply filter_decodeText_ne hmarked
  rw [← filter_terminated_squeeze solid_isHigh, h]

/-- **Squeezing a text again.** The first run reads and writes every line of the decoded text and
leaves none out. If what it has written begins with no mark, the second run writes the same
again, with the same counters; and if it does begin with one, the second run does not. -/
theorem run_squeeze_twice (onEmpty data : Bytes) (chunk chunk' : Nat) (limit : Int)
    (full : Fault) (hlimit : limit ≤ 0) :
    let L := lines (decodeText data)
    let options : Options := { onEmpty := Policy.ofWord onEmpty, maxLineBytes := limit }
    let first := run Transform.squeeze options { data, chunk } { failure := full }
    let written := first.sink.accepted
    let second := run Transform.squeeze options { data := written, chunk := chunk' }
      { failure := full }
    first.failure = none ∧ first.stats.linesRead = L.length ∧
      first.stats.linesWritten = L.length ∧ first.stats.linesSkipped = 0 ∧
      (Unmarked written →
        second.failure = none ∧ second.sink.accepted = written ∧ second.stats = first.stats) ∧
      (second.sink.accepted = written → Unmarked written) := by
  intro L options first written second
  have hpolicy : options.onEmpty = Policy.ofWord onEmpty := rfl
  have hfirst : first.Squeezes data := run_of_squeeze hpolicy rfl hlimit data chunk full
  have hsecond : second.Squeezes written := run_of_squeeze hpolicy rfl hlimit written chunk' full
  clear_value second first
  have hwritten : written = terminated (L.map squeeze) := hfirst.accepted
  refine ⟨hfirst.failure, ?_, ?_, ?_, ?_, ?_⟩
  · rw [hfirst.stats]
  · rw [hfirst.stats]
  · rw [hfirst.stats]
  · intro hunmarked
    rw [hwritten] at hunmarked hsecond
    obtain ⟨hlines, hagain⟩ := lines_decodeText_squeezed hunmarked
    refine ⟨hsecond.failure, ?_, ?_⟩
    · rw [hsecond.accepted, hlines, hagain, hwritten]
    · rw [hsecond.stats, hfirst.stats, hlines, hagain, List.length_map]
  · intro hsame
    exact unmarked_of_squeezed (hsecond.accepted.symm.trans hsame)

/-- Two lines with blanks to spare, in reads of two bytes and then of three. -/
theorem run_squeeze_twice_blanks :
    let options : Options := { onEmpty := Policy.ofWord [], maxLineBytes := -1 }
    let first := run Transform.squeeze options { data := utf8 " 1 \t0\r\n\u00a0x", chunk := 2 } {}
    let second := run Transform.squeeze options { data := first.sink.accepted, chunk := 3 } {}
    ((-1 : Int) ≤ 0) ∧ Unmarked first.sink.accepted ∧ first.stats.linesWritten = 2 ∧
      second.sink.accepted = utf8 "1 0\nx\n" := by
  have hpolicy : Options.onEmpty { onEmpty := Policy.ofWord [], maxLineBytes := -1 }
      = Policy.ofWord [] := rfl
  have hlimit : (-1 : Int) ≤ 0 := by decide
  have hlines : lines (decodeText (utf8 " 1 \t0\r\n\u00a0x"))
      = [utf8 " 1 \t0", utf8 "\u00a0x"] := by decide
  have hwritten :=
    (run_of_squeeze hpolicy rfl hlimit (utf8 " 1 \t0\r\n\u00a0x") 2 .unstated).accepted
  have hresults : terminated ([utf8 " 1 \t0", utf8 "\u00a0x"].map squeeze)
      = utf8 "1 0\nx\n" := by decide
  rw [hlines, hresults] at hwritten
  have hunmarked : Unmarked (utf8 "1 0\nx\n") := by
    refine ⟨by decide, ?_⟩
    rintro (_ | _) <;> decide
  rw [← hwritten] at hunmarked
  obtain ⟨-, -, hcount, -, hagain, -⟩ :=
    run_squeeze_twice [] (utf8 " 1 \t0\r\n\u00a0x") 2 3 (-1) .unstated hlimit
  rw [hlines] at hcount
  exact ⟨hlimit, hunmarked, hcount, (hagain hunmarked).2.1.trans hwritten⟩

end Linewise

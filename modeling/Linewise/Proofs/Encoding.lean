import Linewise.Proofs.Decoding
import Linewise.Proofs.LineBuffer
import Linewise.Proofs.Run

/-!
# Reads and encodings

A cut between two reads can fall between a carriage return and its line feed, inside a byte
order mark, inside a unit or a pair of units, or where the line buffer is full. None of this
shows in what a run leaves: decoding does not see where a piece ends, and neither does
scanning.

A text of characters can be written in UTF-8 or in UTF-16 of either byte order, behind
the mark that announces which. All three decode to its UTF-8, and all of it is out before
the end of the source: a well-formed text leaves no unit waiting for its partner. Lines
are cut and measured after decoding, so a run cannot tell the three apart, however they
are read. A byte of a unit that looks like a line break plays no role.

## Main definitions

* `Decoder.Reads data text`: the bytes decode to the text, and nothing is kept back

## Main results

* `run_eq_of_chunk`: runs over the same bytes end alike, whatever the size of the reads
* `decodeUnits_encode`, `decodeUnits_flatMap_encode`: UTF-16 of a character, and of a text
* `Decoder.reads_utf8`, `Decoder.reads_utf16`: the marked encodings of a text
* `run_eq_of_encoding`: runs over two encodings of a text end alike
-/

namespace Linewise

/-! ## The size of reads -/

/-- **Sources with the same bytes and the same end scan alike**, however they are read. -/
theorem Source.scan_decode_congr {limit : Limit} (hl : limit ≠ some 0) {source source' : Source}
    (hdata : source.data = source'.data) (hfailure : source.failure = source'.failure) :
    source.decode.scan limit = source'.decode.scan limit := by
  refine Stream.scan_congr hl ?_ ?_ ?_
  · rw [flatten_pieces_decode, flatten_pieces_decode, hdata]
  · rw [last_decode, last_decode, hdata, hfailure]
  · rw [failure_decode, failure_decode, hfailure]

/-- **The size of a read does not show**: whatever the bytes of a source and the way it ends, the
transformation, the policy, the bound on lines, the point where the run is called off and the room
in the sink, two runs that differ in the size of their reads leave the same bytes in the sink, the
same counters, the same failure and the same log. -/
theorem run_eq_of_chunk (transform : Transform) (options : Options) (source : Source)
    (sink : Sink) (chunk₁ chunk₂ : Nat) :
    run transform options { source with chunk := chunk₁ } sink
      = run transform options { source with chunk := chunk₂ } sink := by
  have hscan : (Source.decode { source with chunk := chunk₁ }).scan options.limit
      = (Source.decode { source with chunk := chunk₂ }).scan options.limit :=
    Source.scan_decode_congr options.limit_ne_zero rfl rfl
  rw [run, run, hscan]

/-! ## Units and characters -/

/-- The two bytes of a unit spell it. -/
theorem ByteOrder.exists_bytes (order : ByteOrder) {unit : Nat} (h : unit < 0x10000) :
    ∃ b₁ b₂, order.bytes unit = [b₁, b₂] ∧ order.unit b₁ b₂ = unit := by
  cases order with
  | little =>
    refine ⟨_, _, rfl, ?_⟩
    simp only [ByteOrder.unit, UInt8.toNat_ofNat']
    omega
  | big =>
    refine ⟨_, _, rfl, ?_⟩
    simp only [ByteOrder.unit, UInt8.toNat_ofNat']
    omega

/-- No character has the code of a surrogate. -/
theorem isSurrogate_toNat (c : Char) : isSurrogate c.toNat = false := by
  have hvalid : c.toNat < 0xD800 ∨ 0xDFFF < c.toNat ∧ c.toNat < 0x110000 := c.valid
  simp only [isSurrogate, Bool.and_eq_false_iff, decide_eq_false_iff_not]
  omega

/-- The two halves of a character beyond U+FFFF, and the character they make. -/
theorem pairChar_halves {c : Char} (h : 0x10000 ≤ c.toNat) :
    pairChar (0xD800 + (c.toNat - 0x10000) / 0x400) (0xDC00 + (c.toNat - 0x10000) % 0x400)
      = c := by
  have hvalid : c.toNat < 0xD800 ∨ 0xDFFF < c.toNat ∧ c.toNat < 0x110000 := c.valid
  have hlead : 0xD800 + (c.toNat - 0x10000) / 0x400 < 0xDC00 := by omega
  have hcode : 0x10000 + (0xD800 + (c.toNat - 0x10000) / 0x400 - 0xD800) * 0x400
      + (0xDC00 + (c.toNat - 0x10000) % 0x400 - 0xDC00) = c.toNat := by omega
  rw [pairChar, if_pos hlead, hcode, Char.ofNat_toNat]

/-- **A character in UTF-16 decodes to its UTF-8**, whatever stands before and after it. -/
theorem decodeUnits_encode (order : ByteOrder) (done : Bytes) (c : Char) (rest : Bytes) :
    decodeUnits order done (order.encode c ++ rest)
      = decodeUnits order ((String.utf8EncodeChar c).reverse ++ done) rest := by
  have hvalid : c.toNat < 0xD800 ∨ 0xDFFF < c.toNat ∧ c.toNat < 0x110000 := c.valid
  by_cases hc : c.toNat < 0x10000
  · -- one unit, which is no surrogate
    obtain ⟨b₁, b₂, hbytes, hunit⟩ := order.exists_bytes hc
    have hs : ¬ isSurrogate (order.unit b₁ b₂) = true := by
      rw [hunit, isSurrogate_toNat]
      exact Bool.false_ne_true
    have hstep : decodeUnits order done (b₁ :: b₂ :: rest) = _ := decodeUnits_single hs rest
    rw [hunit, Char.ofNat_toNat] at hstep
    rw [ByteOrder.encode, if_pos hc, hbytes]
    exact hstep
  · -- two units: a leading surrogate and a trailing one
    have hlead : 0xD800 + (c.toNat - 0x10000) / 0x400 < 0x10000 := by omega
    have htrail : 0xDC00 + (c.toNat - 0x10000) % 0x400 < 0x10000 := by omega
    obtain ⟨b₁, b₂, hbytes, hunit⟩ := order.exists_bytes hlead
    obtain ⟨b₃, b₄, hbytes', hunit'⟩ := order.exists_bytes htrail
    have hs : isSurrogate (order.unit b₁ b₂) = true := by
      rw [hunit]
      simp only [isSurrogate, Bool.and_eq_true, decide_eq_true_eq]
      omega
    have ht : isTrailing (order.unit b₃ b₄) = true := by
      rw [hunit']
      simp only [isTrailing, Bool.and_eq_true, decide_eq_true_eq]
      omega
    have hstep : decodeUnits order done (b₁ :: b₂ :: b₃ :: b₄ :: rest) = _ :=
      decodeUnits_pair hs ht rest
    rw [hunit, hunit', pairChar_halves (Nat.le_of_not_lt hc)] at hstep
    rw [ByteOrder.encode, if_neg hc, hbytes, hbytes']
    exact hstep

/-- **A text in UTF-16 decodes to its UTF-8**, and no unit is left over. -/
theorem decodeUnits_flatMap_encode (order : ByteOrder) (done : Bytes) (text : List Char) :
    decodeUnits order done (text.flatMap order.encode) = (done.reverse ++ ofChars text, []) := by
  induction text generalizing done with
  | nil => simp [decodeUnits, ofChars]
  | cons c text ih =>
    rw [List.flatMap_cons, decodeUnits_encode, ih]
    simp [ofChars]

/-- A character beyond U+FFFF takes two units. -/
example : ByteOrder.big.encode (Char.ofNat 0x1F600) = [0xD8, 0x3D, 0xDE, 0x00] := by decide

/-! ## Marked texts -/

namespace Decoder

/-- **The bytes decode to the text**, and all of it is out before the end. -/
structure Reads (data text : Bytes) : Prop where
  /-- The text is out once the bytes have arrived. -/
  arrived : Decoder.arrived data = text
  /-- Nothing is kept back. -/
  finish : (start.feed data).1.finish = []

/-- UTF-8 behind its mark is passed on. -/
theorem reads_utf8 (text : Bytes) : Reads (utf8Mark ++ text) text :=
  ⟨rfl, rfl⟩

/-- The mark of a byte order is found, and what follows it is decoded in that order. -/
theorem settle_mark (order : ByteOrder) (rest : Bytes) :
    settle (order.mark ++ rest)
      = (utf16 order (decodeUnits order [] rest).2, (decodeUnits order [] rest).1) := by
  cases order <;> rfl

/-- A character takes at least two bytes in UTF-16. -/
theorem two_le_length_encode (order : ByteOrder) (c : Char) :
    2 ≤ (order.encode c).length := by
  have hbytes : ∀ unit, (order.bytes unit).length = 2 := by
    intro unit
    cases order <;> rfl
  rw [ByteOrder.encode]
  split
  · exact (hbytes _).ge
  · rw [List.length_append, hbytes, hbytes]
    decide

/-- **UTF-16 behind its mark decodes to UTF-8.** -/
theorem reads_utf16 (order : ByteOrder) (text : List Char) :
    Reads (order.mark ++ text.flatMap order.encode) (ofChars text) := by
  rcases text with _ | ⟨c, text⟩
  · cases order <;> exact ⟨rfl, rfl⟩
  · have hlength : 3 ≤ ([] ++ (order.mark ++ (c :: text).flatMap order.encode)).length := by
      have hmark : order.mark.length = 2 := by cases order <;> rfl
      have hc := two_le_length_encode order c
      simp only [List.nil_append, List.flatMap_cons, List.length_append, hmark]
      omega
    have hfeed : start.feed (order.mark ++ (c :: text).flatMap order.encode)
        = (utf16 order [], ofChars (c :: text)) := by
      rw [start, feed_undecided_of_le hlength, List.nil_append, settle_mark,
        decodeUnits_flatMap_encode]
      rfl
    refine ⟨?_, ?_⟩
    · rw [Decoder.arrived, hfeed]
    · rw [hfeed]
      rfl

end Decoder

/-! ## Runs -/

/-- Sources that decode to the same text, all of it before the end, scan alike. -/
theorem Source.scan_decode_of_reads {limit : Limit} (hl : limit ≠ some 0) {text : Bytes}
    {source source' : Source} (h : Decoder.Reads source.data text)
    (h' : Decoder.Reads source'.data text) (hfailure : source.failure = source'.failure) :
    source.decode.scan limit = source'.decode.scan limit := by
  refine Stream.scan_congr hl ?_ ?_ ?_
  · rw [flatten_pieces_decode, flatten_pieces_decode, h.arrived, h'.arrived]
  · rw [last_decode, last_decode, h.finish, h'.finish, hfailure]
  · rw [failure_decode, failure_decode, hfailure]

/-- **The encoding of a text does not show.** A text of characters, in UTF-16 of either byte order
or in UTF-8, each behind its mark and read in pieces of any size: whatever the transformation, the
policy, the bound on lines, the point where the run is called off and the room in the sink, the
runs leave the same bytes in the sink, the same counters, the same failure and the same log. -/
theorem run_eq_of_encoding (transform : Transform) (options : Options) (sink : Sink)
    (text : List Char) (order : ByteOrder) (chunk₁ chunk₂ : Nat) :
    run transform options
        { data := order.mark ++ text.flatMap order.encode, chunk := chunk₁ } sink
      = run transform options { data := utf8Mark ++ ofChars text, chunk := chunk₂ } sink := by
  have hscan : (Source.decode
      { data := order.mark ++ text.flatMap order.encode, chunk := chunk₁ }).scan options.limit
      = (Source.decode { data := utf8Mark ++ ofChars text, chunk := chunk₂ }).scan
          options.limit :=
    Source.scan_decode_of_reads options.limit_ne_zero (Decoder.reads_utf16 order text)
      (Decoder.reads_utf8 (ofChars text)) rfl
  rw [run, run, hscan]

end Linewise

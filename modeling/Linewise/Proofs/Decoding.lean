import Mathlib.Data.List.TakeDrop
import Linewise.Source

/-!
# Decoding in pieces

A decoder fed two pieces one after the other gives what it gives when it is fed
both at once, so the decoded bytes of a source and what it holds back at the end
depend on its bytes alone. Together they are the decoded text.

## Main definitions

* `Unmarked text`: the text begins with no byte order mark
* `Decoder.arrived data`: the decoded text that is out once some bytes have arrived

## Main results

* `decodeUnits_append`: units decode from the left, and the bytes of an incomplete one are kept
* `decodeText_of_unmarked`: a text without a mark is taken as it is
* `Decoder.feed_append`, `Decoder.feedAll_flatten`: a decoder does not see where its pieces end
* `Source.flatten_reads`: the reads of a source are its bytes
* `Source.contents_decode`, `Source.contents_decode_of_failure`: a source gives its decoded text,
  or what has arrived when it fails
-/

namespace Linewise

/-! ## Units -/

section Units

variable {order : ByteOrder} {done : Bytes} {b₁ b₂ : UInt8}

theorem decodeUnits_single (hs : ¬ isSurrogate (order.unit b₁ b₂) = true) (rest : Bytes) :
    decodeUnits order done (b₁ :: b₂ :: rest)
      = decodeUnits order
          ((String.utf8EncodeChar (Char.ofNat (order.unit b₁ b₂))).reverse ++ done) rest := by
  rw [decodeUnits.eq_def]
  exact if_neg hs

theorem decodeUnits_pair {b₃ b₄ : UInt8} (hs : isSurrogate (order.unit b₁ b₂) = true)
    (ht : isTrailing (order.unit b₃ b₄) = true) (rest : Bytes) :
    decodeUnits order done (b₁ :: b₂ :: b₃ :: b₄ :: rest)
      = decodeUnits order
          ((String.utf8EncodeChar (pairChar (order.unit b₁ b₂) (order.unit b₃ b₄))).reverse
            ++ done) rest := by
  rw [decodeUnits.eq_def]
  exact (if_pos hs).trans (if_pos ht)

theorem decodeUnits_unpaired {b₃ b₄ : UInt8} (hs : isSurrogate (order.unit b₁ b₂) = true)
    (ht : ¬ isTrailing (order.unit b₃ b₄) = true) (rest : Bytes) :
    decodeUnits order done (b₁ :: b₂ :: b₃ :: b₄ :: rest)
      = decodeUnits order ((String.utf8EncodeChar '\ufffd').reverse ++ done)
          (b₃ :: b₄ :: rest) := by
  rw [decodeUnits.eq_def]
  exact (if_pos hs).trans (if_neg ht)

theorem decodeUnits_incomplete {rest : Bytes} (hs : isSurrogate (order.unit b₁ b₂) = true)
    (hr : ∀ (b₃ b₄ : UInt8) (rest' : List UInt8), rest = b₃ :: b₄ :: rest' → False) :
    decodeUnits order done (b₁ :: b₂ :: rest) = (done.reverse, b₁ :: b₂ :: rest) := by
  rw [decodeUnits, if_pos hs]
  exact hr

end Units

/-- What was decoded earlier stands in front, and changes nothing else. -/
theorem decodeUnits_done_append (order : ByteOrder) (done earlier text : Bytes) :
    decodeUnits order (done ++ earlier) text
      = (earlier.reverse ++ (decodeUnits order done text).1, (decodeUnits order done text).2) := by
  fun_induction decodeUnits order done text with
  | case1 done => simp [decodeUnits]
  | case2 done b => simp [decodeUnits]
  | case3 done b₁ b₂ hs b₃ b₄ rest ht ih =>
    rw [← ih, decodeUnits_pair hs ht, List.append_assoc]
  | case4 done b₁ b₂ hs b₃ b₄ rest ht ih =>
    rw [← ih, decodeUnits_unpaired hs ht, List.append_assoc]
  | case5 done b₁ b₂ rest hs hr =>
    rw [decodeUnits_incomplete hs hr]
    simp
  | case6 done b₁ b₂ rest hs ih =>
    rw [← ih, decodeUnits_single hs, List.append_assoc]

/-- **Units decode from the left**: after a first part the decoding goes on with the bytes that
the first part left incomplete. -/
theorem decodeUnits_append (order : ByteOrder) (done text more : Bytes) :
    decodeUnits order done (text ++ more)
      = decodeUnits order (decodeUnits order done text).1.reverse
          ((decodeUnits order done text).2 ++ more) := by
  fun_induction decodeUnits order done text with
  | case1 done => simp
  | case2 done b => simp
  | case3 done b₁ b₂ hs b₃ b₄ rest ht ih =>
    rw [← ih]
    exact decodeUnits_pair hs ht (rest ++ more)
  | case4 done b₁ b₂ hs b₃ b₄ rest ht ih =>
    rw [← ih]
    exact decodeUnits_unpaired hs ht (rest ++ more)
  -- a surrogate waits for the unit after it, and is read again with what follows
  | case5 done b₁ b₂ rest hs hr => simp
  | case6 done b₁ b₂ rest hs ih =>
    rw [← ih]
    exact decodeUnits_single hs (rest ++ more)

/-- The same from the beginning, with the two outputs side by side. -/
theorem decodeUnits_nil_append (order : ByteOrder) (text more : Bytes) :
    decodeUnits order [] (text ++ more)
      = ((decodeUnits order [] text).1
            ++ (decodeUnits order [] ((decodeUnits order [] text).2 ++ more)).1,
          (decodeUnits order [] ((decodeUnits order [] text).2 ++ more)).2) := by
  have h := decodeUnits_done_append order [] (decodeUnits order [] text).1.reverse
    ((decodeUnits order [] text).2 ++ more)
  rw [decodeUnits_append]
  simpa using h

/-! ## Marks -/

@[simp] theorem decodeText_nil : decodeText [] = [] := rfl

namespace Bytes

theorem afterStart?_append {start text : Bytes} (h : start.length ≤ text.length) (more : Bytes) :
    afterStart? start (text ++ more) = (afterStart? start text).map (· ++ more) := by
  induction start generalizing text with
  | nil => rfl
  | cons b start ih =>
    rcases text with _ | ⟨c, text⟩
    · simp at h
    · simp only [List.length_cons, Nat.add_le_add_iff_right] at h
      simp only [List.cons_append, afterStart?]
      split_ifs
      · exact ih h
      · rfl

theorem withoutStart_append {start text : Bytes} (h : start.length ≤ text.length)
    (more : Bytes) : withoutStart start (text ++ more) = withoutStart start text ++ more := by
  rw [withoutStart, withoutStart, afterStart?_append h]
  cases afterStart? start text <;> rfl

theorem afterStart?_eq_none {start text : Bytes} (h : ¬ start <+: text) :
    afterStart? start text = none := by
  induction start generalizing text with
  | nil => exact absurd List.nil_prefix h
  | cons b start ih =>
    rcases text with _ | ⟨c, text⟩
    · rfl
    · rw [afterStart?]
      split_ifs with hb
      · exact ih fun hstart => h (List.cons_prefix_cons.mpr ⟨hb, hstart⟩)
      · rfl

end Bytes

/-- **The text begins with no byte order mark.** -/
def Unmarked (text : Bytes) : Prop :=
  ¬ utf8Mark <+: text ∧ ∀ order : ByteOrder, ¬ order.mark <+: text

theorem decodeText_of_unmarked {text : Bytes} (h : Unmarked text) : decodeText text = text := by
  rw [decodeText, Bytes.afterStart?_eq_none (h.2 .little), Bytes.afterStart?_eq_none (h.2 .big)]
  simp only [Bytes.withoutStart, Bytes.afterStart?_eq_none h.1, Option.getD_none]

/-! ## The decoder -/

namespace Decoder

theorem feed_undecided_of_lt {seen piece : Bytes} (h : (seen ++ piece).length < 3) :
    (undecided seen).feed piece = (undecided (seen ++ piece), []) :=
  if_pos h

theorem feed_undecided_of_le {seen piece : Bytes} (h : 3 ≤ (seen ++ piece).length) :
    (undecided seen).feed piece = settle (seen ++ piece) :=
  if_neg (Nat.not_lt.mpr h)

/-- Once three bytes have settled how a text is encoded, more of it is decoded accordingly. -/
theorem settle_append {text : Bytes} (h : 3 ≤ text.length) (more : Bytes) :
    settle (text ++ more)
      = (((settle text).1.feed more).1, (settle text).2 ++ ((settle text).1.feed more).2) := by
  have hmark : ∀ order : ByteOrder, order.mark.length ≤ text.length := by
    intro order
    cases order <;> exact Nat.le_of_succ_le h
  have hutf8 : utf8Mark.length ≤ text.length := h
  simp only [settle, Bytes.afterStart?_append (hmark _), Bytes.withoutStart_append hutf8]
  cases Bytes.afterStart? ByteOrder.little.mark text with
  | some rest =>
    simp only [Option.map_some, feed]
    rw [decodeUnits_nil_append]
  | none =>
    cases Bytes.afterStart? ByteOrder.big.mark text with
    | some rest =>
      simp only [Option.map_some, Option.map_none, feed]
      rw [decodeUnits_nil_append]
    | none => rfl

/-- **A decoder does not see where a piece ends.** -/
theorem feed_append (decoder : Decoder) (piece more : Bytes) :
    decoder.feed (piece ++ more)
      = (((decoder.feed piece).1.feed more).1,
          (decoder.feed piece).2 ++ ((decoder.feed piece).1.feed more).2) := by
  cases decoder with
  | undecided seen =>
    by_cases h : (seen ++ piece).length < 3
    · rw [feed_undecided_of_lt h]
      simp only [feed, List.append_assoc, List.nil_append]
    · have h₁ : 3 ≤ (seen ++ piece).length := Nat.le_of_not_lt h
      have h₂ : 3 ≤ (seen ++ (piece ++ more)).length := by
        simp only [List.length_append] at h₁ ⊢
        omega
      rw [feed_undecided_of_le h₁, feed_undecided_of_le h₂, ← List.append_assoc]
      exact settle_append h₁ more
  | verbatim => rfl
  | utf16 order pending =>
    simp only [feed, ← List.append_assoc]
    rw [decodeUnits_nil_append]

/-- A decoder that has taken a piece has nothing more to give without another one. -/
theorem feed_nil_of_feed (decoder : Decoder) (piece : Bytes) :
    (decoder.feed piece).1.feed [] = ((decoder.feed piece).1, []) := by
  have h := feed_append decoder piece []
  rw [List.append_nil] at h
  have h₁ := congrArg Prod.fst h
  have h₂ := congrArg Prod.snd h
  refine Prod.ext h₁.symm ?_
  simpa using h₂

theorem start_feed_nil : start.feed [] = (start, []) := rfl

/-- **Feeding pieces one by one is feeding them at once**, for a decoder that waits for its next
piece. -/
theorem feedAll_flatten (done : List Bytes) {decoder : Decoder}
    (hd : decoder.feed [] = (decoder, [])) (pieces : List Bytes) :
    (feedAll done decoder pieces).1.flatten
        = done.reverse.flatten ++ (decoder.feed pieces.flatten).2 ∧
      (feedAll done decoder pieces).2 = (decoder.feed pieces.flatten).1 := by
  induction pieces generalizing done decoder with
  | nil => simp [feedAll, hd]
  | cons piece rest ih =>
    obtain ⟨h₁, h₂⟩ := ih ((decoder.feed piece).2 :: done) (feed_nil_of_feed decoder piece)
    simp only [feedAll, List.flatten_cons, h₁, h₂]
    rw [feed_append]
    simp

/-- The decoded text that is out once these bytes have arrived. -/
def arrived (data : Bytes) : Bytes :=
  (start.feed data).2

@[simp] theorem arrived_nil : arrived [] = [] := rfl

/-- What has arrived stays when more arrives. -/
theorem arrived_append (data more : Bytes) :
    arrived data <+: arrived (data ++ more) := by
  rw [arrived, arrived, feed_append]
  exact List.prefix_append _ _

/-- **At a regular end nothing is missing**: what has arrived and what was kept back are the
decoded text. -/
theorem arrived_append_finish (data : Bytes) :
    arrived data ++ (start.feed data).1.finish = decodeText data := by
  simp only [arrived, start, feed, List.nil_append]
  split_ifs with h
  · rfl
  · simp only [settle, decodeText]
    cases Bytes.afterStart? ByteOrder.little.mark data with
    | some rest => rfl
    | none =>
      cases Bytes.afterStart? ByteOrder.big.mark data with
      | some rest => rfl
      | none => simp [finish]

/-- What a part of the input decodes to is what its decoded text begins with. -/
theorem arrived_take (data : Bytes) (n : Nat) :
    arrived (data.take n) <+: decodeText data := by
  have harrived := arrived_append (data.take n) (data.drop n)
  rw [List.take_append_drop] at harrived
  refine harrived.trans ?_
  rw [← arrived_append_finish]
  exact List.prefix_append _ _

end Decoder

/-! ## Sources -/

namespace Source

theorem flatten_cutLoop (size : Nat) (done : List Bytes) (piece : Bytes) (room : Nat)
    (text : Bytes) :
    (cutLoop size done piece room text).flatten
      = done.reverse.flatten ++ (piece.reverse ++ text) := by
  induction text generalizing done piece room with
  | nil =>
    simp only [cutLoop]
    split_ifs with h
    · simp [List.isEmpty_iff.mp h]
    · simp
  | cons b rest ih =>
    cases room with
    | zero =>
      rw [cutLoop, ih]
      simp
    | succ room =>
      rw [cutLoop, ih]
      simp

/-- **The reads of a source are its bytes**, whatever the size of a read. -/
theorem flatten_reads (source : Source) : source.reads.flatten = source.data := by
  simp [reads, cutEvery, flatten_cutLoop]

/-- The pieces of a decoded source make up what its bytes decode to. -/
theorem flatten_pieces_decode (source : Source) :
    source.decode.pieces.flatten = Decoder.arrived source.data := by
  have h := (Decoder.feedAll_flatten [] Decoder.start_feed_nil source.reads).1
  rw [flatten_reads] at h
  rw [Decoder.arrived]
  simp only [decode]
  cases source.failure <;> simpa using h

/-- What was kept back arrives with a regular end, and is lost with a failure. -/
theorem last_decode (source : Source) :
    source.decode.last
      = if source.failure.isNone then (Decoder.start.feed source.data).1.finish else [] := by
  have h := (Decoder.feedAll_flatten [] Decoder.start_feed_nil source.reads).2
  rw [flatten_reads] at h
  simp only [decode]
  cases source.failure with
  | none => simp [h]
  | some fault => rfl

theorem failure_decode (source : Source) : source.decode.failure = source.failure := by
  simp only [decode]
  cases source.failure <;> rfl

/-- **A source that ends regularly gives its decoded text.** -/
theorem contents_decode {source : Source} (h : source.failure = none) :
    source.decode.contents = decodeText source.data := by
  rw [Stream.contents, flatten_pieces_decode, last_decode, h]
  exact Decoder.arrived_append_finish source.data

/-- **A source that fails gives what has arrived by then.** -/
theorem contents_decode_of_failure {source : Source} {fault : Fault}
    (h : source.failure = some fault) :
    source.decode.contents = Decoder.arrived source.data := by
  rw [Stream.contents, flatten_pieces_decode, last_decode, h]
  exact List.append_nil _

end Source

end Linewise

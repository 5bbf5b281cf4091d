import Linewise.Proofs.Encoding
import Linewise.Proofs.Runes

/-!
# Decoding through two buffers

A source is decoded through two buffers of fixed size. Its bytes are read into the first, behind
those that wait there, and one call of a converter turns as many of them into UTF-8 as there are
complete characters and as the second buffer has room for. A call ends for one of three reasons:
all bytes are used up, the next character does not fit, or it takes more bytes to tell what it is.
What a call made is handed on before the next one, so nothing is lost between them, and what is
still to come out is at every step the decoded text of the bytes that wait and of those that are
not read yet. No buffer that has room for one character can bring the conversion to a halt.

The decoded text itself is simple. Behind a mark of UTF-16 it is valid UTF-8 whatever follows, and
the text that was written if it was written in UTF-16. All else is passed on as it is, without the
mark of UTF-8 if it has one.

## Main definitions

* `Encoding`, `Encoding.announced`: how the bytes behind a mark are taken
* `nextChar?`, `Call`, `Encoding.convert`: one call of a converter
* `Buffers`, `Reading`, `Reading.step`: the sizes, and what happens around one call
* `Buffers.read`: reads a source to its end

## Main results

* `unitsText_of_nextChar?`: the first character of a text, then the others
* `Encoding.convert_sound`, `convertFrom_sound`: one call
* `Reading.text_of_goOn`, `Reading.text_of_over`: one step
* `Buffers.read_eq`: all of them give the decoded stream
* `isValidUtf8_decodeUtf16`: what is decoded from UTF-16 is valid
* `decode_exact`: what reading a source to its end gives
-/

namespace Linewise

/-! ## Characters in UTF-16 -/

section Units

variable {order : ByteOrder} {text : Bytes}

/-- **Decoding goes on behind what is decoded already.** -/
theorem decodeUnits_reverse (order : ByteOrder) (made text : Bytes) :
    decodeUnits order (made.reverse ++ []) text
      = (made ++ (decodeUnits order [] text).1, (decodeUnits order [] text).2) := by
  have h := decodeUnits_done_append order [] made.reverse text
  rwa [List.nil_append, List.reverse_reverse, ← List.append_nil made.reverse] at h

/-- The UTF-8 of units, decoded as far as they are complete. At the end of the text, where
nothing can follow, an incomplete unit counts too. -/
def unitsText (order : ByteOrder) (complete : Bool) (text : Bytes) : Bytes :=
  (decodeUnits order [] text).1
    ++ if complete then decodeEnd (decodeUnits order [] text).2 else []

@[simp] theorem unitsText_nil (order : ByteOrder) (complete : Bool) :
    unitsText order complete [] = [] := by
  cases complete <;> simp [unitsText, decodeUnits, decodeEnd]

/-- **The character that UTF-16 begins with**, and the bytes behind it. There is none in an empty
text, nor in one that may begin with a longer character: if the text has ended, then it does
not. -/
def nextChar? (order : ByteOrder) (ended : Bool) : Bytes → Option (Char × Bytes)
  | [] => none
  | [_] => if ended then some ('\ufffd', []) else none
  | b₁ :: b₂ :: rest =>
    if isSurrogate (order.unit b₁ b₂) then
      match rest with
      | b₃ :: b₄ :: rest' =>
        if isTrailing (order.unit b₃ b₄) then
          some (pairChar (order.unit b₁ b₂) (order.unit b₃ b₄), rest')
        else some ('\ufffd', b₃ :: b₄ :: rest')
      | [b₃] => if ended then some ('\ufffd', [b₃]) else none
      | [] => if ended then some ('\ufffd', []) else none
    else some (Char.ofNat (order.unit b₁ b₂), rest)

variable {ended complete : Bool} {c : Char} {rest : Bytes}

/-- A character takes at least one byte. -/
theorem length_lt_of_nextChar? (h : nextChar? order ended text = some (c, rest)) :
    rest.length < text.length := by
  revert h
  fun_cases nextChar? order ended text <;> simp <;> grind

/-- **The first character, then the others.** What follows the text does not change its first
character, if nothing follows a text that has ended. -/
theorem unitsText_of_nextChar? (h : nextChar? order ended text = some (c, rest)) {more : Bytes}
    (hended : ended = true → complete = true ∧ more = []) :
    unitsText order complete (text ++ more)
      = String.utf8EncodeChar c ++ unitsText order complete (rest ++ more) := by
  revert h
  fun_cases nextChar? order ended text with
  | case1 => simp
  | case2 b hend =>
    rintro h
    cases h
    obtain ⟨rfl, rfl⟩ := hended hend
    simp [unitsText, decodeUnits, decodeEnd]
  | case3 => simp
  | case4 b₁ b₂ hs b₃ b₄ rest ht =>
    rintro h
    cases h
    have hstep : decodeUnits order [] _ = _ := decodeUnits_pair hs ht (rest ++ more)
    rw [decodeUnits_reverse] at hstep
    simp only [unitsText, List.cons_append, hstep, List.append_assoc]
  | case5 b₁ b₂ hs b₃ b₄ rest ht =>
    rintro h
    cases h
    have hstep : decodeUnits order [] _ = _ := decodeUnits_unpaired hs ht (rest ++ more)
    rw [decodeUnits_reverse] at hstep
    simp only [unitsText, List.cons_append, hstep, List.append_assoc]
  -- a surrogate at the end of the text, with an odd byte behind it or without
  | case6 b₁ b₂ hs b₃ hend =>
    rintro h
    cases h
    obtain ⟨rfl, rfl⟩ := hended hend
    have hstep : decodeUnits order [] [b₁, b₂, b₃] = _ := decodeUnits_incomplete hs (by simp)
    simp [unitsText, hstep, decodeUnits, decodeEnd, List.replicate_succ]
  | case8 b₁ b₂ hs hend =>
    rintro h
    cases h
    obtain ⟨rfl, rfl⟩ := hended hend
    have hstep : decodeUnits order [] [b₁, b₂] = _ := decodeUnits_incomplete hs (by simp)
    simp [unitsText, hstep, decodeUnits, decodeEnd]
  | case7 | case9 => simp
  | case10 b₁ b₂ rest hs =>
    rintro h
    cases h
    have hstep : decodeUnits order [] _ = _ := decodeUnits_single hs (rest ++ more)
    rw [decodeUnits_reverse] at hstep
    simp only [unitsText, List.cons_append, hstep, List.append_assoc]

/-- **Without a next character** nothing is left, or at most three bytes wait for more. -/
theorem waiting_of_nextChar? (h : nextChar? order ended text = none) :
    text = [] ∨ ended = false ∧ text.length ≤ 3 ∧ unitsText order false text = [] := by
  revert h
  fun_cases nextChar? order ended text with
  | case1 => simp
  | case2 => simp
  | case3 b hend =>
    intro _
    exact .inr ⟨by simpa using hend, by simp, by simp [unitsText, decodeUnits]⟩
  | case7 b₁ b₂ hs b₃ hend =>
    intro _
    have hstep : decodeUnits order [] [b₁, b₂, b₃] = _ := decodeUnits_incomplete hs (by simp)
    exact .inr ⟨by simpa using hend, by simp, by simp [unitsText, hstep]⟩
  | case9 b₁ b₂ hs hend =>
    intro _
    have hstep : decodeUnits order [] [b₁, b₂] = _ := decodeUnits_incomplete hs (by simp)
    exact .inr ⟨by simpa using hend, by simp, by simp [unitsText, hstep]⟩
  | case4 | case5 | case6 | case8 | case10 => simp

end Units

/-! ## One call of a converter -/

/-- **Why a call of a converter ends.** -/
inductive Halt where
  /-- All bytes are used up. -/
  | done
  /-- There is no room for the next character. -/
  | noRoom
  /-- It takes more bytes to tell the next character. -/
  | tooShort
deriving DecidableEq, Repr

/-- The failure of a call that ends before all bytes are used up and cannot be continued. -/
def Halt.fault? : Halt → Option Fault
  | done => none
  | noRoom => some (.other (utf8 "transform: short destination buffer"))
  | tooShort => some (.other (utf8 "transform: short source buffer"))

/-- **What one call of a converter comes to.** -/
structure Call where
  /-- The UTF-8 it made. -/
  made : Bytes
  /-- The bytes it did not use. -/
  rest : Bytes
  /-- Why it ended. -/
  halt : Halt

/-- Converts units as long as there is room for the next character. -/
def convertUnits (order : ByteOrder) (ended : Bool) (room : Nat) (text : Bytes) : Call :=
  match _hnext : nextChar? order ended text with
  | none => ⟨[], text, if text.isEmpty then .done else .tooShort⟩
  | some (c, rest) =>
    if room < (String.utf8EncodeChar c).length then ⟨[], text, .noRoom⟩
    else
      let others := convertUnits order ended (room - (String.utf8EncodeChar c).length) rest
      { others with made := String.utf8EncodeChar c ++ others.made }
termination_by text.length
decreasing_by exact length_lt_of_nextChar? (by assumption)

/-- **How the bytes behind a mark are taken.** -/
inductive Encoding where
  /-- They are passed on as they are. -/
  | verbatim
  /-- They are UTF-16 in a byte order. -/
  | utf16 (order : ByteOrder)
deriving DecidableEq, Repr

namespace Encoding

/-- The encoding that a text announces, and the bytes behind its mark. -/
def announced (text : Bytes) : Encoding × Bytes :=
  match Bytes.afterStart? ByteOrder.little.mark text with
  | some rest => (utf16 .little, rest)
  | none =>
    match Bytes.afterStart? ByteOrder.big.mark text with
    | some rest => (utf16 .big, rest)
    | none => (verbatim, Bytes.withoutStart utf8Mark text)

/-- **One call of a converter** with `room` for what it makes. -/
def convert (ended : Bool) (room : Nat) : Encoding → Bytes → Call
  | verbatim, text =>
    ⟨text.take room, text.drop room, if room < text.length then .noRoom else .done⟩
  | utf16 order, text => convertUnits order ended room text

/-- What bytes come to in UTF-8: all of them if the text is complete with them, and else as far
as its characters are. -/
def decoded (complete : Bool) : Encoding → Bytes → Bytes
  | verbatim, text => text
  | utf16 order, text => unitsText order complete text

end Encoding

/-- **One call for a text whose encoding may be open.** Three bytes settle it, or the end of the
text. -/
def convertFrom (ended : Bool) (room : Nat) : Option Encoding → Bytes → Option Encoding × Call
  | some encoding, text => (some encoding, encoding.convert ended room text)
  | none, text =>
    if text.length < 3 ∧ ended = false then (none, ⟨[], text, .tooShort⟩)
    else
      (some (Encoding.announced text).1,
        (Encoding.announced text).1.convert ended room (Encoding.announced text).2)

/-- What bytes come to in UTF-8 where the encoding may be open. -/
def textFrom (complete : Bool) : Option Encoding → Bytes → Bytes
  | some encoding, text => encoding.decoded complete text
  | none, text =>
    if text.length < 3 ∧ complete = false then []
    else (Encoding.announced text).1.decoded complete (Encoding.announced text).2

/-- **What a call has to keep to.** The text is what it made and what the bytes it left come to,
whatever follows them. -/
structure Call.Sound (call : Call) (before after : Option Encoding) (ended complete : Bool)
    (room : Nat) (text : Bytes) : Prop where
  /-- No text is lost or made twice. -/
  kept : ∀ more : Bytes, (ended = true → complete = true ∧ more = []) →
    textFrom complete before (text ++ more)
      = call.made ++ textFrom complete after (call.rest ++ more)
  /-- What is made fits. -/
  fits : call.made.length ≤ room
  /-- No bytes come back. -/
  shrinks : call.rest.length ≤ text.length
  /-- With room for one character a call gets somewhere. -/
  advances : call.halt = .noRoom → 4 ≤ room → call.rest.length < text.length
  /-- A call that is done leaves nothing, and knows the encoding. -/
  done : call.halt = .done → call.rest = [] ∧ textFrom complete after [] = []
  /-- A call that waits for more bytes waits for less than a character. -/
  waits : call.halt = .tooShort →
    ended = false ∧ call.rest.length ≤ 3 ∧ textFrom false after call.rest = []

theorem length_utf8EncodeChar_le (c : Char) : (String.utf8EncodeChar c).length ≤ 4 := by
  rw [String.length_utf8EncodeChar]
  exact Char.utf8Size_le_four c

/-- **Units are converted soundly**: by induction, one character after the other. -/
theorem convertUnits_sound (order : ByteOrder) (ended complete : Bool) (room : Nat)
    (text : Bytes) :
    (convertUnits order ended room text).Sound (some (.utf16 order)) (some (.utf16 order)) ended
      complete room text := by
  fun_induction convertUnits order ended room text with
  | case1 room text hnext =>
    refine ⟨fun more _ => rfl, Nat.zero_le _, le_rfl, ?_, ?_, ?_⟩
    · intro hhalt
      split_ifs at hhalt
    · intro hhalt
      split_ifs at hhalt with htext
      exact ⟨List.isEmpty_iff.mp htext, unitsText_nil order complete⟩
    · intro hhalt
      split_ifs at hhalt with htext
      rcases waiting_of_nextChar? hnext with rfl | hwaiting
      · exact absurd rfl htext
      · exact hwaiting
  | case2 room text c rest hnext hroom =>
    refine ⟨fun more _ => rfl, Nat.zero_le _, le_rfl, ?_, nofun, nofun⟩
    intro _ hfour
    have := length_utf8EncodeChar_le c
    omega
  | case3 room text c rest hnext hroom others ih =>
    have hlength := length_lt_of_nextChar? hnext
    refine ⟨?_, ?_, ih.shrinks.trans hlength.le, ?_, ih.done, ih.waits⟩
    · intro more hended
      have hfirst := unitsText_of_nextChar? hnext hended
      have hothers : unitsText order complete (rest ++ more) = _ := ih.kept more hended
      rw [hothers, ← List.append_assoc] at hfirst
      exact hfirst
    · have hmade : others.made.length ≤ room - (String.utf8EncodeChar c).length := ih.fits
      rw [List.length_append]
      omega
    · intro _ _
      exact ih.shrinks.trans_lt hlength

/-- **Every call is sound.** -/
theorem Encoding.convert_sound (encoding : Encoding) (ended complete : Bool) (room : Nat)
    (text : Bytes) :
    (encoding.convert ended room text).Sound (some encoding) (some encoding) ended complete room
      text := by
  cases encoding with
  | verbatim =>
    refine ⟨?_, List.length_take_le room text, ?_, ?_, ?_, ?_⟩
    · intro more _
      simp only [convert, textFrom, decoded, ← List.append_assoc, List.take_append_drop]
    · exact (List.drop_sublist room text).length_le
    · intro hhalt hroom
      simp only [convert, List.length_drop] at hhalt ⊢
      split_ifs at hhalt
      omega
    · intro hhalt
      simp only [convert] at hhalt
      split_ifs at hhalt with hlength
      exact ⟨List.drop_eq_nil_of_le (Nat.le_of_not_lt hlength), rfl⟩
    · intro hhalt
      simp only [convert] at hhalt
      split_ifs at hhalt
  | utf16 order => exact convertUnits_sound order ended complete room text

/-! ### The start of a text -/

/-- Three bytes settle the encoding of a text. -/
theorem Encoding.announced_append {text : Bytes} (h : 3 ≤ text.length) (more : Bytes) :
    announced (text ++ more) = ((announced text).1, (announced text).2 ++ more) := by
  have hmark : ∀ order : ByteOrder, order.mark.length ≤ text.length := by
    intro order
    cases order <;> exact Nat.le_of_succ_le h
  have hutf8 : utf8Mark.length ≤ text.length := h
  simp only [announced, Bytes.afterStart?_append (hmark _), Bytes.withoutStart_append hutf8]
  cases Bytes.afterStart? ByteOrder.little.mark text with
  | some rest => rfl
  | none => cases Bytes.afterStart? ByteOrder.big.mark text <;> rfl

theorem Bytes.length_of_afterStart? {start text rest : Bytes}
    (h : afterStart? start text = some rest) : rest.length ≤ text.length := by
  induction start generalizing text with
  | nil =>
    cases h
    exact le_rfl
  | cons b start ih =>
    rcases text with _ | ⟨c, text⟩
    · cases h
    · simp only [afterStart?] at h
      split_ifs at h
      exact (ih h).trans (Nat.le_succ _)

theorem Encoding.length_announced_le (text : Bytes) : (announced text).2.length ≤ text.length := by
  simp only [announced]
  cases hlittle : Bytes.afterStart? ByteOrder.little.mark text with
  | some rest => exact Bytes.length_of_afterStart? hlittle
  | none =>
    cases hbig : Bytes.afterStart? ByteOrder.big.mark text with
    | some rest => exact Bytes.length_of_afterStart? hbig
    | none =>
      simp only [Bytes.withoutStart]
      cases hutf8 : Bytes.afterStart? utf8Mark text with
      | some rest => exact Bytes.length_of_afterStart? hutf8
      | none => exact le_rfl

/-- **A call is sound whether or not the encoding is settled.** -/
theorem convertFrom_sound (encoding : Option Encoding) (ended complete : Bool) (room : Nat)
    (text : Bytes) :
    (convertFrom ended room encoding text).2.Sound encoding
      (convertFrom ended room encoding text).1 ended complete room text := by
  cases encoding with
  | some encoding => exact encoding.convert_sound ended complete room text
  | none =>
    simp only [convertFrom]
    split_ifs with hopen
    · refine ⟨fun more _ => rfl, Nat.zero_le _, le_rfl, nofun, nofun, fun _ => ?_⟩
      exact ⟨hopen.2, Nat.le_of_lt hopen.1, if_pos ⟨hopen.1, rfl⟩⟩
    · have hsound := (Encoding.announced text).1.convert_sound ended complete room
        (Encoding.announced text).2
      have hlength := Encoding.length_announced_le text
      refine ⟨?_, hsound.fits, hsound.shrinks.trans hlength, ?_, hsound.done, hsound.waits⟩
      · intro more hended
        rw [← hsound.kept more hended]
        cases ended with
        | true =>
          obtain ⟨rfl, rfl⟩ := hended rfl
          simp [textFrom]
        | false =>
          have hthree : 3 ≤ text.length := by
            by_contra hlt
            exact hopen ⟨Nat.lt_of_not_le hlt, rfl⟩
          have hsettled : ¬ ((text ++ more).length < 3 ∧ complete = false) := by
            rw [List.length_append]
            omega
          simp only [textFrom, if_neg hsettled, Encoding.announced_append hthree]
      · intro hhalt hroom
        exact (hsound.advances hhalt hroom).trans_le hlength

/-! ## Reading to the end -/

/-- **The sizes of the two buffers**, each with room for any character. -/
structure Buffers where
  /-- How many bytes of the source are held at most. -/
  source : Nat
  /-- How many bytes one call makes at most. -/
  target : Nat
  /-- A character has at most four bytes in UTF-16. -/
  source_large : 4 ≤ source
  /-- A character has at most four bytes in UTF-8. -/
  target_large : 4 ≤ target

/-- **How far the reading of a source has come.** -/
structure Reading (buffers : Buffers) where
  /-- The encoding, once it is settled. -/
  encoding : Option Encoding
  /-- The bytes that wait in the first buffer. -/
  held : Bytes
  /-- The bytes that are not read yet. -/
  left : Bytes
  /-- Has the end of the source been found? -/
  ended : Bool
  fits : held.length ≤ buffers.source
  left_eq_nil : ended = true → left = []

/-- **What one step leads to.** -/
inductive Progress (buffers : Buffers) where
  /-- To another step. -/
  | goOn (reading : Reading buffers)
  /-- To the end, which may be a failure. -/
  | over (failure : Option Fault)

namespace Reading

variable {buffers : Buffers} {most : Nat → Nat} {failure : Option Fault}

/-- Before the first byte. -/
def start (buffers : Buffers) (data : Bytes) : Reading buffers where
  encoding := none
  held := []
  left := data
  ended := false
  fits := Nat.zero_le _
  left_eq_nil := nofun

/-- The call that comes next. The converter learns of a regular end only. -/
def call (failure : Option Fault) (reading : Reading buffers) : Option Encoding × Call :=
  convertFrom (reading.ended && failure.isNone) buffers.target reading.encoding reading.held

theorem call_sound (failure : Option Fault) (reading : Reading buffers) :
    (reading.call failure).2.Sound reading.encoding (reading.call failure).1
      (reading.ended && failure.isNone) failure.isNone buffers.target reading.held :=
  convertFrom_sound _ _ _ _ _

/-- What is left after the call. -/
def converted (failure : Option Fault) (reading : Reading buffers) : Reading buffers :=
  { reading with
    encoding := (reading.call failure).1
    held := (reading.call failure).2.rest
    fits := (reading.call_sound failure).shrinks.trans reading.fits }

/-- Reads once more. `most` says how many bytes a read delivers at most, by the number of those
that are left; it delivers one at least, and as many as there is room for at most. The end of the
source is found by a read of its own. -/
def refill (most : Nat → Nat) (reading : Reading buffers) : Reading buffers :=
  if hleft : reading.left = [] then
    { reading with
      ended := true
      left_eq_nil := fun _ => hleft }
  else
    let n := min (max 1 (most reading.left.length)) (buffers.source - reading.held.length)
    { reading with
      held := reading.held ++ reading.left.take n
      left := reading.left.drop n
      fits := by
        have := reading.fits
        rw [List.length_append, List.length_take]
        omega
      left_eq_nil := fun hended => absurd (reading.left_eq_nil hended) hleft }

/-- How reading ends with a call that is not continued; a failure of the source comes first. -/
def outcome (failure : Option Fault) (halt : Halt) (reading : Reading buffers) : Option Fault :=
  (if reading.ended then failure else none) <|> halt.fault?

/-- **One step**: a call, and then another read unless the call was short of room. -/
def step (most : Nat → Nat) (failure : Option Fault) (reading : Reading buffers) :
    Progress buffers :=
  match (reading.call failure).2.halt with
  | .done =>
    if reading.ended then .over (reading.outcome failure .done)
    else .goOn ((reading.converted failure).refill most)
  | .noRoom =>
    if (reading.call failure).2.rest.length < reading.held.length then
      .goOn (reading.converted failure)
    else .over (reading.outcome failure .noRoom)
  | .tooShort =>
    if reading.ended = false ∧ (reading.call failure).2.rest.length < buffers.source then
      .goOn ((reading.converted failure).refill most)
    else .over (reading.outcome failure .tooShort)

/-- What is still to come out. -/
def text (failure : Option Fault) (reading : Reading buffers) : Bytes :=
  textFrom failure.isNone reading.encoding (reading.held ++ reading.left)

/-- What is still to be done: a byte is read and then used, and the end is found. -/
def work (reading : Reading buffers) : Nat :=
  2 * reading.left.length + reading.held.length + if reading.ended then 0 else 1

/-! ### One step -/

variable {reading next : Reading buffers}

theorem text_refill (most : Nat → Nat) (failure : Option Fault) (reading : Reading buffers) :
    (reading.refill most).text failure = reading.text failure := by
  unfold refill
  split_ifs
  · rfl
  · simp only [text, List.append_assoc, List.take_append_drop]

theorem work_refill (h : reading.ended = false) (hroom : reading.held.length < buffers.source) :
    (reading.refill most).work < reading.work := by
  unfold refill
  split_ifs with hleft
  · simp [work, h]
  · have := List.length_pos_of_ne_nil hleft
    simp only [work, h, List.length_append, List.length_take, List.length_drop]
    omega

theorem work_converted_le (failure : Option Fault) (reading : Reading buffers) :
    (reading.converted failure).work ≤ reading.work := by
  have hshrinks := (reading.call_sound failure).shrinks
  exact Nat.add_le_add_right (Nat.add_le_add_left hshrinks _) _

/-- **A call takes what it makes off the text.** -/
theorem text_converted (failure : Option Fault) (reading : Reading buffers) :
    reading.text failure
      = (reading.call failure).2.made ++ (reading.converted failure).text failure := by
  apply (reading.call_sound failure).kept
  intro hended
  rw [Bool.and_eq_true] at hended
  exact ⟨hended.2, reading.left_eq_nil hended.1⟩

/-- A step that leads on leads to the reading behind its call, perhaps with more bytes. -/
theorem eq_of_goOn (h : reading.step most failure = .goOn next) :
    next = reading.converted failure ∧
        (reading.converted failure).held.length < reading.held.length ∨
      next = (reading.converted failure).refill most ∧ reading.ended = false ∧
        (reading.converted failure).held.length < buffers.source := by
  have hsound := reading.call_sound failure
  have hlarge := buffers.source_large
  simp only [step] at h
  split at h
  next hhalt =>
    split_ifs at h with hended
    cases h
    refine .inr ⟨rfl, by simpa using hended, ?_⟩
    simp only [converted, (hsound.done hhalt).1, List.length_nil]
    omega
  next =>
    split_ifs at h with hadvanced
    cases h
    exact .inl ⟨rfl, hadvanced⟩
  next =>
    split_ifs at h with hshort
    cases h
    exact .inr ⟨rfl, hshort⟩

theorem text_of_goOn (h : reading.step most failure = .goOn next) :
    reading.text failure = (reading.call failure).2.made ++ next.text failure := by
  rcases eq_of_goOn h with ⟨rfl, -⟩ | ⟨rfl, -⟩
  · exact reading.text_converted failure
  · rw [text_refill]
    exact reading.text_converted failure

/-- **Every step gets somewhere.** -/
theorem work_of_goOn (h : reading.step most failure = .goOn next) : next.work < reading.work := by
  rcases eq_of_goOn h with ⟨rfl, hlt⟩ | ⟨rfl, hended, hroom⟩
  · have hleft : (reading.converted failure).left = reading.left := rfl
    have hended : (reading.converted failure).ended = reading.ended := rfl
    simp only [work, hleft, hended]
    omega
  · have hended : (reading.converted failure).ended = false := hended
    exact (work_refill hended hroom).trans_le (reading.work_converted_le failure)

/-- **A step that ends the reading has made all that was to come**, and the only failure is that
of the source: neither buffer is ever too small. -/
theorem text_of_over {result : Option Fault} (h : reading.step most failure = .over result) :
    reading.text failure = (reading.call failure).2.made ∧ result = failure := by
  have hsound := reading.call_sound failure
  have hlarge := buffers.source_large
  have htext := reading.text_converted failure
  simp only [step] at h
  split at h
  next hhalt =>
    split_ifs at h with hended
    cases h
    obtain ⟨hrest, hnothing⟩ := hsound.done hhalt
    simp only [text, converted, hrest, reading.left_eq_nil hended, List.append_nil] at htext ⊢
    refine ⟨by rw [htext, hnothing, List.append_nil], ?_⟩
    cases failure <;> simp [outcome, hended, Halt.fault?]
  next hhalt =>
    split_ifs at h with hadvanced
    exact absurd (hsound.advances hhalt buffers.target_large) hadvanced
  next hhalt =>
    split_ifs at h with hshort
    cases h
    obtain ⟨hopen, hlength, hnothing⟩ := hsound.waits hhalt
    have hended : reading.ended = true := by
      by_contra hended
      exact hshort ⟨by simpa using hended, by omega⟩
    have hfailed : failure.isNone = false := by simpa [hended] using hopen
    simp only [text, converted, reading.left_eq_nil hended, List.append_nil, hfailed] at htext ⊢
    refine ⟨by rw [htext, hnothing, List.append_nil], ?_⟩
    cases failure with
    | none => cases hfailed
    | some fault => simp [outcome, hended]

/-! ### All steps -/

/-- **Reads to the end**, and gives all that was made and the failure, if there is one. -/
def run (most : Nat → Nat) (failure : Option Fault) (reading : Reading buffers) :
    Bytes × Option Fault :=
  match _hstep : reading.step most failure with
  | .goOn next =>
    let others := next.run most failure
    ((reading.call failure).2.made ++ others.1, others.2)
  | .over result => ((reading.call failure).2.made, result)
termination_by reading.work
decreasing_by exact work_of_goOn (by assumption)

/-- **All that is still to come out comes out.** -/
theorem run_eq (most : Nat → Nat) (failure : Option Fault) (reading : Reading buffers) :
    reading.run most failure = (reading.text failure, failure) := by
  fun_induction reading.run most failure with
  | case1 reading next hstep others ih =>
    rw [text_of_goOn hstep]
    simp only [others, ih]
  | case2 reading result hstep =>
    obtain ⟨htext, rfl⟩ := text_of_over hstep
    rw [htext]

end Reading

/-- **Reads a source through two buffers.** -/
def Buffers.read (buffers : Buffers) (most : Nat → Nat) (source : Source) : Bytes × Option Fault :=
  (Reading.start buffers source.data).run most source.failure

/-- The decoded text is what the bytes behind the mark come to. -/
theorem decodeText_eq (text : Bytes) :
    decodeText text
      = (Encoding.announced text).1.decoded true (Encoding.announced text).2 := by
  simp only [decodeText, Encoding.announced]
  cases Bytes.afterStart? ByteOrder.little.mark text with
  | some rest => rfl
  | none => cases Bytes.afterStart? ByteOrder.big.mark text <;> rfl

theorem Decoder.settle_eq (text : Bytes) :
    (settle text).2
      = (Encoding.announced text).1.decoded false (Encoding.announced text).2 := by
  simp only [settle, Encoding.announced]
  cases Bytes.afterStart? ByteOrder.little.mark text with
  | some rest => exact (List.append_nil _).symm
  | none =>
    cases Bytes.afterStart? ByteOrder.big.mark text with
    | some rest => exact (List.append_nil _).symm
    | none => rfl

/-- **From the start** all bytes come to their decoded text, or to what has arrived of it. -/
theorem textFrom_none (complete : Bool) (text : Bytes) :
    textFrom complete none text = if complete then decodeText text else Decoder.arrived text := by
  cases complete with
  | true => simp [textFrom, decodeText_eq]
  | false =>
    by_cases hopen : text.length < 3
    · simp [textFrom, hopen, Decoder.arrived, Decoder.start, Decoder.feed]
    · simp [textFrom, hopen, Decoder.arrived, Decoder.start, Decoder.feed, Decoder.settle_eq]

/-- **Neither the buffers nor the reads show**: a source read through them gives its decoded
stream, and fails where the source does. -/
theorem Buffers.read_eq (buffers : Buffers) (most : Nat → Nat) (source : Source) :
    buffers.read most source = (source.decode.contents, source.decode.failure) := by
  have htext : (Reading.start buffers source.data).text source.failure
      = textFrom source.failure.isNone none source.data := rfl
  rw [Buffers.read, Reading.run_eq, htext, textFrom_none, Source.failure_decode]
  cases hfailure : source.failure with
  | none => rw [Source.contents_decode hfailure]; rfl
  | some fault => rw [Source.contents_decode_of_failure hfailure]; rfl

/-! ## The decoded text -/

/-- What is decoded from UTF-16 is spelt by characters. -/
theorem exists_decodeUtf16_eq_ofChars (order : ByteOrder) (text : Bytes) :
    ∃ cs : List Char, decodeUtf16 order text = ofChars cs := by
  induction hlength : text.length using Nat.strong_induction_on generalizing text with
  | _ n ih =>
    cases hnext : nextChar? order true text with
    | none =>
      rcases waiting_of_nextChar? hnext with rfl | ⟨hended, -⟩
      · exact ⟨[], unitsText_nil order true⟩
      · cases hended
    | some next =>
      obtain ⟨c, rest⟩ := next
      obtain ⟨cs, hcs⟩ := ih rest.length (hlength ▸ length_lt_of_nextChar? hnext) rest rfl
      have hfirst : unitsText order true (text ++ []) = _ :=
        unitsText_of_nextChar? hnext fun _ => ⟨rfl, rfl⟩
      rw [List.append_nil, List.append_nil] at hfirst
      refine ⟨c :: cs, hfirst.trans ?_⟩
      have hrest : unitsText order true rest = ofChars cs := hcs
      rw [hrest]
      rfl

/-- **What is decoded from UTF-16 is valid UTF-8**, well formed or not as the units are. -/
theorem isValidUtf8_decodeUtf16 (order : ByteOrder) (text : Bytes) :
    isValidUtf8 (decodeUtf16 order text) = true := by
  obtain ⟨cs, hcs⟩ := exists_decodeUtf16_eq_ofChars order text
  rw [hcs]
  exact isValidUtf8_ofChars cs

theorem decodeText_mark (order : ByteOrder) (rest : Bytes) :
    decodeText (order.mark ++ rest) = decodeUtf16 order rest := by
  cases order <;> rfl

theorem decodeText_utf8Mark (rest : Bytes) : decodeText (utf8Mark ++ rest) = rest := rfl

/-- Text that is written in UTF-16 is read back. -/
theorem decodeUtf16_encode (order : ByteOrder) (text : List Char) :
    decodeUtf16 order (text.flatMap order.encode) = ofChars text := by
  rw [decodeUtf16, decodeUnits_flatMap_encode]
  simp [decodeEnd]

/-- **Decoding is exact**, whatever the bytes and however they are read. Behind the mark of UTF-8
everything is passed on as it is, another mark included. Behind a mark of UTF-16 the outcome is
valid UTF-8, and it is the text itself if a text was written there in that byte order. Without a
mark all bytes are passed on, be they valid or not and however few. No source that ends regularly
fails, and two buffers of any size that have room for a character give the same, whatever each
read delivers. -/
theorem decode_exact (chunk : Nat) :
    let stream (data : Bytes) : Stream := Source.decode { data, chunk }
    (∀ rest : Bytes, (stream (utf8Mark ++ rest)).contents = rest) ∧
    (∀ (order : ByteOrder) (rest : Bytes),
      isValidUtf8 (stream (order.mark ++ rest)).contents = true) ∧
    (∀ (order : ByteOrder) (text : List Char),
      (stream (order.mark ++ text.flatMap order.encode)).contents = ofChars text) ∧
    (∀ data : Bytes, Unmarked data → (stream data).contents = data) ∧
    ∀ data : Bytes, (stream data).failure = none ∧
      ∀ (buffers : Buffers) (most : Nat → Nat),
        buffers.read most { data, chunk } = ((stream data).contents, none) := by
  intro stream
  have hcontents : ∀ data : Bytes, (stream data).contents = decodeText data :=
    fun data => Source.contents_decode rfl
  have hfailure : ∀ data : Bytes, (stream data).failure = none :=
    fun data => Source.failure_decode _
  refine ⟨?_, ?_, ?_, ?_, ?_⟩
  · intro rest
    rw [hcontents, decodeText_utf8Mark]
  · intro order rest
    rw [hcontents, decodeText_mark]
    exact isValidUtf8_decodeUtf16 order rest
  · intro order text
    rw [hcontents, decodeText_mark, decodeUtf16_encode]
  · intro data hdata
    rw [hcontents, decodeText_of_unmarked hdata]
  · intro data
    refine ⟨hfailure data, fun buffers most => ?_⟩
    exact (buffers.read_eq most _).trans (congrArg (Prod.mk _) (hfailure data))

/-- The first two bytes of a mark are passed on when nothing follows them; and a pair of surrogates
that comes byte by byte is put together in buffers that hold no more than it takes. -/
theorem decode_exact_pieces :
    Unmarked [0xEF, 0xBB] ∧
      (Source.decode { data := [0xEF, 0xBB], chunk := 1 }).contents = [0xEF, 0xBB] ∧
      Buffers.read ⟨4, 4, le_rfl, le_rfl⟩ (fun _ => 1)
          { data := ByteOrder.little.mark ++ [0x3D, 0xD8, 0x00, 0xDE, 0x0A, 0x00], chunk := 1 }
        = (ofChars [Char.ofNat 0x1F600, '\n'], none) := by
  have hunmarked : Unmarked [0xEF, 0xBB] := ⟨by decide, by rintro (_ | _) <;> decide⟩
  obtain ⟨-, -, htext, hplain, hread⟩ := decode_exact 1
  refine ⟨hunmarked, hplain _ hunmarked, ((hread _).2 _ _).trans ?_⟩
  exact congrArg (·, none) (htext .little [Char.ofNat 0x1F600, '\n'])

end Linewise

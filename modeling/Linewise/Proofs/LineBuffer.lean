import Linewise.LineBuffer
import Linewise.Proofs.Lines

/-!
# Scanning in pieces

A line buffer that takes the pieces of a stream one after the other finds the lines
that draining the whole text finds, and it overflows where the whole text does. So
a scan depends on the bytes of a stream, on what comes with its end and on how it
ends, but not on where its pieces end. Without a bound the scan gives the lines of
the text.

## Main definitions

* `Drained.after found`: lines drained after others were found
* `LineBuffer.Follows limit text`: the buffer is as far as the text

## Main results

* `drain_append`, `drain_append_of_overflow`: draining goes on where it stopped
* `LineBuffer.Follows.feed`, `LineBuffer.follows_foldl`: one piece, and all of them
* `Stream.scan_eq`, `Stream.scan_congr`: a scan through the draining of the whole text
* `Stream.scan_none`: without a bound, a scan gives the lines of the text
-/

namespace Linewise

/-! ## Bounds -/

namespace Limit

variable {limit : Limit} {text : Bytes}

/-- What fits of a text still fits when more arrives. -/
theorem fit_append (limit : Limit) (text more : Bytes) :
    ∃ room, limit.fit (text ++ more) = limit.fit text ++ room := by
  cases limit with
  | none => exact ⟨more, rfl⟩
  | some n =>
    refine ⟨more.take (n - text.length), ?_⟩
    simp only [fit, List.take_append]

/-- Nothing more fits into a buffer that is full. -/
theorem fit_append_of_isFull (h : limit.isFull text = true) (more : Bytes) :
    limit.fit (text ++ more) = limit.fit text := by
  cases limit with
  | none => simp [isFull] at h
  | some n =>
    simp only [isFull, decide_eq_true_eq] at h
    exact List.take_append_of_le_length h

theorem isFull_append (h : limit.isFull text = true) (more : Bytes) :
    limit.isFull (text ++ more) = true := by
  cases limit with
  | none => simp [isFull] at h
  | some n =>
    simp only [isFull, decide_eq_true_eq, List.length_append] at h ⊢
    omega

theorem length_fit_le (limit : Limit) (text : Bytes) :
    (limit.fit text).length ≤ text.length := by
  cases limit with
  | none => exact Nat.le_refl _
  | some n => exact List.length_take_le' n text

/-- An empty text leaves room in every buffer that holds a byte. -/
theorem isFull_nil (h : limit ≠ some 0) : limit.isFull [] = false := by
  cases limit with
  | none => rfl
  | some n =>
    have hn : n ≠ 0 := fun hn => h (congrArg some hn)
    simpa [isFull] using hn

end Limit

/-! ## Draining -/

/-- What is left after lines were found and then others were cut off. -/
def Drained.after (drained : Drained) (found : List Bytes) : Drained :=
  { drained with found := drained.found ++ found }

@[simp] theorem Drained.after_nil (drained : Drained) : drained.after [] = drained := by
  simp [after]

theorem Drained.after_after (drained : Drained) (found earlier : List Bytes) :
    (drained.after found).after earlier = drained.after (found ++ earlier) := by
  simp [after]

section Drain

variable {limit : Limit} {ended : Bool} {text : Bytes}

theorem drainLoop_found (limit : Limit) (ended : Bool) (fuel : Nat) (found : List Bytes)
    (text : Bytes) :
    drainLoop limit ended fuel found text = (drainLoop limit ended fuel [] text).after found := by
  induction fuel generalizing found text with
  | zero => simp [drainLoop, Drained.after]
  | succ fuel ih =>
    simp only [drainLoop]
    split
    next cut _ =>
      rw [ih (cut.line :: found), ih [cut.line], Drained.after_after]
      rfl
    next => simp [Drained.after]

/-- A cut is no longer than what fits, and shortens the text. -/
theorem length_drop_advance {cut : Cut}
    (h : cut? (ended && limit.admits text) (limit.fit text) = some cut) :
    cut.advance ≤ text.length ∧ (text.drop cut.advance).length < text.length := by
  obtain ⟨he, hpos⟩ := eq_of_cut? h
  have hlen := congrArg List.length he
  have hfit := limit.length_fit_le text
  simp only [List.length_append] at hlen
  simp only [Cut.advance, List.length_drop] at hpos ⊢
  omega

/-- More fuel than the text has bytes changes nothing. -/
theorem drainLoop_fuel {fuel : Nat} (h : text.length < fuel) (found : List Bytes) :
    drainLoop limit ended fuel found text
      = drainLoop limit ended (text.length + 1) found text := by
  induction hn : text.length using Nat.strongRecOn generalizing fuel found text with
  | ind n ih =>
    subst hn
    obtain ⟨fuel, rfl⟩ : ∃ m, fuel = m + 1 := ⟨fuel - 1, by omega⟩
    simp only [drainLoop]
    split
    next cut hcut =>
      -- a cut takes at least one byte, so one unit of fuel for each byte lasts
      have hlt := (length_drop_advance hcut).2
      rw [ih _ hlt (show (text.drop cut.advance).length < fuel by omega) _ rfl,
        ih _ hlt (show (text.drop cut.advance).length < text.length by omega) _ rfl]
    next => rfl

/-- Draining a text whose first line is decided. -/
theorem drain_of_cut {cut : Cut}
    (h : cut? (ended && limit.admits text) (limit.fit text) = some cut) :
    drain limit ended text = (drain limit ended (text.drop cut.advance)).after [cut.line] := by
  simp only [drain]
  rw [drainLoop, h]
  simp only
  rw [drainLoop_fuel (length_drop_advance h).2, drainLoop_found]

/-- Draining a text whose first line is open. -/
theorem drain_of_none (h : cut? (ended && limit.admits text) (limit.fit text) = none) :
    drain limit ended text = ⟨[], text, limit.isFull text⟩ := by
  simp only [drain]
  rw [drainLoop, h]

/-- Nothing is found in an empty text. -/
theorem drain_nil (hl : limit ≠ some 0) (ended : Bool) :
    drain limit ended [] = ⟨[], [], false⟩ := by
  have h : cut? (ended && limit.admits []) (limit.fit []) = none := by
    cases limit <;> simp [Limit.fit, cut?_unbroken]
  rw [drain_of_none h, Limit.isFull_nil hl]

/-- **Draining goes line by line**: what holds of a text whose first line is open, and of a text
if it holds of what follows its first line, holds of every text. -/
theorem drain_induction (limit : Limit) (ended : Bool) {motive : Bytes → Prop}
    (openLine : ∀ text, cut? (ended && limit.admits text) (limit.fit text) = none → motive text)
    (cutLine : ∀ text cut, cut? (ended && limit.admits text) (limit.fit text) = some cut →
      motive (text.drop cut.advance) → motive text) (text : Bytes) : motive text := by
  induction hn : text.length using Nat.strongRecOn generalizing text with
  | ind n ih =>
    subst hn
    cases h : cut? (ended && limit.admits text) (limit.fit text) with
    | none => exact openLine text h
    | some cut => exact cutLine text cut h (ih _ (length_drop_advance h).2 _ rfl)

/-- A line that is decided within the buffer stays decided when more arrives, also at the end. -/
theorem drain_append_of_cut {cut : Cut}
    (h : cut? (false && limit.admits text) (limit.fit text) = some cut) (ended : Bool)
    (more : Bytes) :
    drain limit ended (text ++ more)
      = (drain limit ended (text.drop cut.advance ++ more)).after [cut.line] := by
  obtain ⟨room, hroom⟩ := limit.fit_append text more
  have hle := (length_drop_advance h).1
  rw [Bool.false_and] at h
  have hcut := cut?_append h (ended && limit.admits (text ++ more)) room
  rw [← hroom] at hcut
  rw [drain_of_cut hcut]
  change (drain limit ended ((text ++ more).drop cut.advance)).after [cut.line] = _
  rw [List.drop_append_of_le_length hle]

/-- **Draining goes on where it stopped**: as long as no line outgrows the buffer, a text and what
arrives later drain like what the text left behind and what arrives later. -/
theorem drain_append (hov : (drain limit false text).overflow = false) (ended : Bool)
    (more : Bytes) :
    drain limit ended (text ++ more)
      = (drain limit ended ((drain limit false text).held ++ more)).after
          (drain limit false text).found := by
  induction text using drain_induction limit false with
  | openLine text h =>
    rw [drain_of_none h]
    simp
  | cutLine text cut h ih =>
    rw [drain_of_cut h] at hov ⊢
    rw [drain_append_of_cut h, ih hov, Drained.after_after]
    rfl

/-- **A line that has outgrown the buffer stays too long**, and no line is found after it. -/
theorem drain_append_of_overflow (hov : (drain limit false text).overflow = true)
    (more : Bytes) :
    (drain limit false (text ++ more)).found = (drain limit false text).found ∧
      (drain limit false (text ++ more)).overflow = true := by
  induction text using drain_induction limit false with
  | openLine text h =>
    rw [drain_of_none h] at hov ⊢
    have h' : cut? (false && limit.admits (text ++ more)) (limit.fit (text ++ more)) = none := by
      rw [Limit.fit_append_of_isFull hov]
      exact h
    rw [drain_of_none h']
    exact ⟨rfl, Limit.isFull_append hov more⟩
  | cutLine text cut h ih =>
    rw [drain_of_cut h] at hov ⊢
    rw [drain_append_of_cut h]
    obtain ⟨hfound, hoverflow⟩ := ih hov
    exact ⟨congrArg (· ++ [cut.line]) hfound, hoverflow⟩

/-- Without a bound no line is too long. -/
theorem overflow_drain_none (ended : Bool) (text : Bytes) :
    (drain none ended text).overflow = false := by
  induction text using drain_induction none ended with
  | openLine text h => rw [drain_of_none h]; rfl
  | cutLine text cut h ih => rw [drain_of_cut h]; exact ih

/-- **Without a bound, draining a complete text finds its lines.** -/
theorem found_drain_none (text : Bytes) : (drain none true text).found = (lines text).reverse := by
  induction text using drain_induction none true with
  | openLine text h =>
    obtain rfl : text = [] := eq_nil_of_cut? h
    rfl
  | cutLine text cut h ih =>
    have hlines : lines text = cut.line :: lines cut.rest := lines_of_cut? h
    have hrest : text.drop cut.advance = cut.rest := drop_advance h
    rw [drain_of_cut h, hlines, List.reverse_cons, ← hrest, ← ih]
    rfl

end Drain

/-! ## Buffers -/

namespace LineBuffer

/-- **The buffer is as far as a text**: it has found the lines that draining the text finds, and
holds what is left of it unless a line was too long. -/
structure Follows (limit : Limit) (text : Bytes) (buffer : LineBuffer) : Prop where
  /-- The lines are those of the text. -/
  found : buffer.found = (drain limit false text).found
  /-- A line is too long for both or for none. -/
  overflow : buffer.overflow = (drain limit false text).overflow
  /-- What waits for its terminator is the same, as long as it can still matter. -/
  held : buffer.overflow = false → buffer.held = (drain limit false text).held

variable {limit : Limit}

/-- Nothing has arrived yet. -/
theorem follows_nil (hl : limit ≠ some 0) : Follows limit [] {} := by
  have h := drain_nil hl false
  exact ⟨by rw [h], by rw [h], fun _ => by rw [h]⟩

/-- **One piece**: the buffer keeps up with the text. -/
theorem Follows.feed {text : Bytes} {buffer : LineBuffer} (h : Follows limit text buffer)
    (piece : Bytes) : Follows limit (text ++ piece) (buffer.feed limit false piece) := by
  cases hov : buffer.overflow with
  | true =>
    have hd := h.overflow.symm.trans hov
    obtain ⟨hfound, hoverflow⟩ := drain_append_of_overflow hd piece
    rw [LineBuffer.feed, if_pos hov]
    refine ⟨h.found.trans hfound.symm, hov.trans hoverflow.symm, fun hn => ?_⟩
    exact absurd (hov.symm.trans hn) (by simp)
  | false =>
    have hd := h.overflow.symm.trans hov
    have happ := drain_append hd false piece
    rw [LineBuffer.feed, if_neg (by simp [hov]), h.held hov, h.found]
    refine ⟨?_, ?_, fun _ => ?_⟩ <;> rw [happ] <;> rfl

/-- **All pieces**: the buffer is as far as their bytes. -/
theorem follows_foldl (hl : limit ≠ some 0) (pieces : List Bytes) :
    Follows limit pieces.flatten (pieces.foldl (LineBuffer.feed limit false) {}) := by
  induction pieces using List.reverseRecOn with
  | nil => exact follows_nil hl
  | append_singleton pieces piece ih =>
    rw [List.foldl_append, List.flatten_append, List.flatten_singleton]
    exact ih.feed piece

end LineBuffer

/-! ## Scans -/

/-- **A scan does not see where pieces end.** If the bytes before the end hold a line that is too
long, its lines are those before it; otherwise they are those of all bytes of the stream. -/
theorem Stream.scan_eq {limit : Limit} (hl : limit ≠ some 0) (stream : Stream) :
    stream.scan limit
      = if (drain limit false stream.pieces.flatten).overflow then
          ⟨(drain limit false stream.pieces.flatten).found.reverse, some .lineTooLong⟩
        else
          ⟨(drain limit true stream.contents).found.reverse,
            if (drain limit true stream.contents).overflow then some .lineTooLong
            else stream.failure⟩ := by
  have h := LineBuffer.follows_foldl hl stream.pieces
  rw [Stream.scan]
  cases hov : (drain limit false stream.pieces.flatten).overflow with
  | true =>
    have hb := h.overflow.trans hov
    simp only [LineBuffer.feed, hb, if_true, h.found]
  | false =>
    have hb := h.overflow.trans hov
    have happ := drain_append hov true stream.last
    simp only [Stream.contents, happ, LineBuffer.feed, hb, h.held hb, h.found]
    rfl

/-- Streams with the same bytes before the end, the same bytes with it and the same end scan
alike. -/
theorem Stream.scan_congr {limit : Limit} (hl : limit ≠ some 0) {stream stream' : Stream}
    (hpieces : stream.pieces.flatten = stream'.pieces.flatten)
    (hlast : stream.last = stream'.last) (hfailure : stream.failure = stream'.failure) :
    stream.scan limit = stream'.scan limit := by
  have hcontents : stream.contents = stream'.contents := by
    rw [Stream.contents, Stream.contents, hpieces, hlast]
  rw [stream.scan_eq hl, stream'.scan_eq hl, hpieces, hcontents, hfailure]

/-- **Without a bound, a scan gives the lines of the stream**, and ends as the stream does. -/
theorem Stream.scan_none (stream : Stream) :
    stream.scan none = ⟨lines stream.contents, stream.failure⟩ := by
  rw [stream.scan_eq (Option.some_ne_none 0).symm]
  simp [overflow_drain_none, found_drain_none]

end Linewise

import Mathlib.Data.List.DropRight
import Mathlib.Data.List.TakeDrop
import Linewise.Lines

/-!
# Cuts and lines

`cut?` takes one line off a text that may still grow, `lines` reads a text that is
complete. Both follow from how a text begins: with a line free of breaks, and then
with one of five ends. A cut that is decided stays as it is when more arrives, and
the lines of a text are its cuts, made one after the other.

## Main definitions

* `Unbroken line`: no byte of the line ends one
* `Opening text`: how a text begins
* `terminated ls`: the lines, each with a line feed after it

## Main results

* `opening`: every text begins in one of the five ways
* `cut?_append`: a decided cut does not depend on what follows
* `eq_of_cut?`: a cut takes the line and its terminator off the text, and nothing else
* `lines_of_cut?`: the first line of a complete text is its first cut
* `lines_terminated`: unbroken lines that are terminated are read back as they were
-/

namespace Linewise

/-- No byte of the line ends a line. -/
def Unbroken (line : Bytes) : Prop :=
  ∀ b ∈ line, isBreak b = false

@[simp] theorem unbroken_nil : Unbroken [] := by
  intro b hb
  cases hb

theorem unbroken_cons {b : UInt8} {line : Bytes} :
    Unbroken (b :: line) ↔ isBreak b = false ∧ Unbroken line := by
  simp only [Unbroken, List.forall_mem_cons]

@[simp] theorem isBreak_lineFeed : isBreak Bytes.lineFeed = true := rfl

@[simp] theorem isBreak_carriageReturn : isBreak Bytes.carriageReturn = true := rfl

theorem isBreak_iff {b : UInt8} :
    isBreak b = true ↔ b = Bytes.lineFeed ∨ b = Bytes.carriageReturn := by
  simp [isBreak]

theorem carriageReturn_ne_lineFeed : Bytes.carriageReturn ≠ Bytes.lineFeed := by
  decide

/-- **How a text begins**: with an unbroken line, which is the whole text or is followed by a
break. A carriage return is told apart by what comes after it. -/
inductive Opening : Bytes → Prop where
  /-- The text has no break. -/
  | unbroken (line : Bytes) : Unbroken line → Opening line
  /-- The line ends in a line feed. -/
  | feed (line rest : Bytes) : Unbroken line → Opening (line ++ Bytes.lineFeed :: rest)
  /-- The line ends in a carriage return, and so does the text. -/
  | lastReturn (line : Bytes) : Unbroken line → Opening (line ++ [Bytes.carriageReturn])
  /-- The line ends in a carriage return and a line feed. -/
  | returnFeed (line rest : Bytes) : Unbroken line →
    Opening (line ++ Bytes.carriageReturn :: Bytes.lineFeed :: rest)
  /-- The line ends in a carriage return, and something else follows. -/
  | loneReturn (line : Bytes) (c : UInt8) (rest : Bytes) : Unbroken line →
    c ≠ Bytes.lineFeed → Opening (line ++ Bytes.carriageReturn :: c :: rest)

/-- Every text begins in one of the five ways. -/
theorem opening (text : Bytes) : Opening text := by
  induction text with
  | nil => exact .unbroken [] unbroken_nil
  | cons b text ih =>
    by_cases hb : isBreak b = true
    · -- a break at the front: the first line is empty
      rcases isBreak_iff.mp hb with rfl | rfl
      · exact .feed [] text unbroken_nil
      · rcases text with _ | ⟨c, rest⟩
        · exact .lastReturn [] unbroken_nil
        · by_cases hc : c = Bytes.lineFeed
          · subst hc
            exact .returnFeed [] rest unbroken_nil
          · exact .loneReturn [] c rest unbroken_nil hc
    · -- any other byte joins the line that the rest begins with
      have hb' : isBreak b = false := by simpa using hb
      cases ih with
      | unbroken _ hl => exact .unbroken (b :: text) (unbroken_cons.mpr ⟨hb', hl⟩)
      | feed line rest hl => exact .feed (b :: line) rest (unbroken_cons.mpr ⟨hb', hl⟩)
      | lastReturn line hl => exact .lastReturn (b :: line) (unbroken_cons.mpr ⟨hb', hl⟩)
      | returnFeed line rest hl =>
        exact .returnFeed (b :: line) rest (unbroken_cons.mpr ⟨hb', hl⟩)
      | loneReturn line c rest hl hc =>
        exact .loneReturn (b :: line) c rest (unbroken_cons.mpr ⟨hb', hl⟩) hc

/-! ## The first cut -/

section Cut

variable {line rest : Bytes} {ended : Bool}

theorem span_unbroken (hl : Unbroken line) :
    line.span (fun b => !isBreak b) = (line, []) := by
  have hp : ∀ b ∈ line, (!isBreak b) = true := fun b hb => by simp [hl b hb]
  rw [List.span_eq_takeWhile_dropWhile, List.takeWhile_eq_self_iff.mpr hp,
    List.dropWhile_eq_nil_iff.mpr hp]

theorem span_unbroken_append {b : UInt8} (hl : Unbroken line) (hb : isBreak b = true) :
    (line ++ b :: rest).span (fun b => !isBreak b) = (line, b :: rest) := by
  have hp : ∀ b ∈ line, (!isBreak b) = true := fun b hb => by simp [hl b hb]
  rw [List.span_eq_takeWhile_dropWhile, List.takeWhile_append_of_pos hp,
    List.dropWhile_append_of_pos hp]
  simp [hb]

theorem cut?_unbroken (hl : Unbroken line) :
    cut? ended line = if ended && !line.isEmpty then some ⟨line, .endOfText, []⟩ else none := by
  simp only [cut?, span_unbroken hl]

theorem cut?_feed (hl : Unbroken line) :
    cut? ended (line ++ Bytes.lineFeed :: rest) = some ⟨line, .lineFeed, rest⟩ := by
  rw [cut?, span_unbroken_append hl isBreak_lineFeed]
  exact if_pos rfl

theorem cut?_lastReturn (hl : Unbroken line) :
    cut? ended (line ++ [Bytes.carriageReturn])
      = if ended then some ⟨line, .carriageReturn, []⟩ else none := by
  rw [cut?, span_unbroken_append hl isBreak_carriageReturn]
  exact if_neg carriageReturn_ne_lineFeed

theorem cut?_returnFeed (hl : Unbroken line) :
    cut? ended (line ++ Bytes.carriageReturn :: Bytes.lineFeed :: rest)
      = some ⟨line, .returnFeed, rest⟩ := by
  rw [cut?, span_unbroken_append hl isBreak_carriageReturn]
  exact (if_neg carriageReturn_ne_lineFeed).trans (if_pos rfl)

theorem cut?_loneReturn {c : UInt8} (hl : Unbroken line) (hc : c ≠ Bytes.lineFeed) :
    cut? ended (line ++ Bytes.carriageReturn :: c :: rest)
      = some ⟨line, .carriageReturn, c :: rest⟩ := by
  rw [cut?, span_unbroken_append hl isBreak_carriageReturn]
  exact (if_neg carriageReturn_ne_lineFeed).trans (if_neg hc)

end Cut

/-- **A decided cut does not depend on what follows**: more bytes only lengthen the rest, whether
the text is then complete or not. -/
theorem cut?_append {text : Bytes} {cut : Cut} (h : cut? false text = some cut) (ended : Bool)
    (more : Bytes) : cut? ended (text ++ more) = some { cut with rest := cut.rest ++ more } := by
  cases opening text with
  | unbroken _ hl => simp [cut?_unbroken hl] at h
  | lastReturn line hl => simp [cut?_lastReturn hl] at h
  | feed line rest hl =>
    obtain rfl := Option.some.inj ((cut?_feed hl).symm.trans h)
    simpa using cut?_feed hl
  | returnFeed line rest hl =>
    obtain rfl := Option.some.inj ((cut?_returnFeed hl).symm.trans h)
    simpa using cut?_returnFeed hl
  | loneReturn line c rest hl hc =>
    obtain rfl := Option.some.inj ((cut?_loneReturn hl hc).symm.trans h)
    simpa using cut?_loneReturn hl hc

/-- **A cut loses nothing**: line, terminator and rest make up the text, and the line and its
terminator are not both empty. -/
theorem eq_of_cut? {ended : Bool} {text : Bytes} {cut : Cut} (h : cut? ended text = some cut) :
    text = cut.line ++ (cut.terminator.bytes ++ cut.rest) ∧ 0 < cut.advance := by
  cases opening text with
  | unbroken _ hl =>
    rw [cut?_unbroken hl] at h
    split_ifs at h with he
    obtain rfl := Option.some.inj h
    have hne : text ≠ [] := by simpa using (Bool.and_eq_true_iff.mp he).2
    simpa [Terminator.bytes, Cut.advance] using List.length_pos_of_ne_nil hne
  | lastReturn line hl =>
    rw [cut?_lastReturn hl] at h
    split_ifs at h
    obtain rfl := Option.some.inj h
    simp [Terminator.bytes, Cut.advance]
  | feed line rest hl =>
    obtain rfl := Option.some.inj ((cut?_feed hl).symm.trans h)
    simp [Terminator.bytes, Cut.advance]
  | returnFeed line rest hl =>
    obtain rfl := Option.some.inj ((cut?_returnFeed hl).symm.trans h)
    simp [Terminator.bytes, Cut.advance]
  | loneReturn line c rest hl hc =>
    obtain rfl := Option.some.inj ((cut?_loneReturn hl hc).symm.trans h)
    simp [Terminator.bytes, Cut.advance]

/-- Moving on by the length of a cut leaves its rest. -/
theorem drop_advance {ended : Bool} {text : Bytes} {cut : Cut} (h : cut? ended text = some cut) :
    text.drop cut.advance = cut.rest := by
  conv_lhs => rw [(eq_of_cut? h).1]
  rw [← List.append_assoc]
  exact List.drop_left' (by simp [Cut.advance])

/-! ## The lines of a complete text -/

/-- The finished lines come out in front of what the pass still finds. -/
theorem linesLoop_done (done : List Bytes) (line : Bytes) (afterReturn : Bool) (text : Bytes) :
    linesLoop done line afterReturn text = done.reverse ++ linesLoop [] line afterReturn text := by
  induction text generalizing done line afterReturn with
  | nil =>
    simp only [linesLoop]
    split_ifs <;> simp
  | cons b rest ih =>
    simp only [linesLoop]
    split_ifs
    · exact ih done line false
    · rw [ih (line.reverse :: done), ih [line.reverse]]
      simp
    · rw [ih (line.reverse :: done), ih [line.reverse]]
      simp
    · exact ih done (b :: line) false

/-- Bytes without a break join the current line. -/
theorem linesLoop_unbroken {part : Bytes} (hp : Unbroken part) (done : List Bytes)
    (line text : Bytes) :
    linesLoop done line false (part ++ text)
      = linesLoop done (part.reverse ++ line) false text := by
  induction part generalizing line with
  | nil => rfl
  | cons b part ih =>
    obtain ⟨hb, hp⟩ := unbroken_cons.mp hp
    have hlf : b ≠ Bytes.lineFeed := fun h => by simp [h] at hb
    have hcr : b ≠ Bytes.carriageReturn := fun h => by simp [h] at hb
    simp only [List.cons_append, linesLoop, if_neg hlf, if_neg hcr]
    rw [ih hp (b :: line)]
    simp

/-- What stands after a carriage return is read afresh, unless it is a line feed. -/
theorem linesLoop_afterReturn {c : UInt8} (hc : c ≠ Bytes.lineFeed) (rest : Bytes) :
    linesLoop [] [] true (c :: rest) = lines (c :: rest) := by
  simp only [lines, linesLoop, if_neg hc]

section Lines

variable {line rest : Bytes}

theorem lines_unbroken (hl : Unbroken line) (hne : line ≠ []) : lines line = [line] := by
  have h := linesLoop_unbroken hl [] [] []
  rw [List.append_nil] at h
  rw [lines, h]
  simp [linesLoop, hne]

theorem lines_feed (hl : Unbroken line) :
    lines (line ++ Bytes.lineFeed :: rest) = line :: lines rest := by
  rw [lines, linesLoop_unbroken hl, linesLoop, if_pos rfl, if_neg Bool.false_ne_true,
    linesLoop_done]
  simp [lines]

theorem lines_lastReturn (hl : Unbroken line) :
    lines (line ++ [Bytes.carriageReturn]) = [line] := by
  rw [lines, linesLoop_unbroken hl]
  simp [linesLoop, carriageReturn_ne_lineFeed]

theorem lines_returnFeed (hl : Unbroken line) :
    lines (line ++ Bytes.carriageReturn :: Bytes.lineFeed :: rest) = line :: lines rest := by
  rw [lines, linesLoop_unbroken hl]
  simp only [linesLoop, if_neg carriageReturn_ne_lineFeed, if_true]
  rw [linesLoop_done]
  simp [lines]

theorem lines_loneReturn {c : UInt8} (hl : Unbroken line) (hc : c ≠ Bytes.lineFeed) :
    lines (line ++ Bytes.carriageReturn :: c :: rest) = line :: lines (c :: rest) := by
  rw [lines, linesLoop_unbroken hl, linesLoop, if_neg carriageReturn_ne_lineFeed, if_pos rfl,
    linesLoop_done, linesLoop_afterReturn hc]
  simp

end Lines

/-- The lines, each with a line feed after it. -/
def terminated (ls : List Bytes) : Bytes :=
  ls.flatMap (· ++ [Bytes.lineFeed])

/-- **Unbroken lines that are terminated are read back as they were.** -/
theorem lines_terminated {ls : List Bytes} (h : ∀ line ∈ ls, Unbroken line) :
    lines (terminated ls) = ls := by
  induction ls with
  | nil => rfl
  | cons line ls ih =>
    obtain ⟨hline, hls⟩ := List.forall_mem_cons.mp h
    have htext : terminated (line :: ls) = line ++ Bytes.lineFeed :: terminated ls := by
      simp [terminated]
    rw [htext, lines_feed hline, ih hls]

/-- **The first line of a complete text is its first cut**, and the others are the lines of the
rest. -/
theorem lines_of_cut? {text : Bytes} {cut : Cut} (h : cut? true text = some cut) :
    lines text = cut.line :: lines cut.rest := by
  cases opening text with
  | unbroken _ hl =>
    rw [cut?_unbroken hl] at h
    split_ifs at h with he
    obtain rfl := Option.some.inj h
    exact lines_unbroken hl (by simpa using he)
  | lastReturn line hl =>
    obtain rfl := Option.some.inj ((cut?_lastReturn hl).symm.trans h)
    exact lines_lastReturn hl
  | feed line rest hl =>
    obtain rfl := Option.some.inj ((cut?_feed hl).symm.trans h)
    exact lines_feed hl
  | returnFeed line rest hl =>
    obtain rfl := Option.some.inj ((cut?_returnFeed hl).symm.trans h)
    exact lines_returnFeed hl
  | loneReturn line c rest hl hc =>
    obtain rfl := Option.some.inj ((cut?_loneReturn hl hc).symm.trans h)
    exact lines_loneReturn hl hc

/-- A complete text has no first cut only if it is empty. -/
theorem eq_nil_of_cut? {text : Bytes} (h : cut? true text = none) : text = [] := by
  cases opening text with
  | unbroken _ hl => simpa [cut?_unbroken hl] using h
  | lastReturn line hl => simp [cut?_lastReturn hl] at h
  | feed line rest hl => simp [cut?_feed hl] at h
  | returnFeed line rest hl => simp [cut?_returnFeed hl] at h
  | loneReturn line c rest hl hc => simp [cut?_loneReturn hl hc] at h

end Linewise

import Mathlib.Data.List.Chain
import Linewise.Proofs.Lines

/-!
# Universal newlines, read and written back

Cutting a complete text from its front to its end gives its lines, each with what ended it. A
line feed after a carriage return always belongs to it, so what was written is found again
unless a carriage return that stands alone comes right before an empty line with a line feed.
Whatever the text is, its cuts lose nothing: each line with its own terminator after it makes
up the text.

## Main definitions

* `cuts text`: the cuts of a complete text, from its front to its end
* `Cut.piece cut`: the bytes that a cut moves past
* `written parts`: lines with the terminators chosen for them

## Main results

* `lines_eq_cuts`: the lines of a text are the lines of its cuts
* `cuts_written`: lines with terminators are cut where they were put together
* `flatMap_piece_cuts`: the cuts of a text make it up
* `newlines_exact`: both directions
-/

namespace Linewise

instance (line : Bytes) : Decidable (Unbroken line) :=
  List.decidableBAll (fun b => isBreak b = false) line

/-- **The cuts of a complete text**, made one after the other until nothing is left. -/
def cuts (text : Bytes) : List Cut :=
  match _h : cut? true text with
  | none => []
  | some cut => cut :: cuts (text.drop cut.advance)
termination_by text.length
decreasing_by
  obtain ⟨htext, hadvance⟩ := eq_of_cut? ‹cut? true text = some cut›
  have hlength : cut.advance ≤ text.length := by
    rw [htext]
    simp [Cut.advance]
  rw [List.length_drop]
  omega

theorem cuts_of_none {text : Bytes} (h : cut? true text = none) : cuts text = [] := by
  rw [cuts]
  split
  · rfl
  · simp_all

theorem cuts_of_some {text : Bytes} {cut : Cut} (h : cut? true text = some cut) :
    cuts text = cut :: cuts cut.rest := by
  rw [cuts]
  split
  · simp_all
  · next found hfound =>
    obtain rfl := Option.some.inj (h.symm.trans hfound)
    rw [drop_advance h]

@[simp] theorem cuts_nil : cuts [] = [] :=
  cuts_of_none rfl

/-- **Induction along the cuts of a text.** -/
theorem cuts_induction {motive : Bytes → Prop} (nil : motive [])
    (cut : ∀ text cut, cut? true text = some cut → motive cut.rest → motive text) (text : Bytes) :
    motive text := by
  induction hlength : text.length using Nat.strongRecOn generalizing text with
  | _ n ih =>
    cases hcut : cut? true text with
    | none =>
      rw [eq_nil_of_cut? hcut]
      exact nil
    | some first =>
      obtain ⟨htext, hadvance⟩ := eq_of_cut? hcut
      apply cut text first hcut
      apply ih first.rest.length _ _ rfl
      rw [← hlength, htext]
      simp only [Cut.advance, List.length_append] at hadvance ⊢
      omega

/-- **The lines of a text are the lines of its cuts.** -/
theorem lines_eq_cuts (text : Bytes) : lines text = (cuts text).map Cut.line := by
  induction text using cuts_induction with
  | nil => simp [lines, linesLoop]
  | cut text cut hcut ih => rw [lines_of_cut? hcut, cuts_of_some hcut, List.map_cons, ih]

/-! ## From lines to a text and back -/

/-- Lines with the terminators chosen for them, as a text. -/
def written (parts : List (Bytes × Terminator)) : Bytes :=
  parts.flatMap fun part => part.1 ++ part.2.bytes

theorem written_cons (part : Bytes × Terminator) (parts : List (Bytes × Terminator)) :
    written (part :: parts) = part.1 ++ (part.2.bytes ++ written parts) := by
  simp [written]

/-- A text begins with a line feed only if its first line is empty and ends in one. -/
theorem head?_written {parts : List (Bytes × Terminator)} {last : Bytes}
    (hparts : ∀ part ∈ parts, Unbroken part.1 ∧ part.2 ≠ .endOfText) (hlast : Unbroken last)
    (h : (written parts ++ last).head? = some Bytes.lineFeed) :
    parts.head? = some ([], .lineFeed) := by
  cases parts with
  | nil =>
    have hmem : Bytes.lineFeed ∈ last := List.mem_of_mem_head? (by simpa [written] using h)
    simpa using hlast _ hmem
  | cons part parts =>
    obtain ⟨hline, hend⟩ := hparts part List.mem_cons_self
    obtain ⟨line, terminator⟩ := part
    cases line with
    | cons b line =>
      obtain rfl : b = Bytes.lineFeed := by simpa [written_cons] using h
      simpa using (unbroken_cons.mp hline).1
    | nil =>
      cases terminator with
      | lineFeed => rfl
      | endOfText => exact absurd rfl hend
      | returnFeed | carriageReturn =>
        simp [written_cons, Terminator.bytes, carriageReturn_ne_lineFeed] at h

/-- **The first cut of a text is its first line**, unless that ends in a carriage return and a line
feed follows. -/
theorem cut?_part {line rest : Bytes} {terminator : Terminator} (hl : Unbroken line)
    (hend : terminator ≠ .endOfText)
    (hrest : terminator = .carriageReturn → rest.head? ≠ some Bytes.lineFeed) :
    cut? true (line ++ (terminator.bytes ++ rest)) = some ⟨line, terminator, rest⟩ := by
  cases terminator with
  | lineFeed => exact cut?_feed hl
  | returnFeed => exact cut?_returnFeed hl
  | endOfText => exact absurd rfl hend
  | carriageReturn =>
    cases rest with
    | nil => exact cut?_lastReturn hl
    | cons c rest => exact cut?_loneReturn hl (by simpa using hrest rfl)

/-- **Lines with terminators are cut where they were put together.** -/
theorem cuts_written {parts : List (Bytes × Terminator)} {last : Bytes}
    (hparts : ∀ part ∈ parts, Unbroken part.1 ∧ part.2 ≠ .endOfText) (hlast : Unbroken last)
    (hchain : parts.IsChain fun part next =>
      part.2 = .carriageReturn → next ≠ ([], .lineFeed)) :
    (cuts (written parts ++ last)).map (fun cut => (cut.line, cut.terminator))
      = parts ++ if last = [] then [] else [(last, .endOfText)] := by
  induction parts with
  | nil =>
    by_cases hempty : last = []
    · simp [written, hempty]
    · have hcut : cut? true last = some ⟨last, .endOfText, []⟩ := by
        simp [cut?_unbroken hlast, hempty]
      simp [written, cuts_of_some hcut, hempty]
  | cons part parts ih =>
    obtain ⟨hpart, hparts⟩ := List.forall_mem_cons.mp hparts
    have hrest (hreturn : part.2 = .carriageReturn) :
        (written parts ++ last).head? ≠ some Bytes.lineFeed := fun hfeed =>
      hchain.rel_head? (head?_written hparts hlast hfeed) hreturn rfl
    have hcut := cut?_part hpart.1 hpart.2 hrest
    rw [written_cons, List.append_assoc, List.append_assoc, cuts_of_some hcut, List.map_cons,
      ih hparts hchain.tail, List.cons_append]

/-! ## From a text to its cuts and back -/

/-- The bytes that a cut moves past. -/
def Cut.piece (cut : Cut) : Bytes :=
  cut.line ++ cut.terminator.bytes

theorem unbroken_of_cut? {ended : Bool} {text : Bytes} {cut : Cut}
    (h : cut? ended text = some cut) : Unbroken cut.line := by
  cases opening text with
  | unbroken _ hl =>
    rw [cut?_unbroken hl] at h
    split_ifs at h
    obtain rfl := Option.some.inj h
    exact hl
  | lastReturn line hl =>
    rw [cut?_lastReturn hl] at h
    split_ifs at h
    obtain rfl := Option.some.inj h
    exact hl
  | feed line rest hl =>
    obtain rfl := Option.some.inj ((cut?_feed hl).symm.trans h)
    exact hl
  | returnFeed line rest hl =>
    obtain rfl := Option.some.inj ((cut?_returnFeed hl).symm.trans h)
    exact hl
  | loneReturn line c rest hl hc =>
    obtain rfl := Option.some.inj ((cut?_loneReturn hl hc).symm.trans h)
    exact hl

/-- **What may end a line**: the end only of a text that is complete, and a carriage return alone
only where no line feed comes next. -/
theorem ends_of_cut? {ended : Bool} {text : Bytes} {cut : Cut} (h : cut? ended text = some cut) :
    (cut.terminator = .endOfText → ended = true ∧ cut.rest = []) ∧
      (cut.terminator = .carriageReturn → cut.rest.head? ≠ some Bytes.lineFeed) := by
  cases opening text with
  | unbroken _ hl =>
    rw [cut?_unbroken hl] at h
    split_ifs at h with hended
    obtain rfl := Option.some.inj h
    exact ⟨fun _ => ⟨(Bool.and_eq_true_iff.mp hended).1, rfl⟩, nofun⟩
  | lastReturn line hl =>
    rw [cut?_lastReturn hl] at h
    split_ifs at h
    obtain rfl := Option.some.inj h
    exact ⟨nofun, fun _ => nofun⟩
  | feed line rest hl =>
    obtain rfl := Option.some.inj ((cut?_feed hl).symm.trans h)
    exact ⟨nofun, nofun⟩
  | returnFeed line rest hl =>
    obtain rfl := Option.some.inj ((cut?_returnFeed hl).symm.trans h)
    exact ⟨nofun, nofun⟩
  | loneReturn line c rest hl hc =>
    obtain rfl := Option.some.inj ((cut?_loneReturn hl hc).symm.trans h)
    exact ⟨nofun, fun _ hfeed => hc (Option.some.inj hfeed)⟩

theorem unbroken_of_mem_cuts {text : Bytes} {cut : Cut} (h : cut ∈ cuts text) :
    Unbroken cut.line := by
  induction text using cuts_induction with
  | nil => simp at h
  | cut text first hfirst ih =>
    rw [cuts_of_some hfirst] at h
    rcases List.mem_cons.mp h with rfl | h
    · exact unbroken_of_cut? hfirst
    · exact ih h

/-- **The cuts of a text make it up.** -/
theorem flatMap_piece_cuts (text : Bytes) : (cuts text).flatMap Cut.piece = text := by
  induction text using cuts_induction with
  | nil => simp
  | cut text first hfirst ih =>
    rw [cuts_of_some hfirst, List.flatMap_cons, ih, Cut.piece, List.append_assoc]
    exact (eq_of_cut? hfirst).1.symm

/-- Every cut but the last has a terminator. -/
theorem terminator_of_mem_dropLast {text : Bytes} {cut : Cut} (h : cut ∈ (cuts text).dropLast) :
    cut.terminator ≠ .endOfText := by
  induction text using cuts_induction with
  | nil => simp at h
  | cut text first hfirst ih =>
    rw [cuts_of_some hfirst] at h
    cases hrest : cuts first.rest with
    | nil => simp [hrest] at h
    | cons second others =>
      rw [hrest, List.dropLast_cons_cons, ← hrest] at h
      rcases List.mem_cons.mp h with rfl | h
      · intro hend
        simp [((ends_of_cut? hfirst).1 hend).2] at hrest
      · exact ih h

theorem cuts_eq_nil_iff {text : Bytes} : cuts text = [] ↔ text = [] := by
  constructor
  · intro h
    rw [← flatMap_piece_cuts text, h]
    rfl
  · rintro rfl
    exact cuts_nil

/-- **Universal newlines are read exactly.** Lines without breaks, each with a terminator of any of
the three kinds, and perhaps a line without one at the end, are the lines of the text they
make, each cut off with its own terminator, as long as no carriage return that stands alone
comes right before an empty line with a line feed. Conversely, the cuts of any text have lines
without breaks, all of them but the last have a terminator, each moves past its line and its
terminator, together they make up the text, and there are none just if the text is empty. -/
theorem newlines_exact :
    (∀ (parts : List (Bytes × Terminator)) (last : Bytes),
      (∀ part ∈ parts, Unbroken part.1 ∧ part.2 ≠ .endOfText) → Unbroken last →
      parts.IsChain (fun part next => part.2 = .carriageReturn → next ≠ ([], .lineFeed)) →
      lines (written parts ++ last)
          = parts.map Prod.fst ++ (if last = [] then [] else [last]) ∧
        (cuts (written parts ++ last)).map (fun cut => (cut.line, cut.terminator))
          = parts ++ if last = [] then [] else [(last, .endOfText)]) ∧
    ∀ text : Bytes,
      lines text = (cuts text).map Cut.line ∧
      (∀ cut ∈ cuts text, Unbroken cut.line ∧ cut.piece.length = cut.advance) ∧
      (∀ cut ∈ (cuts text).dropLast, cut.terminator ≠ .endOfText) ∧
      (cuts text).flatMap Cut.piece = text ∧
      (cuts text = [] ↔ text = []) := by
  constructor
  · intro parts last hparts hlast hchain
    have hcuts := cuts_written hparts hlast hchain
    refine ⟨?_, hcuts⟩
    have hlines := congrArg (List.map Prod.fst) hcuts
    rw [List.map_map] at hlines
    rw [lines_eq_cuts]
    refine hlines.trans ?_
    split_ifs <;> simp
  · intro text
    refine ⟨lines_eq_cuts text, fun cut hcut => ⟨unbroken_of_mem_cuts hcut, ?_⟩,
      fun cut hcut => terminator_of_mem_dropLast hcut, flatMap_piece_cuts text, cuts_eq_nil_iff⟩
    simp [Cut.piece, Cut.advance]

/-- All three terminators, with empty lines between them: a pair after a lone carriage return, a
lone one after a pair, and a last line without any. -/
theorem newlines_exact_mixed :
    lines (utf8 "a\x0d\x0d\x0a\x0ab\x0d\x0a\x0dc")
      = [utf8 "a", [], [], utf8 "b", [], utf8 "c"] := by
  exact (newlines_exact.1
    [(utf8 "a", .carriageReturn), ([], .returnFeed), ([], .lineFeed), (utf8 "b", .returnFeed),
      ([], .carriageReturn)] (utf8 "c") (by decide) (by decide) (by decide)).1

/-- The exception: a carriage return and a line feed that were meant to end two lines end one. -/
example : lines (utf8 "a\x0d" ++ utf8 "\x0a") = [utf8 "a"] := by decide

end Linewise

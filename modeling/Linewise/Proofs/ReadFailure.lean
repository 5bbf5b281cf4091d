import Mathlib.Data.List.DropRight
import Linewise.Proofs.Reference

/-!
# Runs whose source fails

A source that fails in the middle of a line leaves a piece of that line behind. A run
takes the piece for a line of its own: it is transformed, and its result is written
before the failure is reported. What is written is then no longer what a run over the
whole input begins with.

## Main definitions

* `finished`, `unfinished`: a text up to its last break, and what stands after it
* `Closed`: a text that is empty or ends in a break

## Main results

* `exists_lines_append`: the lines of a closed text stay when more follows
* `output_prefix_iff`: when the output for a part of a text is what the output for all of it
  begins with
* `run_failingAfter_prefix_iff`: the same of a run whose source fails and of one that is not cut
-/

namespace Linewise

/-! ## Finished and unfinished lines -/

/-- **A text up to its last break.** -/
def finished (text : Bytes) : Bytes :=
  text.rdropWhile fun b => !isBreak b

/-- **What stands after the last break of a text.** -/
def unfinished (text : Bytes) : Bytes :=
  text.rtakeWhile fun b => !isBreak b

theorem finished_append_unfinished (text : Bytes) : finished text ++ unfinished text = text :=
  List.rdropWhile_append_rtakeWhile

theorem unbroken_unfinished (text : Bytes) : Unbroken (unfinished text) := by
  intro b hb
  simpa using List.mem_rtakeWhile_imp hb

/-- The text is empty or ends in a break. -/
def Closed (text : Bytes) : Prop :=
  ∀ b ∈ text.getLast?, isBreak b = true

theorem closed_finished (text : Bytes) : Closed (finished text) := by
  intro b hb
  obtain ⟨hne, rfl⟩ := List.mem_getLast?_eq_getLast hb
  have hlast : ¬ (!isBreak ((finished text).getLast hne)) = true :=
    List.rdropWhile_last_not _ text hne
  simpa using hlast

theorem Closed.eq_nil {text : Bytes} (h : Closed text) (hu : Unbroken text) : text = [] := by
  rcases List.eq_nil_or_concat text with rfl | ⟨line, b, rfl⟩
  · rfl
  · have hb : isBreak b = true := h b (by simp)
    have hb' : isBreak b = false := hu b (by simp)
    rw [hb] at hb'
    cases hb'

theorem Closed.drop {text : Bytes} (h : Closed text) (n : Nat) : Closed (text.drop n) := by
  intro b hb
  rw [List.getLast?_drop] at hb
  split_ifs at hb
  · cases hb
  · exact h b hb

/-- **The lines of a closed text stay when more follows**, and the others are read afresh. Only a
line feed right after a closing carriage return belongs to what is there already. -/
theorem exists_lines_append {text : Bytes} (h : Closed text) (more : Bytes) :
    ∃ rest, (rest = more ∨ more = Bytes.lineFeed :: rest) ∧
      lines (text ++ more) = lines text ++ lines rest := by
  induction text using drain_induction none false with
  | cutLine text cut hcut ih =>
    have hcut : cut? false text = some cut := hcut
    have htext := lines_of_cut? (cut?_append hcut true [])
    have hboth := lines_of_cut? (cut?_append hcut true more)
    obtain ⟨rest, hrest, hlines⟩ := ih (h.drop _)
    rw [drop_advance hcut] at hlines
    simp only [List.append_nil] at htext
    refine ⟨rest, hrest, ?_⟩
    rw [hboth, htext, hlines, List.cons_append]
  | openLine text hopen =>
    have hopen : cut? false text = none := hopen
    cases opening text with
    | unbroken _ hl =>
      obtain rfl := h.eq_nil hl
      exact ⟨more, .inl rfl, rfl⟩
    | lastReturn line hl =>
      rw [lines_lastReturn hl, List.append_assoc, List.singleton_append]
      rcases more with _ | ⟨c, more⟩
      · exact ⟨[], .inl rfl, lines_lastReturn hl⟩
      · by_cases hc : c = Bytes.lineFeed
        · subst hc
          exact ⟨more, .inr rfl, lines_returnFeed hl⟩
        · exact ⟨c :: more, .inl rfl, lines_loneReturn hl hc⟩
    | feed line tail hl => simp [cut?_feed hl] at hopen
    | returnFeed line tail hl => simp [cut?_returnFeed hl] at hopen
    | loneReturn line c tail hl hc => simp [cut?_loneReturn hl hc] at hopen

/-- The lines of a text are its finished ones and the unfinished one, however that goes on. -/
theorem lines_append_of_unfinished {text : Bytes} (h : unfinished text ≠ []) (more : Bytes) :
    lines (text ++ more) = lines (finished text) ++ lines (unfinished text ++ more) := by
  obtain ⟨rest, hrest, hlines⟩ :=
    exists_lines_append (closed_finished text) (unfinished text ++ more)
  rw [← List.append_assoc, finished_append_unfinished] at hlines
  rcases hrest with rfl | hfeed
  · exact hlines
  · obtain ⟨b, line, hline⟩ := List.exists_cons_of_ne_nil h
    rw [hline, List.cons_append, List.cons.injEq] at hfeed
    have hb := unbroken_unfinished text b (by rw [hline]; exact List.mem_cons_self)
    rw [hfeed.1] at hb
    cases hb

/-! ## Cut runs -/

/-- **The output for a part of a text** is what the output for the whole text begins with exactly
if a finished line ends the run, or if this holds of the unfinished line and what goes on from
it. -/
theorem output_prefix_iff (transform : Transform) (onEmpty text more : Bytes) :
    Reference.output transform onEmpty (lines text)
        <+: Reference.output transform onEmpty (lines (text ++ more)) ↔
      (∃ line ∈ lines (finished text),
        (Reference.verdict transform onEmpty line).isStop = true) ∨
      Reference.output transform onEmpty (lines (unfinished text))
        <+: Reference.output transform onEmpty (lines (unfinished text ++ more)) := by
  by_cases hnil : unfinished text = []
  · have htext : finished text = text := by
      simpa [hnil] using finished_append_unfinished text
    obtain ⟨rest, -, hlines⟩ := exists_lines_append (htext ▸ closed_finished text) more
    rw [hlines, hnil]
    exact iff_of_true (Reference.output_prefix_append ..) (.inr List.nil_prefix)
  · have hpart := lines_append_of_unfinished hnil []
    rw [List.append_nil, List.append_nil] at hpart
    rw [hpart, lines_append_of_unfinished hnil more]
    by_cases hstop : ∃ line ∈ lines (finished text),
        (Reference.verdict transform onEmpty line).isStop = true
    · rw [Reference.output_append_of_exists _ _ _ _ hstop,
        Reference.output_append_of_exists _ _ _ _ hstop]
      exact iff_of_true List.prefix_rfl (.inl hstop)
    · have hgo : ∀ line ∈ lines (finished text),
          (Reference.verdict transform onEmpty line).isStop = false := by
        simpa using hstop
      rw [Reference.output_append_of_forall _ _ _ _ hgo,
        Reference.output_append_of_forall _ _ _ _ hgo, List.prefix_append_right_inj,
        or_iff_right hstop]

/-- **When a cut run writes what the whole run begins with.** The source of the cut run fails after
`n` bytes. What has arrived by then is read as if it were complete, so what is written is a prefix
of what the whole run writes exactly if a finished line ends the run, or if what the unfinished
line comes to is what the whole run writes next. So a cut right after a break never shows. -/
theorem run_failingAfter_prefix_iff (transform : Transform) (onEmpty data : Bytes)
    (n chunk chunk' : Nat) (limit : Int) (fault : Fault) (hlimit : limit ≤ 0) :
    let options : Options := { onEmpty := Policy.ofWord onEmpty, maxLineBytes := limit }
    let whole := (run transform options { data, chunk } {}).sink.accepted
    let cutShort :=
      (run transform options (Source.failingAfter n data chunk' fault) {}).sink.accepted
    let text := Decoder.arrived (data.take n)
    let more := (decodeText data).drop text.length
    cutShort = Reference.output transform onEmpty (lines text) ∧
      (cutShort <+: whole ↔
        (∃ line ∈ lines (finished text),
          (Reference.verdict transform onEmpty line).isStop = true) ∨
        Reference.output transform onEmpty (lines (unfinished text))
          <+: Reference.output transform onEmpty (lines (unfinished text ++ more))) := by
  intro options whole cutShort text more
  have hcut : cutShort = Reference.output transform onEmpty (lines text) := by
    refine (accepted_run transform rfl rfl hlimit _).trans ?_
    rw [Source.contents_decode_of_failure rfl]
    rfl
  have hwhole : whole = Reference.output transform onEmpty (lines (text ++ more)) := by
    refine (accepted_run transform rfl rfl hlimit _).trans ?_
    rw [Source.contents_decode rfl, List.prefix_iff_eq_append.mp (Decoder.arrived_take data n)]
  refine ⟨hcut, ?_⟩
  rw [hcut, hwhole]
  exact output_prefix_iff transform onEmpty text more

/-- A cut between a carriage return and its line feed. -/
theorem run_failingAfter_prefix_iff_return :
    let options : Options := { onEmpty := Policy.ofWord [], maxLineBytes := 0 }
    let data := utf8 "10\r\n11\n"
    ((0 : Int) ≤ 0) ∧
      (run Transform.binary options (Source.failingAfter 3 data 1 .unstated) {}).sink.accepted
        <+: (run Transform.binary options { data, chunk := 2 } {}).sink.accepted := by
  obtain ⟨-, hiff⟩ := run_failingAfter_prefix_iff Transform.binary [] (utf8 "10\r\n11\n") 3 2 1 0
    .unstated (by decide)
  refine ⟨by decide, hiff.mpr (.inr ?_)⟩
  decide

/-- **A line that is cut is written as if it were complete**: `1011` cut after three digits leaves
`5`, where the whole run writes `11`. -/
theorem run_failingAfter_cut_line :
    let options : Options := { onEmpty := Policy.ofWord [], maxLineBytes := 0 }
    let data := utf8 "1011\n"
    let whole := (run Transform.binary options { data } {}).sink.accepted
    let cutShort :=
      (run Transform.binary options (Source.failingAfter 3 data 0 .unstated) {}).sink.accepted
    whole = utf8 "11\n" ∧ cutShort = utf8 "5\n" ∧ ¬ cutShort <+: whole := by
  intro options data whole cutShort
  have hp : options.onEmpty = Policy.ofWord [] := rfl
  have hwhole : whole = utf8 "11\n" :=
    (accepted_run Transform.binary hp rfl (Int.le_refl 0) _).trans (by decide)
  have hcut : cutShort = utf8 "5\n" :=
    (accepted_run Transform.binary hp rfl (Int.le_refl 0) _).trans (by decide)
  refine ⟨hwhole, hcut, ?_⟩
  rw [hwhole, hcut]
  decide

end Linewise

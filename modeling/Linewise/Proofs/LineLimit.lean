import Linewise.Proofs.Reference
import Linewise.Proofs.Window

/-!
# The bound on lines

A run with a bound on its lines goes on as one without until the first line that is out of
reach of the bound, and then fails to read. What counts is the reach of a line, which
depends on its length and on what ends it, and on nothing that stands before it. A text
whose lines are all within reach is drained to its end, and one with a line out of reach
fills the buffer at the first such line. The run is then given the lines before it, and so
it is when they are looked for in a window that is shifted and grows.

## Main results

* `drain_of_fits`, `drain_of_exceeds`: all lines of a text
* `Source.scan_of_fits`, `Source.scan_of_exceeds`: what a bounded scan of a source finds
* `run_eq_of_fits`, `run_of_exceeds`, `run_eq_of_window`: a whole run
* `run_limit_exact`: all of it
-/

namespace Linewise

/-! ## All lines of a text -/

section Drain

variable {text : Bytes} {cut : Cut} {m : Nat}

/-- A line that is decided within the buffer is drained, and what follows it after it. -/
theorem drain_of_decided (h : cut? true text = some cut) {rest : Bytes} {ended : Bool}
    (hdecided : ∀ ended, cut? ended (text.take m) = some { cut with rest }) :
    drain (some m) ended text = (drain (some m) ended cut.rest).after [cut.line] := by
  have hcut : cut? (ended && Limit.admits (some m) text) (Limit.fit (some m) text)
      = some { cut with rest } := hdecided _
  rw [drain_of_cut hcut, ← drop_advance h]
  rfl

/-- **A text whose lines are within reach of the buffer** is drained to its end: no line overflows,
and the end of the text finds them all. -/
theorem drain_of_fits (hm : 0 < m) (h : ∀ cut ∈ cuts text, cut.reach ≤ m) :
    (drain (some m) false text).overflow = false ∧
      drain (some m) true text = ⟨(lines text).reverse, [], false⟩ := by
  have hnil := drain_nil (show some m ≠ some 0 by simpa using hm.ne')
  induction text using cuts_induction with
  | nil => exact ⟨by rw [hnil], hnil true⟩
  | cut text cut hcut ih =>
    rw [cuts_of_some hcut, List.forall_mem_cons] at h
    rw [lines_of_cut? hcut, List.reverse_cons]
    rcases cut?_take_of_reach_le hcut h.1 with ⟨rest, hdecided⟩ | ⟨hrest, hopen, hlength⟩
    · obtain ⟨hoverflow, hdrain⟩ := ih h.2
      rw [drain_of_decided hcut hdecided, drain_of_decided hcut hdecided, hdrain]
      exact ⟨hoverflow, rfl⟩
    · have hfit : Limit.fit (some m) text = text := List.take_of_length_le hlength.le
      have hadmits : Limit.admits (some m) text = true := decide_eq_true hlength.le
      have hfull : Limit.isFull (some m) text = false := decide_eq_false (Nat.not_le.mpr hlength)
      have hwaits :
          cut? (false && Limit.admits (some m) text) (Limit.fit (some m) text) = none := by
        rw [hfit, Bool.false_and, hopen]
      have hends : cut? (true && Limit.admits (some m) text) (Limit.fit (some m) text)
          = some cut := by
        rw [hfit, hadmits, Bool.true_and, hcut]
      rw [drain_of_none hwaits, drain_of_cut hends, drop_advance hcut, hrest, hnil true]
      exact ⟨hfull, rfl⟩

/-- **A text with a line out of reach** fills the buffer at the first such line, after those
before it. -/
theorem drain_of_exceeds (h : ∃ cut ∈ cuts text, m < cut.reach) :
    (drain (some m) false text).overflow = true ∧
      (drain (some m) false text).found
        = (((cuts text).takeWhile fun cut => cut.reach ≤ m).map Cut.line).reverse := by
  induction text using cuts_induction with
  | nil => simp at h
  | cut text cut hcut ih =>
    rw [cuts_of_some hcut, List.exists_mem_cons_iff] at h
    rw [cuts_of_some hcut]
    by_cases hreach : cut.reach ≤ m
    · have h' := h.resolve_left (Nat.not_lt.mpr hreach)
      rw [List.takeWhile_cons_of_pos (by simpa using hreach), List.map_cons, List.reverse_cons]
      rcases cut?_take_of_reach_le hcut hreach with ⟨rest, hdecided⟩ | ⟨hrest, -, -⟩
      · obtain ⟨hoverflow, hfound⟩ := ih h'
        rw [drain_of_decided hcut hdecided, ← hfound]
        exact ⟨hoverflow, rfl⟩
      · simp [hrest] at h'
    · rw [List.takeWhile_cons_of_neg (by simpa using hreach)]
      obtain ⟨hopen, hfull⟩ := cut?_take_of_lt_reach hcut (Nat.lt_of_not_le hreach)
      have hdrain : drain (some m) false text = ⟨[], text, Limit.isFull (some m) text⟩ :=
        drain_of_none hopen
      rw [hdrain]
      exact ⟨decide_eq_true hfull, rfl⟩

end Drain

/-! ## Sources -/

section Source

variable {source : Source} {m : Nat}

/-- **A source without a mark of UTF-16** is passed on as it is, less a mark of UTF-8, and has
nothing left to give at its end. Three bytes are enough to tell. -/
theorem Source.decode_of_unmarked (hlength : 3 ≤ source.data.length)
    (hmark : ∀ order : ByteOrder, ¬ order.mark <+: source.data) :
    source.decode.pieces.flatten = Bytes.withoutStart utf8Mark source.data ∧
      source.decode.last = [] := by
  have hfeed : Decoder.start.feed source.data
      = (.verbatim, Bytes.withoutStart utf8Mark source.data) := by
    have hsettle : Decoder.start.feed source.data = Decoder.settle source.data :=
      if_neg (Nat.not_lt.mpr hlength)
    rw [hsettle, Decoder.settle, Bytes.afterStart?_eq_none (hmark .little),
      Bytes.afterStart?_eq_none (hmark .big)]
  rw [flatten_pieces_decode, last_decode, Decoder.arrived, hfeed]
  exact ⟨rfl, ite_self []⟩

theorem Source.contents_of_unmarked (hlength : 3 ≤ source.data.length)
    (hmark : ∀ order : ByteOrder, ¬ order.mark <+: source.data) :
    source.decode.contents = Bytes.withoutStart utf8Mark source.data := by
  obtain ⟨hpieces, hlast⟩ := decode_of_unmarked hlength hmark
  rw [Stream.contents, hpieces, hlast, List.append_nil]

/-- **A bounded scan whose lines are all within reach** is the scan without a bound. -/
theorem Source.scan_of_fits (hm : 0 < m) (hlength : 3 ≤ source.data.length)
    (hmark : ∀ order : ByteOrder, ¬ order.mark <+: source.data)
    (h : ∀ cut ∈ cuts (Bytes.withoutStart utf8Mark source.data), cut.reach ≤ m) :
    source.decode.scan (some m) = source.decode.scan none := by
  obtain ⟨hoverflow, hdrain⟩ := drain_of_fits hm h
  rw [Stream.scan_none, Stream.scan_eq (by simpa using hm.ne'),
    (decode_of_unmarked hlength hmark).1, contents_of_unmarked hlength hmark, hoverflow, hdrain]
  simp

/-- **A bounded scan with a line out of reach** finds the lines before the first such line, and
fails there. -/
theorem Source.scan_of_exceeds (hm : 0 < m) (hlength : 3 ≤ source.data.length)
    (hmark : ∀ order : ByteOrder, ¬ order.mark <+: source.data)
    (h : ∃ cut ∈ cuts (Bytes.withoutStart utf8Mark source.data), m < cut.reach) :
    source.decode.scan (some m)
      = ⟨((cuts (Bytes.withoutStart utf8Mark source.data)).takeWhile
          fun cut => cut.reach ≤ m).map Cut.line, some .lineTooLong⟩ := by
  obtain ⟨hoverflow, hfound⟩ := drain_of_exceeds h
  rw [Stream.scan_eq (by simpa using hm.ne'), (decode_of_unmarked hlength hmark).1, hoverflow,
    hfound, if_pos rfl, List.reverse_reverse]

/-- **A bounded scan finds what is found in a window.** -/
theorem Source.scan_eq_bounded (hm : 0 < m) (hlength : 3 ≤ source.data.length)
    (hmark : ∀ order : ByteOrder, ¬ order.mark <+: source.data)
    (hfailure : source.failure = none) :
    source.decode.scan (some m) = bounded m (Bytes.withoutStart utf8Mark source.data) := by
  by_cases h : ∀ cut ∈ cuts (Bytes.withoutStart utf8Mark source.data), cut.reach ≤ m
  · have hall : (cuts (Bytes.withoutStart utf8Mark source.data)).takeWhile
        (fun cut => cut.reach ≤ m) = cuts (Bytes.withoutStart utf8Mark source.data) :=
      List.takeWhile_eq_self_iff.mpr (by simpa using h)
    rw [scan_of_fits hm hlength hmark h, Stream.scan_none, contents_of_unmarked hlength hmark,
      lines_eq_cuts, failure_decode, hfailure, bounded, if_pos h, hall]
  · have hexceeds : ∃ cut ∈ cuts (Bytes.withoutStart utf8Mark source.data), m < cut.reach := by
      simpa using h
    rw [scan_of_exceeds hm hlength hmark hexceeds, bounded, if_neg h]

end Source

/-! ## Runs -/

theorem Options.limit_of_pos {options : Options} {m : Nat} (hm : 0 < m)
    (h : options.maxLineBytes = m) : options.limit = some m := by
  rw [limit, h, if_neg (by omega), Int.toNat_natCast]

namespace Run

variable {transform : Transform} {options options' : Options} {sink : Sink}

theorem overLines_congr (hpolicy : options.onEmpty = options'.onEmpty)
    (hcancel : options.cancellation = options'.cancellation) (state : State) (ls : List Bytes) :
    overLines transform options state ls = overLines transform options' state ls := by
  induction ls generalizing state with
  | nil => rfl
  | cons line ls ih =>
    have hstep : step transform options state line = step transform options' state line := by
      simp only [step, calledOff?, hpolicy, hcancel]
    simp only [overLines, hstep, ih]

/-- The bound on lines is a matter of the scan: what a run does with scanned lines does not depend
on it. -/
theorem overScanned_congr (hpolicy : options.onEmpty = options'.onEmpty)
    (hcancel : options.cancellation = options'.cancellation) (scanned : Scanned) :
    overScanned transform options sink scanned = overScanned transform options' sink scanned := by
  simp only [overScanned, overLines_congr hpolicy hcancel]

/-- A run that ends at one of some lines does not see what comes after them. -/
theorem overScanned_append_of_stop {state : State} {fault : Fault} {ls : List Bytes}
    (h : overLines transform options (begin transform sink) ls = (state, some fault))
    (more : List Bytes) (failure : Option Fault) :
    overScanned transform options sink ⟨ls ++ more, failure⟩ = finish state (some fault) := by
  simp only [overScanned, overLines_append, h]

end Run

section Ends

variable {transform : Transform} {onEmpty : Bytes} {options : Options} {sink : Sink}
  {ls : List Bytes}

/-- Whether a run ends with a failure within its first lines can be told from its failure and the
number of lines it has read. -/
theorem Reference.ends_within_iff (hp : options.onEmpty = Policy.ofWord onEmpty)
    (hc : options.cancellation = none) (hr : sink.room = none) (ms : List Bytes) :
    let outcome := Run.overScanned transform options sink ⟨ls ++ ms, none⟩
    outcome.failure ≠ none ∧ outcome.stats.linesRead ≤ ls.length ↔
      ∃ line ∈ ls, (verdict transform onEmpty line).isStop = true := by
  intro outcome
  rw [← stopIndex_append_le_iff transform onEmpty ls ms]
  rcases kept_cases transform onEmpty (ls ++ ms) with ⟨hk, hs⟩ | ⟨line, rest, cause, hls, hv, hs⟩
  · obtain ⟨-, -, hfailure⟩ := overScanned_of_kept options sink ⟨ls ++ ms, none⟩ hp hc hr hk
    rw [hs, List.length_append]
    apply iff_of_false
    · exact fun h => h.1 hfailure
    · omega
  · obtain ⟨-, hstats, hfailure⟩ :=
      overScanned_of_stop options sink ⟨ls ++ ms, none⟩ hp hc hr hls hv
    have hread : outcome.stats.linesRead = stopIndex transform onEmpty (ls ++ ms) := by
      rw [hstats, hs]
      rfl
    rw [hread, Int.ofNat_le]
    apply and_iff_right
    rw [hfailure]
    exact Option.some_ne_none _

/-- Once a line has ended the run, neither the lines after it nor the end of the scan matter. -/
theorem Run.overScanned_eq_of_exists (hp : options.onEmpty = Policy.ofWord onEmpty)
    (hc : options.cancellation = none) (hr : sink.room = none)
    (h : ∃ line ∈ ls, (Reference.verdict transform onEmpty line).isStop = true)
    (ms : List Bytes) (failure failure' : Option Fault) :
    overScanned transform options sink ⟨ls, failure⟩
      = overScanned transform options sink ⟨ls ++ ms, failure'⟩ := by
  rcases hover : overLines transform options (begin transform sink) ls with ⟨state, _ | fault⟩
  · obtain ⟨line, hline, hstop⟩ := h
    have hgo := (Reference.Agrees.of_overLines hp hc (Reference.agrees_begin hr) hover).1
    rw [hgo line hline] at hstop
    cases hstop
  · rw [overScanned_append_of_stop hover, ← overScanned_append_of_stop hover [] failure,
      List.append_nil]

end Ends

/-- **A run whose lines are all within reach of its bound** is the run without a bound, whenever it
is called off and whatever the sink does. -/
theorem run_eq_of_fits {source : Source} {m : Nat} (hm : 0 < m)
    (hlength : 3 ≤ source.data.length)
    (hmark : ∀ order : ByteOrder, ¬ order.mark <+: source.data)
    (h : ∀ cut ∈ cuts (Bytes.withoutStart utf8Mark source.data), cut.reach ≤ m)
    (transform : Transform) {options options' : Options} (sink : Sink)
    (hpolicy : options.onEmpty = options'.onEmpty)
    (hcancel : options.cancellation = options'.cancellation)
    (hbounded : options.maxLineBytes = m) (hunbounded : options'.maxLineBytes ≤ 0) :
    run transform options source sink = run transform options' source sink := by
  rw [run, run, Options.limit_of_pos hm hbounded, Options.limit_of_nonpos hunbounded,
    Source.scan_of_fits hm hlength hmark h]
  exact Run.overScanned_congr hpolicy hcancel _

/-- **A run with a line out of reach of its bound** is as far as that line the run without a
bound. -/
theorem run_of_exceeds {data : Bytes} {m : Nat} {unbounded : Int} (hm : 0 < m)
    (hunbounded : unbounded ≤ 0) (hlength : 3 ≤ data.length)
    (hmark : ∀ order : ByteOrder, ¬ order.mark <+: data)
    (hexceeds : ∃ cut ∈ cuts (Bytes.withoutStart utf8Mark data), m < cut.reach)
    (transform : Transform) (onEmpty : Bytes) (chunk : Nat) (sink : Sink)
    (hr : sink.room = none) :
    let all := cuts (Bytes.withoutStart utf8Mark data)
    let before := (all.takeWhile fun cut => cut.reach ≤ m).map Cut.line
    let limited :=
      run transform { onEmpty := Policy.ofWord onEmpty, maxLineBytes := m } { data, chunk } sink
    let unlimited := run transform { onEmpty := Policy.ofWord onEmpty, maxLineBytes := unbounded }
      { data, chunk } sink
    let earlier := unlimited.failure ≠ none ∧ unlimited.stats.linesRead ≤ before.length
    (earlier → limited = unlimited) ∧
      (¬ earlier →
        limited.sink.accepted = sink.accepted ++ Reference.emitted transform onEmpty before ∧
        limited.stats = Reference.tally transform onEmpty before ∧
        limited.failure = some (.io Fault.reading [] .lineTooLong)) := by
  intro all before limited unlimited earlier
  let options : Options := { onEmpty := Policy.ofWord onEmpty, maxLineBytes := unbounded }
  let others := (all.dropWhile fun cut => cut.reach ≤ m).map Cut.line
  have hlimited : limited
      = Run.overScanned transform options sink ⟨before, some .lineTooLong⟩ := by
    have hscan : (Source.decode { data, chunk }).scan (some m) = ⟨before, some .lineTooLong⟩ :=
      Source.scan_of_exceeds hm hlength hmark hexceeds
    change Run.overScanned _ _ _ (Stream.scan (Options.limit _) _) = _
    rw [Options.limit_of_pos hm rfl, hscan]
    apply Run.overScanned_congr <;> rfl
  have hunlimited : unlimited
      = Run.overScanned transform options sink ⟨before ++ others, none⟩ := by
    have htext : decodeText data = Bytes.withoutStart utf8Mark data := by
      rw [decodeText, Bytes.afterStart?_eq_none (hmark .little),
        Bytes.afterStart?_eq_none (hmark .big)]
    have hlines : lines (decodeText data) = before ++ others := by
      rw [htext, lines_eq_cuts, ← List.map_append, List.takeWhile_append_dropWhile]
    change Run.overScanned _ _ _ (Stream.scan (Options.limit _) _) = _
    rw [Options.limit_of_nonpos hunbounded, Source.scan_decode, hlines]
  have hearlier : earlier ↔
      ∃ line ∈ before, (Reference.verdict transform onEmpty line).isStop = true := by
    change unlimited.failure ≠ none ∧ unlimited.stats.linesRead ≤ before.length ↔ _
    rw [hunlimited]
    exact Reference.ends_within_iff rfl rfl hr others
  rw [hearlier, hlimited]
  constructor
  · intro hstop
    rw [hunlimited]
    exact Run.overScanned_eq_of_exists rfl rfl hr hstop others _ _
  · intro hgo
    apply Reference.overScanned_of_kept options sink ⟨before, some .lineTooLong⟩ rfl rfl hr
    apply Reference.kept_of_forall
    simpa using hgo

/-- **A run with a bound is a run in any window** that can grow to the bound. -/
theorem run_eq_of_window {source : Source} {m : Nat} (hm : 0 < m)
    (hlength : 3 ≤ source.data.length)
    (hmark : ∀ order : ByteOrder, ¬ order.mark <+: source.data)
    (hfailure : source.failure = none) (transform : Transform) {options : Options}
    (hbounded : options.maxLineBytes = m) (sink : Sink) (w : Window m) (most : Nat → Nat)
    (hw : w.held = []) :
    run transform options source sink = Run.overScanned transform options sink
      (w.scan most false (Bytes.withoutStart utf8Mark source.data)) := by
  have hscan := w.scan_eq most false (Bytes.withoutStart utf8Mark source.data)
    fun hended => absurd hended Bool.false_ne_true
  rw [run, Options.limit_of_pos hm hbounded, Source.scan_eq_bounded hm hlength hmark hfailure,
    hscan, hw, List.nil_append]

/-- **The bound on lines is exact**, wherever a line stands. The text is any of at least three
bytes without a mark of UTF-16. If all its lines are within reach of the bound, the run ends as one
without a bound does. If not, and if the run without a bound does not end with a failure at one of
the lines before the first that is out of reach, then these lines are taken, what they come to
is written and counted, and the run fails to read. This is so in every window that can grow to the
bound, however large it is at first and whatever its reads deliver. -/
theorem run_limit_exact (transform : Transform) (onEmpty data held : Bytes) (chunk m : Nat)
    (unbounded : Int) (full : Fault) (hm : 0 < m) (hunbounded : unbounded ≤ 0)
    (hlength : 3 ≤ data.length) (hmark : ∀ order : ByteOrder, ¬ order.mark <+: data) :
    let text := Bytes.withoutStart utf8Mark data
    let all := cuts text
    let before := (all.takeWhile fun cut => cut.reach ≤ m).map Cut.line
    let source : Source := { data, chunk }
    let sink : Sink := { accepted := held, failure := full }
    let options : Options := { onEmpty := Policy.ofWord onEmpty, maxLineBytes := m }
    let limited := run transform options source sink
    let unlimited :=
      run transform { onEmpty := Policy.ofWord onEmpty, maxLineBytes := unbounded } source sink
    let earlier := unlimited.failure ≠ none ∧ unlimited.stats.linesRead ≤ before.length
    ((∀ cut ∈ all, cut.reach ≤ m) → limited = unlimited) ∧
      ((∃ cut ∈ all, m < cut.reach) →
        (earlier → limited = unlimited) ∧
        (¬ earlier →
          limited.sink.accepted = held ++ Reference.emitted transform onEmpty before ∧
          limited.stats = Reference.tally transform onEmpty before ∧
          limited.failure = some (.io Fault.reading [] .lineTooLong))) ∧
      ∀ (w : Window m) (most : Nat → Nat), w.held = [] →
        limited = Run.overScanned transform options sink (w.scan most false text) := by
  intro text all before source sink options limited unlimited earlier
  refine ⟨fun hfits => ?_, fun hexceeds => ?_, fun w most hw => ?_⟩
  · exact run_eq_of_fits hm hlength hmark hfits transform sink rfl rfl rfl hunbounded
  · exact run_of_exceeds hm hunbounded hlength hmark hexceeds transform onEmpty chunk sink rfl
  · exact run_eq_of_window hm hlength hmark rfl transform rfl sink w most hw

/-- Five bytes are enough for all lines, and the mark in front of them does not count. With four,
the line that ends in a carriage return and a line feed just fits, and the next one does not; nor
does it in a window of one byte at first, which is read into by twos. -/
theorem run_limit_exact_boundary :
    let source : Source := { data := utf8Mark ++ utf8 "10\r\n1111\n101", chunk := 3 }
    let limited (m : Nat) := run Transform.binary { maxLineBytes := m } source {}
    limited 5 = run Transform.binary {} source {} ∧
      (limited 4).sink.accepted = utf8 "2\n" ∧ (limited 4).stats.linesRead = 1 ∧
      (limited 4).failure = some (.io Fault.reading [] .lineTooLong) ∧
      limited 4 = Run.overScanned Transform.binary { maxLineBytes := 4 } {}
        (Window.scan (fun _ => 2) (⟨[], 0, 1, by decide, by decide, by decide⟩ : Window 4) false
          (Bytes.withoutStart utf8Mark source.data)) := by
  intro source limited
  have hlength : 3 ≤ source.data.length := by decide
  have hmark : ∀ order : ByteOrder, ¬ order.mark <+: source.data := by
    rintro (_ | _) <;> decide
  have hcuts : cuts (Bytes.withoutStart utf8Mark source.data)
      = [⟨utf8 "10", .returnFeed, utf8 "1111\n101"⟩, ⟨utf8 "1111", .lineFeed, utf8 "101"⟩,
        ⟨utf8 "101", .endOfText, []⟩] := by
    have hfirst : cut? true (Bytes.withoutStart utf8Mark source.data)
        = some ⟨utf8 "10", .returnFeed, utf8 "1111\n101"⟩ := by decide
    have hsecond : cut? true (utf8 "1111\n101")
        = some ⟨utf8 "1111", .lineFeed, utf8 "101"⟩ := by decide
    have hthird : cut? true (utf8 "101") = some ⟨utf8 "101", .endOfText, []⟩ := by decide
    rw [cuts_of_some hfirst, cuts_of_some hsecond, cuts_of_some hthird, cuts_nil]
  obtain ⟨hfits, -⟩ := run_limit_exact Transform.binary [] source.data [] 3 5 0 .unstated
    (by decide) (by decide) hlength hmark
  obtain ⟨-, hexceeds, hwindow⟩ := run_limit_exact Transform.binary [] source.data [] 3 4 0
    .unstated (by decide) (by decide) hlength hmark
  rw [hcuts] at hfits hexceeds
  have hunlimited : (run Transform.binary
      { onEmpty := Policy.ofWord [], maxLineBytes := 0 } source {}).failure = none := by
    have hkept : Reference.kept Transform.binary [] (lines (decodeText source.data))
        = lines (decodeText source.data) := by decide
    rw [run, Options.limit_of_nonpos (Int.le_refl 0), Source.scan_decode]
    exact (Reference.overScanned_of_kept _ _ ⟨_, none⟩ rfl rfl rfl hkept).2.2
  obtain ⟨haccepted, hstats, hfailure⟩ :=
    (hexceeds (by decide)).2 fun hearlier => hearlier.1 hunlimited
  refine ⟨hfits (by decide), haccepted.trans (by decide), ?_, hfailure, hwindow _ _ rfl⟩
  exact (congrArg Stats.linesRead hstats).trans (by decide)

end Linewise

import Linewise.Proofs.Balance
import Linewise.Proofs.LimitedRoom
import Linewise.Proofs.LineLimit

/-!
# What a failing source has delivered

A source that fails reports it after the bytes it has delivered. Of a text that is not in
UTF-16 and long enough to tell, the decoder holds nothing back, so a scan finds the lines it
would find if the source had ended there, and then a failure. A run does the same with these
lines. What the source failed with shows only if neither a line nor the bound on lines has
ended the run before.

## Main results

* `Source.scan_of_failing`: a scan of a source that fails, by one that ends there
* `Run.overScanned_of_failing`: a run over lines that are followed by a failure
* `failure_run_of_failing`: a source that fails makes every run fail
* `run_failingAfter_exact`: whole runs
-/

namespace Linewise

/-! ## Scans -/

/-- **A source that fails is scanned as one that ends** after the same bytes. Its failure is found
unless a line was too long before. -/
theorem Source.scan_of_failing {limit : Limit} (hl : limit ≠ some 0) {data : Bytes}
    (hlength : 3 ≤ data.length) (hmark : ∀ order : ByteOrder, ¬ order.mark <+: data)
    (chunk chunk' : Nat) (fault : Fault) :
    let ended := (Source.decode { data, chunk }).scan limit
    (Source.decode { data, chunk := chunk', failure := some fault }).scan limit
      = ⟨ended.lines, some (ended.failure.getD fault)⟩ := by
  intro ended
  let failing : Source := { data, chunk := chunk', failure := some fault }
  let regular : Source := { data, chunk }
  have hpieces : failing.decode.pieces.flatten = regular.decode.pieces.flatten := by
    rw [flatten_pieces_decode, flatten_pieces_decode]
  have hcontents : failing.decode.contents = regular.decode.contents := by
    rw [contents_of_unmarked hlength hmark, contents_of_unmarked hlength hmark]
  change failing.decode.scan limit = _
  have hended : ended = regular.decode.scan limit := rfl
  rw [hended, Stream.scan_eq hl, Stream.scan_eq hl, hpieces, hcontents, failure_decode,
    failure_decode]
  split_ifs
  · rfl
  · rfl
  · rfl

/-! ## Runs -/

namespace Run

variable (transform : Transform) (options : Options) {sink : Sink}

/-- **A failure after the last line** shows in the outcome of a run that would have ended well, and
in no other. Of the log it takes the entry on the regular end. -/
theorem overScanned_of_failing (hr : sink.room = none) (scanned : Scanned) (fault : Fault) :
    let ended := overScanned transform options sink scanned
    let failing := overScanned transform options sink
      ⟨scanned.lines, some (scanned.failure.getD fault)⟩
    (ended.failure ≠ none → failing = ended) ∧
      (ended.failure = none →
        failing.failure = some (.io Fault.reading [] fault) ∧ failing.sink = ended.sink ∧
        failing.stats = ended.stats ∧ ended.log = failing.log ++ [endEntry ended.stats]) := by
  intro ended failing
  have hsteady : (begin transform sink).writer.Steady := ⟨rfl, hr⟩
  rcases hover : overLines transform options (begin transform sink) scanned.lines
    with ⟨state, _ | stop⟩
  · have hsteady' : state.writer.Steady := by
      have hlast := (overLines_of_steady transform options hsteady scanned.lines).1
      rwa [hover] at hlast
    cases hscanned : scanned.failure with
    | some earlier =>
      have hsame : failing = ended := by
        simp only [failing, ended, overScanned, hover, hscanned, Option.getD_some]
      have hfailure : ended.failure ≠ none := by
        simp only [ended, overScanned, hover, hscanned, finish]
        simp
      exact ⟨fun _ => hsame, fun hnone => absurd hnone hfailure⟩
    | none =>
      have hfailing : failing = finish state (some (.io Fault.reading [] fault)) := by
        simp only [failing, overScanned, hover, hscanned, Option.getD_none]
      have hended : ended
          = finish { state with logged := endEntry state.stats :: state.logged } none := by
        simp only [ended, overScanned, hover, hscanned]
      have hlogged : { state with
          logged := endEntry state.stats :: state.logged }.writer.Steady := hsteady'
      have hnone : ended.failure = none := by
        rw [hended]
        exact (Reference.finish_of_steady hlogged none).2
      refine ⟨fun hsome => absurd hnone hsome, fun _ => ?_⟩
      rw [hfailing, hended]
      refine ⟨(Reference.finish_of_steady hsteady' _).2, rfl, rfl, ?_⟩
      simp only [finish, List.reverse_cons]
  · have hsame : failing = ended := by
      simp only [failing, ended, overScanned, hover]
    have hfailure : ended.failure ≠ none := by
      simp only [ended, overScanned, hover, finish]
      simp
    exact ⟨fun _ => hsame, fun hnone => absurd hnone hfailure⟩

theorem failure_overScanned {scanned : Scanned} (h : scanned.failure ≠ none) :
    (overScanned transform options sink scanned).failure ≠ none := by
  obtain ⟨fault, hfault⟩ := Option.ne_none_iff_exists'.mp h
  rw [overScanned]
  rcases overLines transform options (begin transform sink) scanned.lines with ⟨state, _ | stop⟩
  · simp [hfault, finish]
  · simp [finish]

end Run

/-- **A source that fails makes every run fail**, whatever else happens to it. -/
theorem failure_run_of_failing (transform : Transform) (options : Options) {source : Source}
    (h : source.failure ≠ none) (sink : Sink) :
    (run transform options source sink).failure ≠ none := by
  apply Run.failure_overScanned
  rcases source.decode.failure_scan options.limit with hlong | hsame
  · rw [hlong]
    exact Option.some_ne_none _
  · rwa [hsame, Source.failure_decode]

/-- **A read failure is reported after just what was delivered**, whatever the transformation, the
policy, the bound on lines, the sizes of the reads and the point where the run is called off, for a
sink that does not fail. The text is not in UTF-16, and at least three bytes of it arrive. The run
whose source fails after `n` bytes writes and counts what the run does whose source ends there, and
it fails as that one does. If that one ends well, it fails with the failure of the source, and all
that is missing from its log is the entry on the regular end. -/
theorem run_failingAfter_exact (transform : Transform) (options : Options) (data held : Bytes)
    (n chunk chunk' : Nat) (full fault : Fault) (hlength : 3 ≤ min n data.length)
    (hmark : ∀ order : ByteOrder, ¬ order.mark <+: data) :
    let sink : Sink := { accepted := held, failure := full }
    let ended := run transform options { data := data.take n, chunk } sink
    let failing := run transform options (Source.failingAfter n data chunk' fault) sink
    failing.sink = ended.sink ∧ failing.stats = ended.stats ∧
      failing.failure = some (ended.failure.getD (.io Fault.reading [] fault)) ∧
      (ended.failure ≠ none → failing.log = ended.log) ∧
      (ended.failure = none → ended.log = failing.log ++ [Run.endEntry ended.stats]) ∧
      ∀ (anyOptions : Options) (source : Source) (anySink : Sink), source.failure ≠ none →
        (run transform anyOptions source anySink).failure ≠ none := by
  intro sink ended failing
  have hlength' : 3 ≤ (data.take n).length := by
    rwa [List.length_take]
  have hmark' : ∀ order : ByteOrder, ¬ order.mark <+: data.take n := by
    intro order hstart
    exact hmark order (hstart.trans (List.take_prefix n data))
  have hscan : (Source.failingAfter n data chunk' fault).decode.scan options.limit = _ :=
    Source.scan_of_failing options.limit_ne_zero hlength' hmark' chunk chunk' fault
  have hrun : failing = Run.overScanned transform options sink _ :=
    congrArg (Run.overScanned transform options sink) hscan
  have hroom : sink.room = none := rfl
  obtain ⟨hfailed, hwell⟩ := Run.overScanned_of_failing transform options hroom
    ((Source.decode { data := data.take n, chunk }).scan options.limit) fault
  rw [← hrun] at hfailed hwell
  change (ended.failure ≠ none → failing = ended) at hfailed
  have hall : ∀ (anyOptions : Options) (source : Source) (anySink : Sink), source.failure ≠ none →
      (run transform anyOptions source anySink).failure ≠ none :=
    fun anyOptions source anySink h => failure_run_of_failing transform anyOptions h anySink
  by_cases hended : ended.failure = none
  · obtain ⟨hfailure, hsink, hstats, hlog⟩ := hwell hended
    refine ⟨hsink, hstats, ?_, fun hsome => absurd hended hsome, fun _ => hlog, hall⟩
    rw [hfailure, hended, Option.getD_none]
  · have hsame := hfailed hended
    refine ⟨by rw [hsame], by rw [hsame], ?_, fun _ => by rw [hsame],
      fun hnone => absurd hnone hended, hall⟩
    obtain ⟨other, hother⟩ := Option.ne_none_iff_exists'.mp hended
    rw [hsame, hother, Option.getD_some]

/-- Six bytes arrive, the last two of them in a line that would go on: the piece is decoded like the
line before it, and then the failure of the source is reported. -/
theorem run_failingAfter_exact_cut :
    let data := utf8 "10\r\n1x1\n0"
    let boom := Fault.other (utf8 "boom")
    let failing := run Transform.binary {} (Source.failingAfter 6 data 4 boom) {}
    3 ≤ min 6 data.length ∧ (∀ order : ByteOrder, ¬ order.mark <+: data) ∧
      failing.sink.accepted = utf8 "2\n1\n" ∧ failing.stats = ⟨utf8 "binary", 2, 2, 0, 4, 0⟩ ∧
      failing.failure = some (.io Fault.reading [] boom) := by
  intro data boom failing
  have hlength : 3 ≤ min 6 data.length := by decide
  have hmark : ∀ order : ByteOrder, ¬ order.mark <+: data := by
    rintro (_ | _) <;> decide
  obtain ⟨hsink, hstats, hfailure, -⟩ :=
    run_failingAfter_exact Transform.binary {} data [] 6 0 4 .unstated boom hlength hmark
  have hended : run Transform.binary {} { data := data.take 6 } {}
      = Run.overScanned Transform.binary {} {} ⟨[utf8 "10", utf8 "1x"], none⟩ := by
    have hlines : lines (decodeText (data.take 6)) = [utf8 "10", utf8 "1x"] := by decide
    rw [run, Options.limit_of_nonpos (Int.le_refl 0), Source.scan_decode, hlines]
  have hkept : Reference.kept Transform.binary [] [utf8 "10", utf8 "1x"]
      = [utf8 "10", utf8 "1x"] := by decide
  obtain ⟨haccepted, htally, hnone⟩ :=
    Reference.overScanned_of_kept {} {} ⟨_, none⟩ rfl rfl rfl hkept
  rw [hended] at hsink hstats hfailure
  refine ⟨hlength, hmark, ?_, ?_, ?_⟩
  · rw [congrArg Sink.accepted hsink, haccepted]
    decide
  · rw [hstats, htally]
    decide
  · rw [hfailure, hnone]
    rfl

end Linewise

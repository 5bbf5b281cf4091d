import Mathlib.Data.List.TakeDrop
import Linewise.Proofs.Decoding
import Linewise.Proofs.LineBuffer
import Linewise.Proofs.Run
import Linewise.Proofs.Writer

/-!
# The line-by-line meaning of a run

What a run does, said without its machinery: every line has a verdict of its own,
the run ends at the first line whose verdict is to stop, and the lines before it
decide the output and the counters. A run that decodes, buffers, scans and writes
in pieces does exactly this, on the lines of the decoded text.

## Main definitions

* `Reference.Verdict`, `Reference.verdict`: what a line comes to
* `Reference.stopIndex`: the number of the line that ends the run
* `Reference.kept`, `Reference.output`: the lines before it, and what is written for them
* `Reference.Agrees`: a state has taken some lines and done with them what they come to

## Main results

* `Reference.Agrees.step`, `Reference.Agrees.step_stop`: one line
* `Reference.Agrees.overLines`: all lines up to the one that ends the run
* `Reference.output_prefix_append`: more lines only lengthen the output
* `Reference.accepted_overScanned`: the output of a run over scanned lines
* `accepted_run`, `run_eq_reference`: a whole run
-/

namespace Linewise.Reference

/-! ## Verdicts -/

/-- **What a line comes to.** -/
inductive Verdict where
  /-- A result is written. -/
  | emit (result : Bytes)
  /-- Nothing is written. -/
  | leaveOut
  /-- The run ends. -/
  | stop (cause : Fault)
deriving DecidableEq

/-- The result that is written, if one is. -/
def Verdict.result? : Verdict → Option Bytes
  | emit result => some result
  | _ => none

/-- Is the line left out? -/
def Verdict.isLeftOut : Verdict → Bool
  | leaveOut => true
  | _ => false

/-- Does the run end? -/
def Verdict.isStop : Verdict → Bool
  | stop _ => true
  | _ => false

theorem Verdict.isStop_iff {v : Verdict} : v.isStop = true ↔ ∃ cause, v = stop cause := by
  cases v <;> simp [isStop]

section Meaning

variable (transform : Transform) (onEmpty : Bytes)

/-- **The verdict on a line.** A failure of the transformation ends the run, unless its chain
holds a line without binary digits and the word for such lines is exactly `skip` or `zero`. -/
def verdict (line : Bytes) : Verdict :=
  match transform.apply line with
  | .ok result => .emit result
  | .error cause =>
    if Fault.emptyNumeral ∈ cause.chain then
      if onEmpty = utf8 "skip" then .leaveOut
      else if onEmpty = utf8 "zero" then .emit (utf8 "0")
      else .stop cause
    else .stop cause

/-- **The number of the line that ends the run**, counted from one; one more than there are lines
if none does. -/
def stopIndex (ls : List Bytes) : Nat :=
  ls.findIdx (fun line => (verdict transform onEmpty line).isStop) + 1

/-- The lines before the one that ends the run. -/
def kept (ls : List Bytes) : List Bytes :=
  ls.take (stopIndex transform onEmpty ls - 1)

/-- The results written for some lines, in order. -/
def results (ls : List Bytes) : List Bytes :=
  ls.filterMap fun line => (verdict transform onEmpty line).result?

/-- How many of some lines are left out. -/
def leftOut (ls : List Bytes) : Nat :=
  ls.countP fun line => (verdict transform onEmpty line).isLeftOut

/-- What is written for some lines: each result and a line feed. -/
def emitted (ls : List Bytes) : Bytes :=
  (results transform onEmpty ls).flatMap (· ++ [Bytes.lineFeed])

/-- **The output of a run over some lines.** -/
def output (ls : List Bytes) : Bytes :=
  emitted transform onEmpty (kept transform onEmpty ls)

/-- The counters after some lines, none of which ended the run. -/
def tally (ls : List Bytes) : Stats where
  transform := transform.name
  linesRead := ls.length
  linesWritten := (results transform onEmpty ls).length
  linesSkipped := leftOut transform onEmpty ls
  bytesWritten := (emitted transform onEmpty ls).length

end Meaning

section Counting

variable {transform : Transform} {onEmpty line : Bytes}

theorem results_append (ls ms : List Bytes) :
    results transform onEmpty (ls ++ ms)
      = results transform onEmpty ls ++ results transform onEmpty ms :=
  List.filterMap_append

theorem emitted_append (ls ms : List Bytes) :
    emitted transform onEmpty (ls ++ ms)
      = emitted transform onEmpty ls ++ emitted transform onEmpty ms := by
  rw [emitted, results_append, List.flatMap_append]
  rfl

theorem results_of_emit {result : Bytes} (h : verdict transform onEmpty line = .emit result) :
    results transform onEmpty [line] = [result] := by
  simp [results, h, Verdict.result?]

theorem emitted_of_emit {result : Bytes} (h : verdict transform onEmpty line = .emit result) :
    emitted transform onEmpty [line] = result ++ [Bytes.lineFeed] := by
  simp [emitted, results_of_emit h]

theorem emitted_of_leaveOut (h : verdict transform onEmpty line = .leaveOut) :
    emitted transform onEmpty [line] = [] := by
  simp [emitted, results, h, Verdict.result?]

/-- The counters after one more line with a result. -/
theorem tally_snoc_of_emit {result : Bytes} (h : verdict transform onEmpty line = .emit result)
    (ls : List Bytes) :
    tally transform onEmpty (ls ++ [line])
      = { tally transform onEmpty ls with
          linesRead := ls.length + 1
          linesWritten := (tally transform onEmpty ls).linesWritten + 1
          bytesWritten := (tally transform onEmpty ls).bytesWritten + (result.length + 1) } := by
  simp [tally, results_append, emitted_append, results_of_emit h, emitted_of_emit h, leftOut, h,
    Verdict.isLeftOut]

/-- The counters after one more line that is left out. -/
theorem tally_snoc_of_leaveOut (h : verdict transform onEmpty line = .leaveOut)
    (ls : List Bytes) :
    tally transform onEmpty (ls ++ [line])
      = { tally transform onEmpty ls with
          linesRead := ls.length + 1
          linesSkipped := (tally transform onEmpty ls).linesSkipped + 1 } := by
  simp [tally, emitted_append, emitted_of_leaveOut h, results, leftOut, h, Verdict.isLeftOut,
    Verdict.result?]

end Counting

/-! ## One line -/

/-- **A state has taken some lines**: it has written what they come to after what the sink held,
and has counted them. -/
structure Agrees (transform : Transform) (onEmpty held : Bytes) (taken : List Bytes)
    (state : Run.State) : Prop where
  /-- Nothing has failed. -/
  steady : state.writer.Steady
  /-- The output is that of the lines. -/
  contents : state.writer.contents = held ++ emitted transform onEmpty taken
  /-- The counters are those of the lines. -/
  stats : state.stats = tally transform onEmpty taken

section Step

variable {transform : Transform} {options : Options} {onEmpty held line : Bytes}
  {taken : List Bytes} {state : Run.State}

/-- A result is written and counted. -/
theorem Agrees.emit (h : Agrees transform onEmpty held taken state) {result : Bytes}
    (hv : verdict transform onEmpty line = .emit result) (logged : List Log.Entry) :
    ∃ next, { state.counted with logged }.emit result = (next, none) ∧
      Agrees transform onEmpty held (taken ++ [line]) next := by
  refine ⟨_, Run.emit_of_written (h.steady.put _).failure, h.steady.put _, ?_, ?_⟩
  · refine (h.steady.contents_put _).trans ?_
    rw [h.contents, emitted_append, emitted_of_emit hv, List.append_assoc]
  · simp only [Run.State.counted, h.stats, tally_snoc_of_emit hv]
    rfl

/-- **One line that does not end the run.** -/
theorem Agrees.step (hp : options.onEmpty = Policy.ofWord onEmpty)
    (hc : options.cancellation = none) (h : Agrees transform onEmpty held taken state)
    (hv : (verdict transform onEmpty line).isStop = false) :
    ∃ next, Run.step transform options state line = (next, none) ∧
      Agrees transform onEmpty held (taken ++ [line]) next := by
  have hc' := Run.calledOff?_none hc state.stats
  cases ha : transform.apply line with
  | ok result =>
    have hv' : verdict transform onEmpty line = .emit result := by simp only [verdict, ha]
    rw [Run.step_of_ok hc' ha]
    exact h.emit hv' state.logged
  | error cause =>
    simp only [verdict, ha] at hv
    split_ifs at hv with he hskip hzero
    · -- no digits, and such lines are left out
      have hv' : verdict transform onEmpty line = .leaveOut := by
        simp only [verdict, ha, if_pos he, if_pos hskip]
      have hp' : options.onEmpty = .skip := hp.trans (if_pos hskip)
      rw [Run.step_of_skip hc' ha he hp']
      refine ⟨_, rfl, h.steady, ?_, ?_⟩
      · rw [emitted_append, emitted_of_leaveOut hv', List.append_nil]
        exact h.contents
      · simp only [Run.State.counted, h.stats, tally_snoc_of_leaveOut hv']
        rfl
    · -- no digits, and such lines count as zero
      have hv' : verdict transform onEmpty line = .emit (utf8 "0") := by
        simp only [verdict, ha, if_pos he, if_neg hskip, if_pos hzero]
      have hp' : options.onEmpty = .zero := hp.trans ((if_neg hskip).trans (if_pos hzero))
      rw [Run.step_of_zero hc' ha he hp']
      exact h.emit hv' _
    -- the other two verdicts end the run
    · simp [Verdict.isStop] at hv
    · simp [Verdict.isStop] at hv

/-- A line ends the run by a failure of the transformation that is not tolerated. -/
theorem of_verdict_stop {cause : Fault} (hv : verdict transform onEmpty line = .stop cause) :
    transform.apply line = .error cause ∧
      (Fault.emptyNumeral ∉ cause.chain ∨ Policy.ofWord onEmpty = .fail) := by
  cases ha : transform.apply line with
  | ok result => simp [verdict, ha] at hv
  | error reason =>
    simp only [verdict, ha] at hv
    split_ifs at hv with he hskip hzero
    · obtain rfl := Verdict.stop.inj hv
      exact ⟨rfl, .inr ((if_neg hskip).trans (if_neg hzero))⟩
    · obtain rfl := Verdict.stop.inj hv
      exact ⟨rfl, .inl he⟩

/-- **The line that ends the run** is counted, and nothing else happens to the state. -/
theorem Agrees.step_stop (hp : options.onEmpty = Policy.ofWord onEmpty)
    (hc : options.cancellation = none) (h : Agrees transform onEmpty held taken state)
    {cause : Fault} (hv : verdict transform onEmpty line = .stop cause) :
    Run.step transform options state line
      = (state.counted, some (.parse transform.name (taken.length + 1) line cause)) := by
  obtain ⟨ha, hs⟩ := of_verdict_stop hv
  rw [Run.step_of_stop (Run.calledOff?_none hc state.stats) ha (hp ▸ hs), h.stats]
  rfl

/-! ## All lines -/

/-- **Lines that do not end the run**, one after the other. -/
theorem Agrees.overLines (hp : options.onEmpty = Policy.ofWord onEmpty)
    (hc : options.cancellation = none) (h : Agrees transform onEmpty held taken state)
    {ls : List Bytes} (hls : ∀ line ∈ ls, (verdict transform onEmpty line).isStop = false) :
    ∃ next, Run.overLines transform options state ls = (next, none) ∧
      Agrees transform onEmpty held (taken ++ ls) next := by
  induction ls generalizing taken state with
  | nil => exact ⟨state, rfl, by simpa using h⟩
  | cons line ls ih =>
    obtain ⟨next, hstep, hnext⟩ := h.step hp hc (hls line List.mem_cons_self)
    obtain ⟨last, hover, hlast⟩ := ih hnext fun m hm => hls m (List.mem_cons_of_mem line hm)
    refine ⟨last, ?_, by simpa using hlast⟩
    simp only [Run.overLines, hstep, hover]

/-- **A run over lines that goes through** has met none that ends it, and has taken them all. -/
theorem Agrees.of_overLines (hp : options.onEmpty = Policy.ofWord onEmpty)
    (hc : options.cancellation = none) (h : Agrees transform onEmpty held taken state)
    {ls : List Bytes} {last : Run.State}
    (hover : Run.overLines transform options state ls = (last, none)) :
    (∀ line ∈ ls, (verdict transform onEmpty line).isStop = false) ∧
      Agrees transform onEmpty held (taken ++ ls) last := by
  induction ls generalizing taken state with
  | nil =>
    obtain rfl : state = last := congrArg Prod.fst hover
    exact ⟨by simp, by simpa using h⟩
  | cons line ls ih =>
    cases hv : verdict transform onEmpty line with
    | stop cause => simp [Run.overLines, h.step_stop hp hc hv] at hover
    | emit _ | leaveOut =>
      have hgo : (verdict transform onEmpty line).isStop = false := by
        rw [hv]
        rfl
      obtain ⟨next, hstep, hnext⟩ := h.step hp hc hgo
      simp only [Run.overLines, hstep] at hover
      obtain ⟨hls, hlast⟩ := ih hnext hover
      exact ⟨List.forall_mem_cons.mpr ⟨hgo, hls⟩, by simpa using hlast⟩

end Step

section Stop

variable (transform : Transform) (onEmpty : Bytes) (ls : List Bytes)

/-- No line before the one that ends the run ends it. -/
theorem isStop_of_mem_kept {line : Bytes} (h : line ∈ kept transform onEmpty ls) :
    (verdict transform onEmpty line).isStop = false := by
  rw [kept, stopIndex, Nat.add_sub_cancel] at h
  obtain ⟨i, hi, rfl⟩ := List.mem_take_iff_getElem.mp h
  have hlt : i < ls.findIdx fun line => (verdict transform onEmpty line).isStop := by omega
  simpa using List.not_of_lt_findIdx hlt

/-- **Either no line ends the run**, and all are kept, **or one does**, and the kept ones are those
before it. -/
theorem kept_cases :
    (kept transform onEmpty ls = ls ∧ stopIndex transform onEmpty ls = ls.length + 1) ∨
      ∃ line rest cause, ls = kept transform onEmpty ls ++ line :: rest ∧
        verdict transform onEmpty line = .stop cause ∧
        stopIndex transform onEmpty ls = (kept transform onEmpty ls).length + 1 := by
  set stops : Bytes → Bool := fun line => (verdict transform onEmpty line).isStop
  have hindex : stopIndex transform onEmpty ls = ls.findIdx stops + 1 := rfl
  have hkept : kept transform onEmpty ls = ls.take (ls.findIdx stops) := rfl
  rcases Nat.lt_or_ge (ls.findIdx stops) ls.length with hlt | hge
  · right
    have hstop : stops ls[ls.findIdx stops] = true := List.findIdx_getElem
    obtain ⟨cause, hcause⟩ := Verdict.isStop_iff.mp hstop
    refine ⟨ls[ls.findIdx stops], ls.drop (ls.findIdx stops + 1), cause, ?_, hcause, ?_⟩
    · rw [hkept, ← List.drop_eq_getElem_cons hlt, List.take_append_drop]
    · rw [hindex, hkept, List.length_take, Nat.min_eq_left hlt.le]
  · left
    have heq : ls.findIdx stops = ls.length := Nat.le_antisymm List.findIdx_le_length hge
    rw [hkept, hindex, heq]
    exact ⟨List.take_length, rfl⟩

theorem kept_of_forall (h : ∀ line ∈ ls, (verdict transform onEmpty line).isStop = false) :
    kept transform onEmpty ls = ls := by
  rw [kept, stopIndex, Nat.add_sub_cancel, List.findIdx_eq_length_of_false h, List.take_length]

/-- The run ends within some lines, whatever follows them, just if one of them ends it. -/
theorem stopIndex_append_le_iff (ms : List Bytes) :
    stopIndex transform onEmpty (ls ++ ms) ≤ ls.length ↔
      ∃ line ∈ ls, (verdict transform onEmpty line).isStop = true := by
  rw [← List.findIdx_lt_length, stopIndex, List.findIdx_append]
  split_ifs <;> omega

/-- What follows lines none of which ends the run has an output of its own. -/
theorem output_append_of_forall (ms : List Bytes)
    (h : ∀ line ∈ ls, (verdict transform onEmpty line).isStop = false) :
    output transform onEmpty (ls ++ ms)
      = emitted transform onEmpty ls ++ output transform onEmpty ms := by
  have hindex := List.findIdx_eq_length_of_false h
  rw [output, kept, stopIndex, Nat.add_sub_cancel, List.findIdx_append, hindex,
    if_neg (Nat.lt_irrefl _), Nat.add_comm, List.take_length_add_append, emitted_append]
  rfl

/-- What follows a line that ends the run does not matter. -/
theorem output_append_of_exists (ms : List Bytes)
    (h : ∃ line ∈ ls, (verdict transform onEmpty line).isStop = true) :
    output transform onEmpty (ls ++ ms) = output transform onEmpty ls := by
  have hindex : ls.findIdx (fun line => (verdict transform onEmpty line).isStop) < ls.length :=
    List.findIdx_lt_length.mpr h
  rw [output, kept, stopIndex, Nat.add_sub_cancel, List.findIdx_append, if_pos hindex,
    List.take_append_of_le_length hindex.le]
  rfl

/-- **More lines only lengthen the output.** -/
theorem output_prefix_append (ms : List Bytes) :
    output transform onEmpty ls <+: output transform onEmpty (ls ++ ms) := by
  by_cases h : ∃ line ∈ ls, (verdict transform onEmpty line).isStop = true
  · refine ⟨[], ?_⟩
    rw [List.append_nil, output_append_of_exists transform onEmpty ls ms h]
  · have h' : ∀ line ∈ ls, (verdict transform onEmpty line).isStop = false := by
      simpa using h
    have hnil := output_append_of_forall transform onEmpty ls [] h'
    rw [List.append_nil] at hnil
    rw [hnil, output_append_of_forall transform onEmpty ls ms h', List.prefix_append_right_inj]
    exact List.nil_prefix

end Stop

/-! ## Runs -/

section Run

variable {transform : Transform} {onEmpty : Bytes} (options : Options) (sink : Sink)
  (scanned : Scanned)

/-- Before the first line nothing is written or counted. -/
theorem agrees_begin {sink : Sink} (hr : sink.room = none) :
    Agrees transform onEmpty sink.accepted [] (Run.begin transform sink) :=
  ⟨⟨rfl, hr⟩, rfl, rfl⟩

/-- A run that is over leaves what it has written in the sink. -/
theorem finish_of_steady {state : Run.State} (h : state.writer.Steady) (failure : Option Fault) :
    (Run.finish state failure).sink.accepted = state.writer.contents ∧
      (Run.finish state failure).failure = failure := by
  obtain ⟨haccepted, hfailure⟩ := h.accepted_flush
  refine ⟨haccepted, ?_⟩
  simp [Run.finish, hfailure]

/-- A run over lines none of which ends it: it ends as the scan did. -/
theorem overScanned_of_kept (hp : options.onEmpty = Policy.ofWord onEmpty)
    (hc : options.cancellation = none) (hr : sink.room = none)
    (hk : kept transform onEmpty scanned.lines = scanned.lines) :
    (Run.overScanned transform options sink scanned).sink.accepted
        = sink.accepted ++ emitted transform onEmpty scanned.lines ∧
      (Run.overScanned transform options sink scanned).stats
        = tally transform onEmpty scanned.lines ∧
      (Run.overScanned transform options sink scanned).failure
        = scanned.failure.map (.io Fault.reading []) := by
  have hls : ∀ line ∈ scanned.lines, (verdict transform onEmpty line).isStop = false :=
    fun line hl => isStop_of_mem_kept transform onEmpty scanned.lines (hk.symm ▸ hl)
  obtain ⟨state, hover, hstate⟩ := (agrees_begin hr).overLines hp hc hls
  rw [List.nil_append] at hstate
  rw [Run.overScanned, hover]
  cases scanned.failure with
  | none =>
    have hsteady : { state with
        logged := Run.endEntry state.stats :: state.logged }.writer.Steady := hstate.steady
    obtain ⟨haccepted, hfailure⟩ := finish_of_steady hsteady none
    exact ⟨haccepted.trans hstate.contents, hstate.stats, hfailure⟩
  | some fault =>
    obtain ⟨haccepted, hfailure⟩ := finish_of_steady hstate.steady
      (some (.io Fault.reading [] fault))
    exact ⟨haccepted.trans hstate.contents, hstate.stats, hfailure⟩

/-- A run over lines one of which ends it: the scan's own end does not matter. -/
theorem overScanned_of_stop (hp : options.onEmpty = Policy.ofWord onEmpty)
    (hc : options.cancellation = none) (hr : sink.room = none)
    {line : Bytes} {rest : List Bytes} {cause : Fault}
    (hls : scanned.lines = kept transform onEmpty scanned.lines ++ line :: rest)
    (hv : verdict transform onEmpty line = .stop cause) :
    (Run.overScanned transform options sink scanned).sink.accepted
        = sink.accepted ++ output transform onEmpty scanned.lines ∧
      (Run.overScanned transform options sink scanned).stats
        = { tally transform onEmpty (kept transform onEmpty scanned.lines) with
            linesRead := (kept transform onEmpty scanned.lines).length + 1 } ∧
      (Run.overScanned transform options sink scanned).failure
        = some (.parse transform.name
            ((kept transform onEmpty scanned.lines).length + 1) line cause) := by
  obtain ⟨state, hover, hstate⟩ := (agrees_begin hr).overLines hp hc
    fun l hl => isStop_of_mem_kept transform onEmpty scanned.lines hl
  rw [List.nil_append] at hstate
  have hrun : Run.overLines transform options (Run.begin transform sink) scanned.lines
      = (state.counted, some (.parse transform.name
          ((kept transform onEmpty scanned.lines).length + 1) line cause)) := by
    conv_lhs => rw [hls]
    rw [Run.overLines_append, hover]
    simp only [Run.overLines, hstate.step_stop hp hc hv]
  rw [Run.overScanned, hrun]
  have hsteady : state.counted.writer.Steady := hstate.steady
  obtain ⟨haccepted, hfailure⟩ := finish_of_steady hsteady
    (some (.parse transform.name ((kept transform onEmpty scanned.lines).length + 1) line cause))
  refine ⟨haccepted.trans hstate.contents, ?_, hfailure⟩
  simp only [Run.finish, Run.State.counted, hstate.stats]
  rfl

/-- **The output of a run over scanned lines**, however it ends. -/
theorem accepted_overScanned (hp : options.onEmpty = Policy.ofWord onEmpty)
    (hc : options.cancellation = none) (hr : sink.room = none) :
    (Run.overScanned transform options sink scanned).sink.accepted
      = sink.accepted ++ output transform onEmpty scanned.lines := by
  rcases kept_cases transform onEmpty scanned.lines with ⟨hk, -⟩ | ⟨line, rest, cause, hls, hv, -⟩
  · rw [output, hk]
    exact (overScanned_of_kept options sink scanned hp hc hr hk).1
  · exact (overScanned_of_stop options sink scanned hp hc hr hls hv).1

end Run

end Linewise.Reference

namespace Linewise

/-- **What a run writes**, without a bound on the lines, depends on the bytes that come out of the
decoder and not on how the source ends. -/
theorem accepted_run (transform : Transform) {onEmpty : Bytes} {options : Options}
    (hp : options.onEmpty = Policy.ofWord onEmpty) (hc : options.cancellation = none)
    (hl : options.maxLineBytes ≤ 0) (source : Source) :
    (run transform options source {}).sink.accepted
      = Reference.output transform onEmpty (lines source.decode.contents) := by
  rw [run, Options.limit_of_nonpos hl, Stream.scan_none,
    Reference.accepted_overScanned options {} _ hp hc rfl]
  rfl

/-- A source that ends regularly is scanned, without a bound, into the lines of its decoded
text. -/
theorem Source.scan_decode (data : Bytes) (chunk : Nat) :
    Stream.scan none (Source.decode { data, chunk }) = ⟨lines (decodeText data), none⟩ := by
  rw [Stream.scan_none, Source.contents_decode rfl, Source.failure_decode]

/-- **A run is its line-by-line reference.** With no bound on the lines, nobody calling it off and
neither the source nor the sink failing, a run over the lines `L` of the decoded text writes what
the lines before the first stopping one, line `s`, come to. It counts them, and it fails exactly if
there is such a line, with that line's number, text and cause. -/
theorem run_eq_reference (transform : Transform) (onEmpty data held : Bytes) (chunk : Nat)
    (limit : Int) (full : Fault) (hlimit : limit ≤ 0) :
    let L := lines (decodeText data)
    let s := Reference.stopIndex transform onEmpty L
    let before := Reference.kept transform onEmpty L
    let options : Options := { onEmpty := Policy.ofWord onEmpty, maxLineBytes := limit }
    let sink : Sink := { accepted := held, failure := full }
    let outcome := run transform options { data, chunk } sink
    outcome.sink.accepted = held ++ Reference.output transform onEmpty L ∧
      outcome.stats =
        { transform := transform.name
          linesRead := min s L.length
          linesWritten := (Reference.results transform onEmpty before).length
          linesSkipped := Reference.leftOut transform onEmpty before
          bytesWritten := (Reference.output transform onEmpty L).length } ∧
      (outcome.failure = none ↔ s = L.length + 1) ∧
      ∀ line, L[s - 1]? = some line → ∃ cause, transform.apply line = .error cause ∧
        outcome.failure = some (.parse transform.name s line cause) := by
  intro L s before options sink outcome
  have hlimit' : options.limit = none := Options.limit_of_nonpos hlimit
  have hout : outcome = Run.overScanned transform options sink ⟨L, none⟩ := by
    change Run.overScanned transform options sink (Stream.scan options.limit _) = _
    rw [hlimit', Source.scan_decode]
  rw [hout]
  rcases Reference.kept_cases transform onEmpty L with
    ⟨hk, hs⟩ | ⟨line, rest, cause, hL, hv, hs⟩
  · obtain ⟨haccepted, hstats, hfailure⟩ := Reference.overScanned_of_kept options sink
      ⟨L, none⟩ rfl rfl rfl hk
    have hbefore : before = L := hk
    have hread : min (s : Int) L.length = L.length := by omega
    refine ⟨?_, ?_, ?_, fun line hline => ?_⟩
    · rw [haccepted, Reference.output, hk]
    · rw [hstats, Reference.output, hk, hbefore, hread]
      rfl
    · rw [hfailure]
      exact iff_of_true rfl hs
    · have hlt := (List.getElem?_eq_some_iff.mp hline).1
      omega
  · obtain ⟨haccepted, hstats, hfailure⟩ := Reference.overScanned_of_stop options sink
      ⟨L, none⟩ rfl rfl rfl hL hv
    have hlength : L.length = before.length + (rest.length + 1) := by
      simpa using congrArg List.length hL
    have hs' : s = before.length + 1 := hs
    have hread : min (s : Int) L.length = before.length + 1 := by omega
    refine ⟨haccepted, ?_, ?_, fun line' hline' => ?_⟩
    · rw [hstats, hread]
      rfl
    · rw [hfailure]
      refine iff_of_false (by simp) ?_
      omega
    · have hline : L[s - 1]? = some line := by
        rw [hs', Nat.add_sub_cancel]
        conv_lhs => rw [hL]
        exact (List.getElem?_append_right (Nat.le_refl _)).trans (by simp)
      obtain rfl := Option.some.inj (hline.symm.trans hline')
      refine ⟨cause, (Reference.of_verdict_stop hv).1, ?_⟩
      rw [hfailure, hs']
      rfl

/-- A run that decodes in reads of three bytes, with three kinds of terminators and a line that is
left out. -/
theorem run_eq_reference_skip :
    let options : Options := { onEmpty := Policy.ofWord (utf8 "skip"), maxLineBytes := -1 }
    let outcome := run Transform.binary options
      { data := utf8 "1\r\nnone\n10\r11", chunk := 3 } {}
    ((-1 : Int) ≤ 0) ∧ outcome.sink.accepted = utf8 "1\n2\n3\n" ∧ outcome.failure = none ∧
      outcome.stats.linesRead = 4 ∧ outcome.stats.linesSkipped = 1 := by
  obtain ⟨haccepted, hstats, hfailure, -⟩ := run_eq_reference Transform.binary (utf8 "skip")
    (utf8 "1\r\nnone\n10\r11") [] 3 (-1) .unstated (by decide)
  refine ⟨by decide, haccepted.trans (by decide), hfailure.mpr (by decide), ?_, ?_⟩
  · rw [hstats]
    decide
  · rw [hstats]
    decide

end Linewise

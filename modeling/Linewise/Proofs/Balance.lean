import Mathlib.Tactic.SplitIfs
import Linewise.FileRun
import Linewise.Proofs.Decoding
import Linewise.Proofs.Run

/-!
# The lines of a run add up

Every line a run has read was written, was left out, or is the one at which the run ended:
because it could not be transformed, or because its result could not be written. So the
counters and the failure of a run determine each other up to one line. They are updated at
different points of taking a line; what holds between two lines is carried through every
way a line can go, and then through the end of the run.

## Main definitions

* `Stats.missing`: the lines read that were neither written nor left out
* `Balanced`: how many of them there are, given the failure of the run
* `Accounted`: the counters of a run are sound and balanced
* `Run.Ledger`: what holds between two lines, and after the last one

## Main results

* `balanced_iff`: the balance, by what the chain of the failure contains
* `Run.Ledger.step`, `Run.Ledger.overLines`: one line, and all of them
* `accounted_run`, `accounted_transformFile`: whole runs, over streams and over files
-/

namespace Linewise

/-! ## Failures from outside -/

namespace Fault

@[simp] theorem parseKind?_parse (transform : Bytes) (line : Int) (input : Bytes)
    (cause : Fault) :
    parseKind? (parse transform line input cause) = some (.parse transform line input) := rfl

@[simp] theorem parseKind?_io (action path : Bytes) (cause : Fault) :
    parseKind? (io action path cause) = cause.parseKind? := rfl

@[simp] theorem ioKind?_io (action path : Bytes) (cause : Fault) :
    ioKind? (io action path cause) = some (.io action path) := rfl

/-- What `parseKind?` finds is a line failure. -/
theorem exists_of_parseKind? {fault : Fault} {kind : Kind} (h : fault.parseKind? = some kind) :
    ∃ transform line input, kind = .parse transform line input := by
  obtain ⟨_, other, _, -, hother, -⟩ := List.findSome?_eq_some_iff.mp h
  split at hother
  · exact ⟨_, _, _, (Option.some.inj hother).symm⟩
  · cases hother

/-- What `ioKind?` finds is a stream failure. -/
theorem exists_of_ioKind? {fault : Fault} {kind : Kind} (h : fault.ioKind? = some kind) :
    ∃ action path, kind = .io action path := by
  obtain ⟨_, other, _, -, hother, -⟩ := List.findSome?_eq_some_iff.mp h
  split at hother
  · exact ⟨_, _, (Option.some.inj hother).symm⟩
  · cases hother

/-- Filling in a path leaves line failures alone. -/
theorem parseKind?_locate (input output : Bytes) (fault : Fault) :
    (fault.locate input output).parseKind? = fault.parseKind? := by
  fun_induction locate input output fault with
  | case1 => rfl
  | case2 => rfl
  | case3 => rfl
  | case4 => rfl
  | case5 => rfl
  | case6 note cause ih => exact ih
  | case7 => rfl

/-- Filling in a path does not change what a stream was doing when it failed. -/
theorem ioKind?_locate (input output : Bytes) (fault : Fault) (action : Bytes) :
    (∃ path, (fault.locate input output).ioKind? = some (.io action path)) ↔
      ∃ path, fault.ioKind? = some (.io action path) := by
  fun_induction locate input output fault with
  | case1 => rfl
  | case2 => simp
  | case3 => simp
  | case4 => rfl
  | case5 transform line text cause ih => exact ih
  | case6 note cause ih => exact ih
  | case7 => rfl

end Fault

/-! ## Balance -/

/-- The lines read that were neither written nor left out. -/
def Stats.missing (stats : Stats) : Int :=
  stats.linesRead - stats.linesWritten - stats.linesSkipped

/-- **The counters fit the failure**: one line is missing if the run ended at a line, none or one
if it failed while writing, and none if it ended in any other way. -/
def Balanced (stats : Stats) (failure : Option Fault) : Prop :=
  match failure.map Fault.kind with
  | some (.parse ..) => stats.missing = 1
  | some (.io action _) => stats.missing = 0 ∨ action = Fault.writing ∧ stats.missing = 1
  | _ => stats.missing = 0

theorem balanced_none {stats : Stats} : Balanced stats none ↔ stats.missing = 0 := Iff.rfl

/-- The balance, by what the chain of the failure contains. -/
theorem balanced_iff {stats : Stats} {fault : Fault} :
    Balanced stats (some fault) ↔
      (fault.parseKind? ≠ none → stats.missing = 1) ∧
      (fault.parseKind? = none → stats.missing = 0 ∨
        (∃ path, fault.ioKind? = some (.io Fault.writing path)) ∧ stats.missing = 1) := by
  cases hparse : fault.parseKind? with
  | some kind =>
    obtain ⟨transform, line, input, rfl⟩ := Fault.exists_of_parseKind? hparse
    have hkind : fault.kind = .parse transform line input := by simp [Fault.kind, hparse]
    simp [Balanced, hkind]
  | none =>
    cases hio : fault.ioKind? with
    | some kind =>
      obtain ⟨action, path, rfl⟩ := Fault.exists_of_ioKind? hio
      have hkind : fault.kind = .io action path := by simp [Fault.kind, hparse, hio]
      simp [Balanced, hkind]
    | none =>
      -- a cancellation or something else: neither kind has a line to miss
      have hkind : fault.kind = .canceled ∨ fault.kind = .deadlineExceeded ∨
          fault.kind = .other := by
        simp only [Fault.kind, hparse, hio, Option.orElse_eq_orElse, Option.orElse_none]
        simp only [Option.getD_none]
        split_ifs <;> simp
      rcases hkind with hkind | hkind | hkind <;> simp [Balanced, hkind]

/-- A failure without a line failure in its chain fits counters that miss no line. -/
theorem balanced_of_parseKind? {stats : Stats} {fault : Fault} (h : fault.parseKind? = none)
    (hm : stats.missing = 0) : Balanced stats (some fault) :=
  balanced_iff.mpr ⟨fun hne => absurd h hne, fun _ => .inl hm⟩

theorem Balanced.missing_nonneg {stats : Stats} {failure : Option Fault}
    (h : Balanced stats failure) : 0 ≤ stats.missing := by
  cases failure with
  | none => exact Int.le_of_eq (balanced_none.mp h).symm
  | some fault =>
    obtain ⟨hparse, hother⟩ := balanced_iff.mp h
    by_cases hnone : fault.parseKind? = none
    · rcases hother hnone with hzero | ⟨-, hone⟩ <;> omega
    · have hone := hparse hnone
      omega

/-- Filling in a path keeps the balance. -/
theorem Balanced.locate {stats : Stats} {failure : Option Fault} (h : Balanced stats failure)
    (input output : Bytes) : Balanced stats (failure.map (Fault.locate input output)) := by
  cases failure with
  | none => exact h
  | some fault =>
    rw [balanced_iff] at h
    refine balanced_iff.mpr ?_
    rw [Fault.parseKind?_locate, Fault.ioKind?_locate]
    exact h

/-- **The lines of a run are accounted for**: its counters carry the name of the transformation,
none of them is negative, and they fit the failure. -/
structure Accounted (name : Bytes) (stats : Stats) (failure : Option Fault) : Prop where
  /-- The name is that of the transformation. -/
  name : stats.transform = name
  /-- The count of lines written is not negative. -/
  linesWritten : 0 ≤ stats.linesWritten
  /-- The count of lines left out is not negative. -/
  linesSkipped : 0 ≤ stats.linesSkipped
  /-- The counters fit the failure. -/
  balanced : Balanced stats failure

/-- The count of lines read is not negative either. -/
theorem Accounted.linesRead {name : Bytes} {stats : Stats} {failure : Option Fault}
    (h : Accounted name stats failure) : 0 ≤ stats.linesRead := by
  have hwritten := h.linesWritten
  have hskipped := h.linesSkipped
  have hmissing := h.balanced.missing_nonneg
  rw [Stats.missing] at hmissing
  omega

/-- A run that failed before its first line. -/
theorem accounted_begin (name : Bytes) {fault : Fault} (h : fault.parseKind? = none) :
    Accounted name { transform := name } (some fault) :=
  ⟨rfl, Int.le_refl 0, Int.le_refl 0, balanced_of_parseKind? h rfl⟩

/-- The time a run took does not matter. -/
theorem Accounted.timed {name : Bytes} {stats : Stats} {failure : Option Fault}
    (h : Accounted name stats failure) (duration : Int) :
    Accounted name { stats with duration } failure :=
  ⟨h.name, h.linesWritten, h.linesSkipped, h.balanced⟩

/-- Filling in a path keeps lines accounted for. -/
theorem Accounted.locate {name : Bytes} {stats : Stats} {failure : Option Fault}
    (h : Accounted name stats failure) (input output : Bytes) :
    Accounted name stats (failure.map (Fault.locate input output)) :=
  { h with balanced := h.balanced.locate input output }

/-- A failure that comes after the last line, if there is no other, leaves no line open. -/
theorem Accounted.orElse {name : Bytes} {stats : Stats} {failure late : Option Fault}
    (h : Accounted name stats failure)
    (hlate : ∀ fault, late = some fault → fault.parseKind? = none) :
    Accounted name stats (failure <|> late) := by
  cases failure with
  | some fault => exact h
  | none =>
    cases late with
    | none => exact h
    | some fault =>
      have hmissing : stats.missing = 0 := h.balanced
      exact { h with balanced := balanced_of_parseKind? (hlate fault rfl) hmissing }

/-! ## The failure of a sink -/

theorem Sink.failure_write (sink : Sink) (bytes : Bytes) :
    (sink.write bytes).1.failure = sink.failure ∧
      ((sink.write bytes).2 = none ∨ (sink.write bytes).2 = some sink.failure) := by
  rw [write]
  split
  · exact ⟨rfl, .inl rfl⟩
  · split
    · exact ⟨rfl, .inl rfl⟩
    · exact ⟨rfl, .inr rfl⟩

/-- **The output fails with a given failure**, if it fails. -/
structure Writer.FailsWith (full : Fault) (writer : Writer) : Prop where
  /-- It is the failure of the sink. -/
  sink : writer.sink.failure = full
  /-- The writer has not failed, or with this failure. -/
  failure : writer.failure = none ∨ writer.failure = some full

namespace Writer.FailsWith

variable {full : Fault} {writer : Writer}

theorem put (h : writer.FailsWith full) (bytes : Bytes) : (writer.put bytes).FailsWith full := by
  fun_induction Writer.put writer bytes with
  | case1 writer bytes hf => exact h
  | case2 writer bytes hf hlen => exact ⟨h.sink, h.failure⟩
  | case3 writer bytes hf hlen room sink fault hw =>
    obtain ⟨hsink, hfailure⟩ := writer.sink.failure_write (writer.buffer ++ bytes.take room)
    rw [hw, h.sink] at hsink hfailure
    exact ⟨hsink, hfailure⟩
  | case4 writer bytes hf hlen room sink hw ih =>
    have hsink := (writer.sink.failure_write (writer.buffer ++ bytes.take room)).1
    rw [hw, h.sink] at hsink
    exact ih ⟨hsink, .inl rfl⟩

theorem flush (h : writer.FailsWith full) : writer.flush.FailsWith full := by
  rw [Writer.flush]
  split_ifs
  · exact h
  · obtain ⟨hsink, hfailure⟩ := writer.sink.failure_write writer.buffer
    rw [h.sink] at hsink hfailure
    exact ⟨hsink, hfailure⟩

end Writer.FailsWith

/-! ## Lines -/

namespace Run

/-- **What holds between two lines**, and after the last one: the lines taken are accounted for,
and the output fails as its sink does. -/
structure Ledger (name : Bytes) (full : Fault) (result : State × Option Fault) : Prop
    extends Accounted name result.1.stats result.2 where
  /-- The output fails with the failure of its sink. -/
  writer : result.1.writer.FailsWith full

section Action

variable {transform : Transform} {options : Options} {stats : Stats} {line : Bytes}
  {fault : Fault}

/-- A run is called off with the failure of its cancellation. -/
theorem exists_of_action_callOff (h : action transform options stats line = .callOff fault) :
    ∃ cancellation, options.cancellation = some cancellation ∧ cancellation.failure = fault := by
  rw [action] at h
  cases hc : calledOff? options stats with
  | some other =>
    rw [hc] at h
    obtain rfl := Action.callOff.inj h
    rw [calledOff?] at hc
    split at hc
    · next cancellation hcancellation =>
      split_ifs at hc
      exact ⟨cancellation, hcancellation, Option.some.inj hc⟩
    · cases hc
  | none =>
    simp only [hc] at h
    cases ha : transform.apply line with
    | ok result => simp [ha] at h
    | error cause =>
      simp only [ha] at h
      split_ifs at h
      cases hp : options.onEmpty <;> simp [hp] at h

/-- A line that ends a run does so with a line failure. -/
theorem parseKind?_of_action_stop (h : action transform options stats line = .stop fault) :
    fault.parseKind? ≠ none := by
  rw [action] at h
  cases hc : calledOff? options stats with
  | some other => simp [hc] at h
  | none =>
    simp only [hc] at h
    cases ha : transform.apply line with
    | ok result => simp [ha] at h
    | error cause =>
      simp only [ha] at h
      split_ifs at h
      · obtain rfl := Action.stop.inj h
        simp
      · cases hp : options.onEmpty with
        | fail =>
          rw [hp] at h
          obtain rfl := Action.stop.inj h
          simp
        | skip => simp [hp] at h
        | zero => simp [hp] at h

end Action

section Ledger

variable {name : Bytes} {full : Fault} {state : State}

/-- Before the first line there is nothing to account for. -/
theorem ledger_begin (transform : Transform) (sink : Sink) :
    Ledger transform.name sink.failure (begin transform sink, none) where
  name := rfl
  linesWritten := Int.le_refl 0
  linesSkipped := Int.le_refl 0
  balanced := balanced_none.mpr rfl
  writer := ⟨rfl, .inl rfl⟩

/-- A result is written and counted, or its line stays open and the write is reported. -/
theorem Ledger.emit (h : Ledger name full (state, none)) (hfull : full.parseKind? = none)
    (logged : List Log.Entry) (result : Bytes) :
    Ledger name full ({ state.counted with logged }.emit result) := by
  have hmissing : state.stats.missing = 0 := h.balanced
  have hwriter := h.writer.put (result ++ [Bytes.lineFeed])
  have hwritten : 0 ≤ state.stats.linesWritten := h.linesWritten
  simp only [Stats.missing] at hmissing
  rw [State.emit]
  simp only [State.counted]
  rcases hwriter.failure with hnone | hsome
  · simp only [hnone]
    refine ⟨⟨h.name, ?_, h.linesSkipped, ?_⟩, hwriter⟩
    · simp only
      omega
    · rw [balanced_none]
      simp only [Stats.missing]
      omega
  · simp only [hsome]
    refine ⟨⟨h.name, h.linesWritten, h.linesSkipped, ?_⟩, hwriter⟩
    refine balanced_iff.mpr ⟨fun hne => absurd hfull hne, fun _ => .inr ⟨⟨[], rfl⟩, ?_⟩⟩
    simp only [Stats.missing]
    omega

/-- **One line**, taken while all before it are accounted for. -/
theorem Ledger.step (h : Ledger name full (state, none)) (hfull : full.parseKind? = none)
    (transform : Transform) {options : Options}
    (hcancel : ∀ cancellation, options.cancellation = some cancellation →
      cancellation.failure.parseKind? = none) (line : Bytes) :
    Ledger name full (step transform options state line) := by
  have hmissing : state.stats.missing = 0 := h.balanced
  have hskipped : 0 ≤ state.stats.linesSkipped := h.linesSkipped
  rw [step_eq_carryOut]
  cases haction : action transform options state.stats line with
  | callOff fault =>
    obtain ⟨cancellation, hoptions, rfl⟩ := exists_of_action_callOff haction
    have hbalanced := balanced_of_parseKind? (hcancel cancellation hoptions) hmissing
    exact ⟨⟨h.name, h.linesWritten, h.linesSkipped, hbalanced⟩, h.writer⟩
  | stop fault =>
    have hparse := parseKind?_of_action_stop haction
    refine ⟨⟨h.name, h.linesWritten, h.linesSkipped, ?_⟩, h.writer⟩
    refine balanced_iff.mpr ⟨fun _ => ?_, fun hnone => absurd hnone hparse⟩
    simp only [Action.carryOut, Stats.missing, State.counted] at hmissing ⊢
    omega
  | leaveOut warning =>
    refine ⟨⟨h.name, h.linesWritten, ?_, ?_⟩, h.writer⟩
    · simp only [Action.carryOut]
      omega
    · simp only [Action.carryOut, balanced_none, Stats.missing, State.counted] at hmissing ⊢
      omega
  | emit result warnings => exact h.emit hfull (warnings ++ state.logged) result

/-- **All lines**, until one of them ends the run. -/
theorem Ledger.overLines (h : Ledger name full (state, none)) (hfull : full.parseKind? = none)
    (transform : Transform) {options : Options}
    (hcancel : ∀ cancellation, options.cancellation = some cancellation →
      cancellation.failure.parseKind? = none) (ls : List Bytes) :
    Ledger name full (overLines transform options state ls) := by
  induction ls generalizing state with
  | nil => exact h
  | cons line ls ih =>
    have hstep := h.step hfull transform hcancel line
    simp only [Run.overLines]
    rcases hnext : Run.step transform options state line with ⟨next, _ | fault⟩
    · rw [hnext] at hstep
      exact ih hstep
    · rw [hnext] at hstep
      exact hstep

/-- **The end of a run** opens no line: what is left of the output has been counted already, and
a failure to hand it over is reported only if there is no other. -/
theorem Ledger.finish {failure : Option Fault} (h : Ledger name full (state, failure))
    (hfull : full.parseKind? = none) :
    Accounted name (finish state failure).stats (finish state failure).failure := by
  refine { h with balanced := ?_ }
  cases failure with
  | some fault => exact h.balanced
  | none =>
    rcases h.writer.flush.failure with hnone | hsome
    · simpa [Run.finish, hnone] using h.balanced
    · have hmissing : state.stats.missing = 0 := h.balanced
      have hlate : (Fault.io Fault.writing [] full).parseKind? = none := by
        rw [Fault.parseKind?_io, hfull]
      simpa [Run.finish, hsome] using balanced_of_parseKind? hlate hmissing

end Ledger

end Run

/-! ## Whole runs -/

/-- The failure of a scan is that of the stream, or a line that is too long. -/
theorem Stream.failure_scan (limit : Limit) (stream : Stream) :
    (stream.scan limit).failure = some .lineTooLong ∨
      (stream.scan limit).failure = stream.failure := by
  rw [Stream.scan]
  split_ifs
  · exact .inl rfl
  · exact .inr rfl

/-- **Every run over a stream accounts for its lines**, as long as the reader, the writer and the
cancellation do not fail with the line failure of another run. -/
theorem accounted_run (transform : Transform) {options : Options} {source : Source} {sink : Sink}
    (hcancel : ∀ cancellation, options.cancellation = some cancellation →
      cancellation.failure.parseKind? = none)
    (hsource : ∀ fault, source.failure = some fault → fault.parseKind? = none)
    (hsink : sink.failure.parseKind? = none) :
    Accounted transform.name (run transform options source sink).stats
      (run transform options source sink).failure := by
  have hledger := (Run.ledger_begin transform sink).overLines hsink transform hcancel
    (source.decode.scan options.limit).lines
  rw [run, Run.overScanned]
  rcases hlines : Run.overLines transform options (Run.begin transform sink)
    (source.decode.scan options.limit).lines with ⟨state, _ | fault⟩
  · rw [hlines] at hledger
    have hmissing : state.stats.missing = 0 := hledger.balanced
    cases hend : (source.decode.scan options.limit).failure with
    | none => exact Run.Ledger.finish ⟨hledger.toAccounted, hledger.writer⟩ hsink
    | some fault =>
      have hfault : fault.parseKind? = none := by
        rcases source.decode.failure_scan options.limit with hlong | hsame
        · rw [hlong] at hend
          obtain rfl := Option.some.inj hend
          rfl
        · rw [hsame, Source.failure_decode] at hend
          exact hsource fault hend
      refine Run.Ledger.finish ⟨{ hledger with balanced := ?_ }, hledger.writer⟩ hsink
      exact balanced_of_parseKind? hfault hmissing
  · rw [hlines] at hledger
    exact hledger.finish hsink

namespace FileRun

/-! What fails around a run over files is the file system, never a line. -/

variable {files : FileSystem} {path : Bytes} {fault : Fault}

theorem parseKind?_openInput {stdin : Bytes} (h : openInput files stdin path = .error fault) :
    fault.parseKind? = none := by
  rw [openInput] at h
  split_ifs at h
  split at h
  · cases h
  · obtain rfl := Except.error.inj h
    rfl

theorem parseKind?_openOutput (h : openOutput files path = .error fault) :
    fault.parseKind? = none := by
  rw [openOutput] at h
  split_ifs at h
  split at h
  · cases h
  · obtain rfl := Except.error.inj h
    rfl

theorem Input.parseKind?_source {input : Input} (h : (input.source files).failure = some fault) :
    fault.parseKind? = none := by
  cases input with
  | stdin content => cases h
  | file path place =>
    simp only [Input.source] at h
    split at h
    · cases h
    · obtain rfl := Option.some.inj h
      rfl

theorem Output.parseKind?_sink (output : Output) :
    (output.sink files).failure.parseKind? = none := by
  cases output with
  | stdout => rfl
  | file path place =>
    simp only [Output.sink]
    split <;> rfl

theorem Output.parseKind?_close {output : Output} (h : output.close? files = some fault) :
    fault.parseKind? = none := by
  cases output with
  | stdout => cases h
  | file path place =>
    simp only [Output.close?] at h
    split at h
    · obtain rfl := Option.some.inj h
      rfl
    · cases h

end FileRun

/-- **Every run over files accounts for its lines**, also one that cannot open them. -/
theorem accounted_transformFile (transform : Transform) {options : Options} (files : FileSystem)
    (stdin inputPath outputPath : Bytes)
    (hcancel : ∀ cancellation, options.cancellation = some cancellation →
      cancellation.failure.parseKind? = none) :
    Accounted transform.name
      (transformFile transform options files stdin inputPath outputPath).stats
      (transformFile transform options files stdin inputPath outputPath).failure := by
  simp only [transformFile]
  cases hin : FileRun.openInput files stdin inputPath with
  | error fault => exact accounted_begin transform.name (FileRun.parseKind?_openInput hin)
  | ok input =>
    simp only
    rcases hout : FileRun.openOutput files outputPath with fault | ⟨opened, output⟩
    · exact accounted_begin transform.name (FileRun.parseKind?_openOutput hout)
    · have hrun : Accounted transform.name
          (run transform options (input.source opened) (output.sink opened)).stats
          (run transform options (input.source opened) (output.sink opened)).failure :=
        accounted_run transform hcancel (fun _ => FileRun.Input.parseKind?_source)
          output.parseKind?_sink
      exact (hrun.locate inputPath outputPath).orElse fun _ => FileRun.Output.parseKind?_close

end Linewise

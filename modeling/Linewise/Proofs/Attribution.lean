import Linewise.Proofs.Balance
import Linewise.Proofs.FileLines

/-!
# Failures of a run over files

A run over files can fail in many places: when its input or its output is opened, while it
reads, transforms or writes, and when its output is closed. A run over streams does not know
any path, so a failed read or write gets its path afterwards. The ways a run can end are few;
for each of them it is said once what the path that is filled in does to it. The rest of the
file system does not notice: only the place that the output path leads to is ever written.

## Main definitions

* `Fault.WithoutIo`: no stream failure is among a failure and its causes
* `Run.Ending`: the ways a run can end
* `FileRun.Attribution`: what becomes of the failure of a run once paths are filled in

## Main results

* `Run.Traced.step`, `Run.Traced.overLines`, `ending_run`: one line, all lines, a whole run
* `FileRun.openOutput_cases`: what opening an output can do
* `FileRun.attribution`: the failure of a run over files, by how the run itself ended
* `transformFile_attributes`: every failure names its file, and only the output changes
-/

namespace Linewise

/-! ## Failures without a stream -/

namespace Fault

/-- **No stream failure** is among a failure and its causes. -/
def WithoutIo (fault : Fault) : Prop :=
  ∀ part ∈ fault.chain, part.isIo = false

instance (fault : Fault) : Decidable fault.WithoutIo :=
  inferInstanceAs (Decidable (∀ part ∈ fault.chain, part.isIo = false))

theorem WithoutIo.not_mem {fault : Fault} (h : fault.WithoutIo) (action path : Bytes)
    (cause : Fault) : io action path cause ∉ fault.chain := by
  intro hmem
  cases h _ hmem

theorem withoutIo_parse {transform input : Bytes} {line : Int} {cause : Fault} :
    (parse transform line input cause).WithoutIo ↔ cause.WithoutIo := by
  simp [WithoutIo, chain, isIo]

theorem withoutIo_noted {note : Bytes} {cause : Fault} :
    (noted note cause).WithoutIo ↔ cause.WithoutIo := by
  simp [WithoutIo, chain, isIo]

/-- A failure without a stream failure has no path to be filled in. -/
theorem WithoutIo.locate {fault : Fault} (h : fault.WithoutIo) (input output : Bytes) :
    fault.locate input output = fault := by
  induction fault with
  | io action path cause => exact absurd List.mem_cons_self (h.not_mem action path cause)
  | parse transform line text cause ih => rw [Fault.locate, ih (withoutIo_parse.mp h)]
  | noted note cause ih => rw [Fault.locate, ih (withoutIo_noted.mp h)]
  | _ => rfl

/-- A failed write without a path belongs to the output. -/
theorem locate_writing (input output : Bytes) (cause : Fault) :
    (io writing [] cause).locate input output = io writing output cause := by
  have hne : writing ≠ reading := by decide
  simp [Fault.locate, hne]

/-- The only stream failure of such a failure is the failure itself. -/
theorem WithoutIo.eq_of_mem_chain_io {cause : Fault} (h : cause.WithoutIo)
    {action action' path path' : Bytes} {cause' : Fault}
    (hmem : io action' path' cause' ∈ (io action path cause).chain) :
    action' = action ∧ path' = path := by
  rcases List.mem_cons.mp hmem with heq | hmem
  · obtain ⟨haction, hpath, -⟩ := Fault.io.inj heq
    exact ⟨haction, hpath⟩
  · exact absurd hmem (h.not_mem action' path' cause')

end Fault

/-! ## How a run ends -/

namespace Run

/-- **The ways a run can end**, by the failure it ends with. -/
inductive Ending (transform : Transform) (options : Options) (source : Source) (sink : Sink) :
    Option Fault → Prop where
  /-- All lines have been taken. -/
  | complete : Ending transform options source sink none
  /-- A line cannot be transformed. -/
  | line {line : Bytes} {cause : Fault} (number : Int) (h : transform.apply line = .error cause) :
    Ending transform options source sink (some (.parse transform.name number line cause))
  /-- The run is called off. -/
  | calledOff {cancellation : Cancellation} (h : options.cancellation = some cancellation) :
    Ending transform options source sink (some cancellation.failure)
  /-- The source fails, or has a line that is too long. -/
  | reading {cause : Fault} (h : cause = .lineTooLong ∨ source.failure = some cause) :
    Ending transform options source sink (some (.io Fault.reading [] cause))
  /-- The sink fails. -/
  | writing : Ending transform options source sink (some (.io Fault.writing [] sink.failure))

/-- **What holds between two lines**, and after the last one: the counters are those of the
transformation, the output fails as its sink does, and the run has ended in one of these ways if
it has. -/
structure Traced (transform : Transform) (options : Options) (source : Source) (sink : Sink)
    (result : State × Option Fault) : Prop where
  /-- The counters are those of the transformation. -/
  name : result.1.stats.transform = transform.name
  /-- The output fails with the failure of its sink. -/
  writer : result.1.writer.FailsWith sink.failure
  /-- The run has ended in one of these ways, or not yet. -/
  ending : Ending transform options source sink result.2

/-- A line that ends a run could not be transformed. -/
theorem exists_of_action_stop {transform : Transform} {options : Options} {stats : Stats}
    {line : Bytes} {fault : Fault} (h : action transform options stats line = .stop fault) :
    ∃ number cause, transform.apply line = .error cause ∧
      fault = .parse transform.name number line cause := by
  rw [action] at h
  cases hc : calledOff? options stats with
  | some other => simp [hc] at h
  | none =>
    simp only [hc] at h
    cases ha : transform.apply line with
    | ok result => simp [ha] at h
    | error cause =>
      simp only [ha] at h
      split_ifs at h
      · exact ⟨_, cause, rfl, (Action.stop.inj h).symm⟩
      · cases hp : options.onEmpty with
        | fail =>
          rw [hp] at h
          exact ⟨_, cause, rfl, (Action.stop.inj h).symm⟩
        | skip => simp [hp] at h
        | zero => simp [hp] at h

section Traced

variable {transform : Transform} {options : Options} {source : Source} {sink : Sink}
  {state : State}

theorem traced_begin (transform : Transform) (options : Options) (source : Source) (sink : Sink) :
    Traced transform options source sink (begin transform sink, none) :=
  ⟨rfl, ⟨rfl, .inl rfl⟩, .complete⟩

/-- Writing a result goes well, or fails as the sink does. -/
theorem Traced.emit (h : Traced transform options source sink (state, none))
    (logged : List Log.Entry) (result : Bytes) :
    Traced transform options source sink ({ state.counted with logged }.emit result) := by
  have hwriter := h.writer.put (result ++ [Bytes.lineFeed])
  rw [State.emit]
  simp only [State.counted]
  rcases hwriter.failure with hnone | hsome
  · simp only [hnone]
    exact ⟨h.name, hwriter, .complete⟩
  · simp only [hsome]
    exact ⟨h.name, hwriter, .writing⟩

/-- **One line.** -/
theorem Traced.step (h : Traced transform options source sink (state, none)) (line : Bytes) :
    Traced transform options source sink (step transform options state line) := by
  rw [step_eq_carryOut]
  cases haction : action transform options state.stats line with
  | callOff fault =>
    obtain ⟨cancellation, hoptions, rfl⟩ := exists_of_action_callOff haction
    exact ⟨h.name, h.writer, .calledOff hoptions⟩
  | stop fault =>
    obtain ⟨number, cause, hcause, rfl⟩ := exists_of_action_stop haction
    exact ⟨h.name, h.writer, .line number hcause⟩
  | leaveOut warning => exact ⟨h.name, h.writer, .complete⟩
  | emit result warnings => exact h.emit (warnings ++ state.logged) result

/-- **All lines**, until one of them ends the run. -/
theorem Traced.overLines (h : Traced transform options source sink (state, none))
    (ls : List Bytes) :
    Traced transform options source sink (overLines transform options state ls) := by
  induction ls generalizing state with
  | nil => exact h
  | cons line ls ih =>
    have hstep := h.step line
    simp only [Run.overLines]
    rcases hnext : Run.step transform options state line with ⟨next, _ | fault⟩
    · rw [hnext] at hstep
      exact ih hstep
    · rw [hnext] at hstep
      exact hstep

/-- **The end of a run** hands over what is left of the output; only where nothing else has failed
can this be what the run ends with. -/
theorem Traced.finish {failure : Option Fault}
    (h : Traced transform options source sink (state, failure)) :
    Ending transform options source sink (finish state failure).failure := by
  cases failure with
  | some fault => exact h.ending
  | none =>
    rcases h.writer.flush.failure with hnone | hsome
    · simpa [Run.finish, hnone] using Ending.complete
    · simpa [Run.finish, hsome] using Ending.writing

end Traced

end Run

/-- **Every run ends in one of these ways**, with counters that carry the name of its
transformation. -/
theorem ending_run (transform : Transform) (options : Options) (source : Source) (sink : Sink) :
    Run.Ending transform options source sink (run transform options source sink).failure ∧
      (run transform options source sink).stats.transform = transform.name := by
  have htraced := (Run.traced_begin transform options source sink).overLines
    (source.decode.scan options.limit).lines
  rw [run, Run.overScanned]
  rcases hlines : Run.overLines transform options (Run.begin transform sink)
    (source.decode.scan options.limit).lines with ⟨state, _ | fault⟩
  · rw [hlines] at htraced
    cases hend : (source.decode.scan options.limit).failure with
    | none =>
      have hlogged : Run.Traced transform options source sink
          ({ state with logged := Run.endEntry state.stats :: state.logged }, none) :=
        ⟨htraced.name, htraced.writer, .complete⟩
      exact ⟨hlogged.finish, htraced.name⟩
    | some fault =>
      have hcause : fault = .lineTooLong ∨ source.failure = some fault := by
        rcases source.decode.failure_scan options.limit with hlong | hsame
        · rw [hlong] at hend
          exact .inl (Option.some.inj hend).symm
        · rw [hsame, Source.failure_decode] at hend
          exact .inr hend
      have hread : Run.Traced transform options source sink
          (state, some (.io Fault.reading [] fault)) :=
        ⟨htraced.name, htraced.writer, .reading hcause⟩
      exact ⟨hread.finish, htraced.name⟩
  · rw [hlines] at htraced
    exact ⟨htraced.finish, htraced.name⟩

/-! ## Files -/

namespace FileRun

variable {files opened : FileSystem} {inputPath outputPath path : Bytes} {input : Input}
  {output : Output}

/-- A source that is read from a file fails with a refusal of the file system. -/
theorem Input.withoutIo_source {cause : Fault} (h : (input.source files).failure = some cause) :
    cause.WithoutIo := by
  cases input with
  | stdin content => cases h
  | file path place =>
    simp only [Input.source] at h
    split at h
    · cases h
    · obtain rfl := Option.some.inj h
      simp [Fault.WithoutIo, Fault.chain, Fault.isIo]

theorem Output.withoutIo_sink (files : FileSystem) (output : Output) :
    (output.sink files).failure.WithoutIo := by
  cases output with
  | stdout => simp [Output.sink, Fault.WithoutIo, Fault.chain, Fault.isIo]
  | file path place =>
    simp only [Output.sink]
    split <;> simp [Fault.WithoutIo, Fault.chain, Fault.isIo]

/-- **What opening an output can do.** The standard output is there already. A path that leads to
a file or to a free place gives an empty file there, and one that leads to a device gives the
device. -/
theorem openOutput_cases (h : openOutput files path = .ok (opened, output)) :
    path = dash ∧ opened = files ∧ output = .stdout ∨
      ∃ place, output = .file path place ∧
        (Writable files path place ∧ opened = files.put place (.file []) ∨
          opened = files ∧ ∃ device, files.entry? place = some (.device device)) := by
  rw [openOutput] at h
  by_cases hdash : path = dash
  · rw [if_pos hdash] at h
    obtain ⟨hfiles, houtput⟩ := Prod.mk.inj (Except.ok.inj h)
    exact .inl ⟨hdash, hfiles.symm, houtput.symm⟩
  · rw [if_neg hdash] at h
    right
    cases hopen : files.openOutput path with
    | error reason => simp [hopen] at h
    | ok result =>
      obtain ⟨after, place⟩ := result
      simp only [hopen] at h
      obtain ⟨rfl, rfl⟩ := Prod.mk.inj (Except.ok.inj h)
      refine ⟨place, rfl, ?_⟩
      rw [FileSystem.openOutput] at hopen
      cases hfollow : files.follow path with
      | error reason => simp [hfollow] at hopen
      | ok destination =>
        rcases destination with ⟨target, entry⟩ | target
        · cases entry with
          | directory => simp [hfollow] at hopen
          | file old =>
            simp only [hfollow] at hopen
            split_ifs at hopen with hslash
            obtain ⟨rfl, rfl⟩ := Prod.mk.inj (Except.ok.inj hopen)
            exact .inl ⟨⟨hdash, by simpa using hslash, .inl ⟨old, hfollow⟩⟩, rfl⟩
          | device device =>
            simp only [hfollow] at hopen
            split_ifs at hopen
            obtain ⟨rfl, rfl⟩ := Prod.mk.inj (Except.ok.inj hopen)
            have hentry : FileSystem.Entry.device device ≠ .directory := by
              intro heq
              cases heq
            exact .inr ⟨rfl, device, (FileSystem.entry?_of_follow hfollow hentry).2⟩
        · simp only [hfollow] at hopen
          split_ifs at hopen with hslash
          obtain ⟨rfl, rfl⟩ := Prod.mk.inj (Except.ok.inj hopen)
          exact .inl ⟨⟨hdash, by simpa using hslash, .inr hfollow⟩, rfl⟩

/-- What closing an output fails with carries the path of the output. -/
theorem close?_of_openOutput (h : openOutput files path = .ok (opened, output)) {fault : Fault}
    (hclose : output.close? opened = some fault) :
    ∃ cause : Fault, fault = .io Fault.closing path cause ∧ cause.WithoutIo := by
  rcases openOutput_cases h with ⟨-, -, rfl⟩ | ⟨place, rfl, -⟩
  · cases hclose
  · simp only [Output.close?] at hclose
    split at hclose
    · obtain rfl := Option.some.inj hclose
      exact ⟨_, rfl, by simp [Fault.WithoutIo, Fault.chain, Fault.isIo]⟩
    · cases hclose

/-- **Only the output has changed**: every place holds what it held, unless it is where the output
path leads, and there a file could be written. -/
structure OnlyOutput (before after : FileSystem) (outputPath : Bytes) : Prop where
  /-- The working directory is the same. -/
  working : after.working = before.working
  /-- Every other place holds what it held. -/
  elsewhere : ∀ place, after.entry? place = before.entry? place ∨
    Writable before outputPath place
  /-- Nothing has changed if the results go to the standard output. -/
  dash : outputPath = dash → after = before

theorem OnlyOutput.refl (files : FileSystem) (outputPath : Bytes) :
    OnlyOutput files files outputPath :=
  ⟨rfl, fun _ => .inl rfl, fun _ => rfl⟩

theorem entry?_store (h : openOutput files path = .ok (opened, output)) (accepted : Bytes)
    (place : FileSystem.Place) :
    FileSystem.entry? (output.store opened accepted) place = files.entry? place ∨
      Writable files path place := by
  rcases openOutput_cases h with ⟨-, rfl, rfl⟩ | ⟨target, rfl, hopened⟩
  · exact .inl rfl
  · rcases hopened with ⟨hwritable, rfl⟩ | ⟨rfl, device, hdevice⟩
    · -- a file, emptied and then written
      by_cases hplace : place = target
      · rw [hplace]
        exact .inr hwritable
      · have hentry := FileSystem.entry?_put files hwritable.place_ne_nil (.file [])
        left
        simp only [Output.store, hentry]
        rw [FileSystem.entry?_put_of_ne _ hplace, FileSystem.entry?_put_of_ne _ hplace]
    · -- a device keeps nothing
      left
      simp only [Output.store, hdevice]

theorem working_store (h : openOutput files path = .ok (opened, output)) (accepted : Bytes) :
    (output.store opened accepted).working = files.working := by
  rcases openOutput_cases h with ⟨-, rfl, rfl⟩ | ⟨target, rfl, hopened⟩
  · rfl
  · have hworking : opened.working = files.working := by
      rcases hopened with ⟨-, rfl⟩ | ⟨rfl, -⟩ <;> rfl
    rw [← hworking]
    simp only [Output.store]
    split <;> rfl

/-- An output that has been opened and has taken bytes is all that has changed. -/
theorem onlyOutput_store (h : openOutput files path = .ok (opened, output)) (accepted : Bytes) :
    OnlyOutput files (output.store opened accepted) path := by
  refine ⟨working_store h accepted, entry?_store h accepted, ?_⟩
  rintro rfl
  obtain ⟨rfl, rfl⟩ := Prod.mk.inj (Except.ok.inj h)
  rfl

/-- **What becomes of the failure of a run** once paths are filled in and the output is closed:
`ran` is how the run itself ended. -/
inductive Attribution (inputPath outputPath : Bytes) (ran : Option Fault) : Option Fault → Prop
    where
  /-- No stream failed: nothing changes. -/
  | unchanged (h : ∀ fault, ran = some fault → fault.WithoutIo) :
    Attribution inputPath outputPath ran ran
  /-- A failed read is that of the input. -/
  | read {cause : Fault} (hran : ran = some (.io Fault.reading [] cause)) (h : cause.WithoutIo) :
    Attribution inputPath outputPath ran (some (.io Fault.reading inputPath cause))
  /-- A failed write is that of the output. -/
  | write {cause : Fault} (hran : ran = some (.io Fault.writing [] cause)) (h : cause.WithoutIo) :
    Attribution inputPath outputPath ran (some (.io Fault.writing outputPath cause))
  /-- Nothing has failed until the output is closed. -/
  | close {cause : Fault} (hran : ran = none) (h : cause.WithoutIo) :
    Attribution inputPath outputPath ran (some (.io Fault.closing outputPath cause))

/-- Every stream failure names the right path. -/
theorem Attribution.path_of_mem {ran : Option Fault} {fault : Fault}
    (h : Attribution inputPath outputPath ran (some fault)) {action path : Bytes} {cause : Fault}
    (hmem : .io action path cause ∈ fault.chain) :
    action = Fault.reading ∧ path = inputPath ∨
      (action = Fault.writing ∨ action = Fault.closing) ∧ path = outputPath := by
  cases h with
  | unchanged hwithout => exact absurd hmem ((hwithout fault rfl).not_mem action path cause)
  | read hran hcause => exact .inl (hcause.eq_of_mem_chain_io hmem)
  | write hran hcause =>
    obtain ⟨haction, hpath⟩ := hcause.eq_of_mem_chain_io hmem
    exact .inr ⟨.inl haction, hpath⟩
  | close hran hcause =>
    obtain ⟨haction, hpath⟩ := hcause.eq_of_mem_chain_io hmem
    exact .inr ⟨.inr haction, hpath⟩

/-- A failure that is not that of a stream is the run's own. -/
theorem Attribution.eq_some_iff {ran failure : Option Fault}
    (h : Attribution inputPath outputPath ran failure) {fault : Fault}
    (hfault : fault.isIo = false) : failure = some fault ↔ ran = some fault := by
  have hne (action path : Bytes) (cause : Fault) : (.io action path cause : Fault) ≠ fault := by
    rintro rfl
    cases hfault
  cases h with
  | unchanged hwithout => rfl
  | read hran hcause => simp [hran, hne]
  | write hran hcause => simp [hran, hne]
  | close hran hcause => simp [hran, hne]

/-- **The failure of a run over files**, by how the run between its streams ended. -/
theorem attribution {transform : Transform} {options : Options} (inputPath : Bytes)
    (hown : ∀ line cause, transform.apply line = .error cause → cause.WithoutIo)
    (hcancel : ∀ cancellation, options.cancellation = some cancellation →
      cancellation.failure.WithoutIo) (input : Input)
    (hout : openOutput files outputPath = .ok (opened, output)) :
    Attribution inputPath outputPath
      (run transform options (input.source opened) (output.sink opened)).failure
      ((run transform options (input.source opened) (output.sink opened)).failure.map
        (Fault.locate inputPath outputPath) <|> output.close? opened) := by
  have hending := (ending_run transform options (input.source opened) (output.sink opened)).1
  generalize (run transform options (input.source opened) (output.sink opened)).failure = failure
    at hending ⊢
  have hkept {fault : Fault} (h : fault.WithoutIo) : Attribution inputPath outputPath (some fault)
      ((some fault).map (Fault.locate inputPath outputPath) <|> output.close? opened) := by
    have hsame : (some fault).map (Fault.locate inputPath outputPath) = some fault :=
      congrArg some (h.locate inputPath outputPath)
    rw [hsame]
    exact .unchanged fun other hother => Option.some.inj hother ▸ h
  cases hending with
  | complete =>
    cases hclose : output.close? opened with
    | none => exact .unchanged nofun
    | some fault =>
      obtain ⟨cause, rfl, hcause⟩ := close?_of_openOutput hout hclose
      exact .close rfl hcause
  | line number hline => exact hkept (Fault.withoutIo_parse.mpr (hown _ _ hline))
  | calledOff hoptions => exact hkept (hcancel _ hoptions)
  | @reading cause hcause =>
    have hwithout : cause.WithoutIo := by
      rcases hcause with rfl | hsource
      · simp [Fault.WithoutIo, Fault.chain, Fault.isIo]
      · exact Input.withoutIo_source hsource
    exact .read rfl hwithout
  | writing =>
    have hlocate := Fault.locate_writing inputPath outputPath (output.sink opened).failure
    simp only [Option.map_some, hlocate]
    exact .write rfl (output.withoutIo_sink opened)

end FileRun

section TransformFile

variable {transform : Transform} {options : Options} {files opened : FileSystem}
  {stdin inputPath outputPath : Bytes} {input : FileRun.Input} {output : FileRun.Output}

/-- An input that cannot be opened ends the run before anything has happened. -/
theorem transformFile_of_openInput_error {reason : SystemError} (hdash : inputPath ≠ FileRun.dash)
    (h : files.openInput inputPath = .error reason) :
    transformFile transform options files stdin inputPath outputPath
      = { files
          stats := { transform := transform.name }
          failure := some (.io Fault.openingInput inputPath
            (.system (utf8 "open") inputPath reason)) } := by
  simp only [transformFile, FileRun.openInput, if_neg hdash, h]

/-- So does an output that cannot be opened. -/
theorem transformFile_of_openOutput_error {reason : SystemError}
    (hin : FileRun.openInput files stdin inputPath = .ok input)
    (hdash : outputPath ≠ FileRun.dash) (h : files.openOutput outputPath = .error reason) :
    transformFile transform options files stdin inputPath outputPath
      = { files
          stats := { transform := transform.name }
          failure := some (.io Fault.openingOutput outputPath
            (.system (utf8 "open") outputPath reason)) } := by
  simp only [transformFile, hin, FileRun.openOutput, if_neg hdash, h]

/-- **A run over files changes nothing but its output**, and counts for its transformation, however
it ends. -/
theorem onlyOutput_transformFile (transform : Transform) (options : Options) (files : FileSystem)
    (stdin inputPath outputPath : Bytes) :
    FileRun.OnlyOutput files
        (transformFile transform options files stdin inputPath outputPath).files outputPath ∧
      (transformFile transform options files stdin inputPath outputPath).stats.transform
        = transform.name := by
  simp only [transformFile]
  cases hin : FileRun.openInput files stdin inputPath with
  | error fault => exact ⟨.refl files outputPath, rfl⟩
  | ok input =>
    simp only
    rcases hout : FileRun.openOutput files outputPath with fault | ⟨opened, output⟩
    · exact ⟨.refl files outputPath, rfl⟩
    · exact ⟨FileRun.onlyOutput_store hout _, (ending_run transform options _ _).2⟩

/-- **A run whose files can be opened** fails as the run between them does, up to the paths that
are filled in and the close at the end. -/
theorem attribution_transformFile
    (hown : ∀ line cause, transform.apply line = .error cause → cause.WithoutIo)
    (hcancel : ∀ cancellation, options.cancellation = some cancellation →
      cancellation.failure.WithoutIo)
    (hin : FileRun.openInput files stdin inputPath = .ok input)
    (hout : FileRun.openOutput files outputPath = .ok (opened, output)) :
    FileRun.Attribution inputPath outputPath
      (run transform options (input.source opened) (output.sink opened)).failure
      (transformFile transform options files stdin inputPath outputPath).failure := by
  simpa only [transformFile, hin, hout] using
    FileRun.attribution inputPath hown hcancel input hout

end TransformFile

/-- **Every failure names its file, and only the output changes.** The transformation and the
cancellation do not fail with stream failures of their own.

An input that cannot be opened is reported as such, with its path, and so is an output; then no
file has changed. Otherwise every stream failure is a failed read with the path of the input, or
a failed write or close with that of the output, and any other failure, of a line or by a
cancellation, is the one that the run between the streams ended with. However it ends, the run
counts for its transformation, and only the place that the output path leads to can have changed;
nothing has if that is the standard output. A name that is not registered is reported with zero
counters, and no file has changed. -/
theorem transformFile_attributes (transform : Transform) (options : Options) (files : FileSystem)
    (stdin inputPath outputPath : Bytes)
    (hown : ∀ line cause, transform.apply line = .error cause → cause.WithoutIo)
    (hcancel : ∀ cancellation, options.cancellation = some cancellation →
      cancellation.failure.WithoutIo) :
    let outcome := transformFile transform options files stdin inputPath outputPath
    (∀ reason, inputPath ≠ FileRun.dash → files.openInput inputPath = .error reason →
      outcome.failure = some (.io Fault.openingInput inputPath
        (.system (utf8 "open") inputPath reason)) ∧ outcome.files = files) ∧
    (∀ input reason, FileRun.openInput files stdin inputPath = .ok input →
      outputPath ≠ FileRun.dash → files.openOutput outputPath = .error reason →
      outcome.failure = some (.io Fault.openingOutput outputPath
        (.system (utf8 "open") outputPath reason)) ∧ outcome.files = files) ∧
    (∀ input opened output, FileRun.openInput files stdin inputPath = .ok input →
      FileRun.openOutput files outputPath = .ok (opened, output) →
      (∀ fault, outcome.failure = some fault → ∀ action path cause,
        .io action path cause ∈ fault.chain →
          action = Fault.reading ∧ path = inputPath ∨
            (action = Fault.writing ∨ action = Fault.closing) ∧ path = outputPath) ∧
      ∀ fault, fault.isIo = false →
        (outcome.failure = some fault ↔
          (run transform options (input.source opened) (output.sink opened)).failure
            = some fault)) ∧
    outcome.stats.transform = transform.name ∧
    FileRun.OnlyOutput files outcome.files outputPath ∧
    ∀ (registry : Registry) (name : Bytes), registry.find? name = none →
      let refused := transformFileNamed registry name options files stdin inputPath outputPath
      refused.stats = {} ∧ refused.failure = some (.unknownTransform name registry.names) ∧
        refused.files = files := by
  intro outcome
  obtain ⟨honly, hname⟩ :=
    onlyOutput_transformFile transform options files stdin inputPath outputPath
  refine ⟨?_, ?_, ?_, hname, honly, ?_⟩
  · intro reason hdash hopen
    simp only [outcome, transformFile_of_openInput_error hdash hopen]
    exact ⟨trivial, trivial⟩
  · intro input reason hin hdash hopen
    simp only [outcome, transformFile_of_openOutput_error hin hdash hopen]
    exact ⟨trivial, trivial⟩
  · intro input opened output hin hout
    have hattribution := attribution_transformFile hown hcancel hin hout
    refine ⟨?_, fun fault => hattribution.eq_some_iff⟩
    intro fault hfault action path cause hmem
    exact (hfault ▸ hattribution).path_of_mem hmem
  · intro registry name hfind
    simp only [transformFileNamed, Registry.get, hfind]
    exact ⟨trivial, trivial, trivial⟩

/-- A directory can be opened but not read. The failure names it, the output is made, and
everything else is as it was. -/
theorem transformFile_attributes_directory :
    let files := FileSystem.fresh.install (utf8 "in/") []
    let outcome := transformFile Transform.binary {} files [] (utf8 "in") (utf8 "out.txt")
    (∀ line cause, Transform.binary.apply line = .error cause → cause.WithoutIo) ∧
      outcome.failure = some (.io Fault.reading (utf8 "in")
        (.system (utf8 "read") (utf8 "in") .isDirectory)) ∧
      outcome.files.read (utf8 "out.txt") = .ok [] ∧
      FileRun.OnlyOutput files outcome.files (utf8 "out.txt") := by
  intro files outcome
  have hown : ∀ line cause, Transform.binary.apply line = .error cause → cause.WithoutIo := by
    intro line cause hcause
    obtain rfl := eq_emptyNumeral_of_decodeLine hcause
    decide
  obtain ⟨-, -, -, -, honly, -⟩ :=
    transformFile_attributes Transform.binary {} files [] (utf8 "in") (utf8 "out.txt") hown nofun
  exact ⟨hown, by decide, by decide, honly⟩

/-- A device that has room for everything until it is closed: only the close fails. -/
example :
    let files : FileSystem := { entries := [([utf8 "out"], .device .remote)] }
    (transformFile Transform.binary {} files [] FileRun.dash (utf8 "out")).failure
      = some (.io Fault.closing (utf8 "out") (.system (utf8 "close") (utf8 "out") .noSpace)) := by
  decide

end Linewise

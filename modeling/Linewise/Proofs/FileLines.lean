import Mathlib.Data.List.Forall2
import Linewise.Proofs.InPlace
import Linewise.Proofs.Numerals

/-!
# Runs from one file to another

A run from a file to a different one reads the file as it was, leaves what the run writes
in the other, and touches nothing else: opening the output empties it, and it is the only
thing that is put anywhere. With the built-in transformations the output can be said line
by line. It holds what each line comes to on its own, up to the first that comes to
nothing, and it is read back as exactly these results.

## Main definitions

* `FileRun.Writable`: a path leads to a file, or to a place where one can be made
* `FileRun.Leaves`: a run leaves certain lines in a file, and everything else as it was
* `Run.Outcome.Squeezes`: a run has squeezed every line of a text

## Main results

* `transformFile_of_regular`: a run from a file to a different one, through `run`
* `run_of_squeeze`, `run_of_binary`: runs of the built-in transformations, line by line
* `fileRuns_eq_lines`: the file operations agree with the line operations
-/

namespace Linewise

namespace FileRun

variable {files : FileSystem} {path : Bytes} {place : FileSystem.Place}

/-- **A path leads to where a file can be written**: to a file, whatever it holds, or to a free
place. The path is not the one that stands for the standard streams. -/
structure Writable (files : FileSystem) (path : Bytes) (place : FileSystem.Place) : Prop where
  /-- The path does not stand for the standard input or output. -/
  ne_dash : path ≠ dash
  /-- The path does not ask for a directory. -/
  noSlash : FileSystem.endsInSlash path = false
  /-- The path leads to a file or to a free place. -/
  follow : (∃ old, files.follow path = .ok (.taken place (.file old))) ∨
    files.follow path = .ok (.free place)

/-- Whatever was there, the output is an empty file once it is open. -/
theorem Writable.openOutput (h : Writable files path place) :
    FileRun.openOutput files path = .ok (files.put place (.file []), .file path place) := by
  rcases h.follow with ⟨old, hfollow⟩ | hfollow
  · simp only [FileRun.openOutput, if_neg h.ne_dash, FileSystem.openOutput, hfollow, h.noSlash]
    rfl
  · simp only [FileRun.openOutput, if_neg h.ne_dash, FileSystem.openOutput, hfollow, h.noSlash]
    rfl

theorem Writable.place_ne_nil (h : Writable files path place) : place ≠ [] := by
  rcases h.follow with ⟨old, hfollow⟩ | hfollow
  · exact (FileSystem.entry?_of_follow hfollow nofun).1
  · exact FileSystem.ne_nil_of_follow_free hfollow

/-- **Lines are left in a file**, each terminated, and everything else is as it was. -/
structure Leaves (before after : FileSystem) (place : FileSystem.Place)
    (results : List Bytes) : Prop where
  /-- The file holds the lines and nothing more. -/
  content : after.entry? place = some (.file (terminated results))
  /-- Read as a text, it has these lines. -/
  lines : Linewise.lines (terminated results) = results
  /-- Nothing has changed anywhere else. -/
  elsewhere : ∀ place', place' ≠ place → after.entry? place' = before.entry? place'

end FileRun

section Files

variable {files : FileSystem} {inputPath outputPath content : Bytes}
  {source target : FileSystem.Place}

/-- **A run from a file to a different one** is a run over its content, into a sink without a
bound. What the sink takes is put at the target, and nothing anywhere else. -/
theorem transformFile_of_regular (transform : Transform) (options : Options) (stdin : Bytes)
    (hin : FileRun.Regular files inputPath source content)
    (hout : FileRun.Writable files outputPath target) (hne : target ≠ source) :
    (transformFile transform options files stdin inputPath outputPath).files
        = (files.put target (.file [])).put target
            (.file (run transform options { data := content } {}).sink.accepted) ∧
      (transformFile transform options files stdin inputPath outputPath).failure
        = (run transform options { data := content } {}).failure.map
            (Fault.locate inputPath outputPath) := by
  have hcontent : files.entry? source = some (.file content) :=
    (FileSystem.entry?_of_follow hin.follow nofun).2
  have htarget := FileSystem.entry?_put files hout.place_ne_nil (.file [])
  have hsource : FileRun.Input.source (files.put target (.file [])) (.file inputPath source)
      = { data := content } := by
    simp only [FileRun.Input.source, FileSystem.contents,
      FileSystem.entry?_put_of_ne files hne.symm, hcontent]
  have hsink : FileRun.Output.sink (files.put target (.file [])) (.file outputPath target)
      = {} := by
    simp only [FileRun.Output.sink, htarget]
  have hclose : FileRun.Output.close? (files.put target (.file [])) (.file outputPath target)
      = none := by
    simp only [FileRun.Output.close?, htarget]
  simp only [transformFile, hin.openInput stdin, hout.openOutput, hsource, hsink, hclose,
    FileRun.Output.store, htarget, Option.orElse_eq_orElse, Option.orElse_eq_or, Option.or_none]
  trivial

/-- What such a run leaves, if its sink takes terminated lines. -/
theorem leaves_transformFile (transform : Transform) (options : Options) (stdin : Bytes)
    (hin : FileRun.Regular files inputPath source content)
    (hout : FileRun.Writable files outputPath target) (hne : target ≠ source)
    {results : List Bytes}
    (haccepted : (run transform options { data := content } {}).sink.accepted
      = terminated results)
    (hresults : ∀ result ∈ results, Unbroken result) :
    FileRun.Leaves files
      (transformFile transform options files stdin inputPath outputPath).files target
      results := by
  have hfiles := (transformFile_of_regular transform options stdin hin hout hne).1
  rw [haccepted] at hfiles
  refine ⟨?_, lines_terminated hresults, fun place' hplace => ?_⟩
  · rw [hfiles]
    exact FileSystem.entry?_put _ hout.place_ne_nil _
  · rw [hfiles, FileSystem.entry?_put_of_ne _ hplace, FileSystem.entry?_put_of_ne _ hplace]

end Files

/-! ## The built-in transformations, line by line -/

/-- A run with nothing set is a run over the lines of the decoded text. -/
theorem run_default (transform : Transform) (data : Bytes) :
    run transform {} { data } {}
      = Run.overScanned transform {} {} ⟨lines (decodeText data), none⟩ := by
  rw [run, Options.limit_of_nonpos (Int.le_refl 0), Source.scan_decode]

/-- **What is left of a run that squeezes a text**: it has not failed, and has read, squeezed and
written every line. -/
structure Run.Outcome.Squeezes (outcome : Run.Outcome) (data : Bytes) : Prop where
  failure : outcome.failure = none
  accepted : outcome.sink.accepted = terminated ((lines (decodeText data)).map squeeze)
  stats : outcome.stats =
    { transform := Transform.squeeze.name
      linesRead := (lines (decodeText data)).length
      linesWritten := (lines (decodeText data)).length
      bytesWritten := (terminated ((lines (decodeText data)).map squeeze)).length }

/-- **Squeezing never fails**, and squeezes every line. -/
theorem run_of_squeeze {onEmpty : Bytes} {options : Options}
    (hp : options.onEmpty = Policy.ofWord onEmpty) (hc : options.cancellation = none)
    (hl : options.maxLineBytes ≤ 0) (data : Bytes) (chunk : Nat) (full : Fault) :
    (run Transform.squeeze options { data, chunk } { failure := full }).Squeezes data := by
  set L := lines (decodeText data) with hL
  have hkept : Reference.kept Transform.squeeze onEmpty L = L :=
    Reference.kept_of_forall Transform.squeeze onEmpty L fun _ _ => rfl
  have hresults : Reference.results Transform.squeeze onEmpty L = L.map squeeze :=
    congrFun List.filterMap_eq_map L
  have hnone : Reference.leftOut Transform.squeeze onEmpty L = 0 :=
    List.countP_eq_zero.mpr fun _ _ => Bool.false_ne_true
  obtain ⟨haccepted, hstats, hfailure⟩ := Reference.overScanned_of_kept options
    { failure := full } ⟨L, none⟩ hp hc rfl hkept
  rw [run, Options.limit_of_nonpos hl, Source.scan_decode, ← hL]
  refine ⟨hfailure, haccepted.trans ?_, hstats.trans ?_⟩
  · rw [Reference.emitted, hresults]
    rfl
  · rw [Reference.tally, Reference.emitted, hresults, hnone, List.length_map]
    rfl

/-- A line that cannot be decoded has no digits, and that is all there is to it. -/
theorem eq_emptyNumeral_of_decodeLine {line : Bytes} {cause : Fault}
    (h : Transform.decodeLine line = .error cause) : cause = .emptyNumeral := by
  rw [decodeLine_eq] at h
  split_ifs at h
  exact (Except.error.inj h).symm

/-- The number of lines before the first that cannot be decoded. -/
def decodable (ls : List Bytes) : Nat :=
  ls.findIdx fun line => !(Transform.decodeLine line).isOk

/-- Under the policy that tolerates nothing, a run that decodes digits ends at the first line that
cannot be decoded. -/
theorem isStop_verdict_binary (line : Bytes) :
    (Reference.verdict Transform.binary [] line).isStop = !(Transform.decodeLine line).isOk := by
  have happly : Transform.binary.apply line = Transform.decodeLine line := rfl
  have hskip : ([] : Bytes) ≠ utf8 "skip" := by decide
  have hzero : ([] : Bytes) ≠ utf8 "zero" := by decide
  rw [Reference.verdict, happly]
  cases Transform.decodeLine line with
  | ok result => rfl
  | error cause =>
    simp only [if_neg hskip, if_neg hzero, ite_self]
    rfl

theorem stopIndex_binary (ls : List Bytes) :
    Reference.stopIndex Transform.binary [] ls = decodable ls + 1 := by
  simp only [Reference.stopIndex, isStop_verdict_binary, decodable]

theorem kept_binary (ls : List Bytes) :
    Reference.kept Transform.binary [] ls = ls.take (decodable ls) := by
  rw [Reference.kept, stopIndex_binary, Nat.add_sub_cancel]

/-- The results for lines that can be decoded are what each of them decodes to. -/
theorem forall₂_results_binary {ls : List Bytes}
    (h : ∀ line ∈ ls, (Reference.verdict Transform.binary [] line).isStop = false) :
    List.Forall₂ (fun line result => Transform.decodeLine line = .ok result) ls
      (Reference.results Transform.binary [] ls) := by
  induction ls with
  | nil => exact .nil
  | cons line ls ih =>
    obtain ⟨hline, hls⟩ := List.forall_mem_cons.mp h
    rw [isStop_verdict_binary] at hline
    cases hdecode : Transform.decodeLine line with
    | error cause => simp [hdecode, Except.isOk, Except.toBool] at hline
    | ok result =>
      have happly : Transform.binary.apply line = .ok result := hdecode
      have hverdict : Reference.verdict Transform.binary [] line = .emit result := by
        simp only [Reference.verdict, happly]
      have hcons : Reference.results Transform.binary [] ([line] ++ ls)
          = result :: Reference.results Transform.binary [] ls := by
        rw [Reference.results_append, Reference.results_of_emit hverdict]
        rfl
      rw [← List.singleton_append, hcons]
      exact .cons hdecode (ih hls)

/-- **Decoding ends at the first line without digits**: what is written are the decoded lines
before it, and the failure names it. -/
theorem run_of_binary (data : Bytes) :
    let L := lines (decodeText data)
    let outcome := run Transform.binary {} { data } {}
    (∃ results, outcome.sink.accepted = terminated results ∧
        List.Forall₂ (fun line result => Transform.decodeLine line = .ok result)
          (L.take (decodable L)) results) ∧
      (L.take (decodable L) = L ∧ outcome.failure = none ∨
        ∃ line, L[decodable L]? = some line ∧
          Transform.decodeLine line = .error .emptyNumeral ∧
          outcome.failure
            = some (.parse Transform.binary.name (decodable L + 1) line .emptyNumeral)) := by
  intro L outcome
  have hkept : ∀ line ∈ L.take (decodable L),
      (Reference.verdict Transform.binary [] line).isStop = false := by
    rw [← kept_binary]
    exact fun line => Reference.isStop_of_mem_kept Transform.binary [] L
  have houtcome : outcome = Run.overScanned Transform.binary {} {} ⟨L, none⟩ :=
    run_default Transform.binary data
  have hp : ({} : Options).onEmpty = Policy.ofWord [] := rfl
  rw [houtcome]
  refine ⟨⟨_, ?_, forall₂_results_binary hkept⟩, ?_⟩
  · rw [Reference.accepted_overScanned {} {} ⟨L, none⟩ hp rfl rfl, Reference.output, kept_binary]
    rfl
  · rcases Reference.kept_cases Transform.binary [] L with
      ⟨hk, -⟩ | ⟨line, rest, cause, hL, hv, hs⟩
    · left
      obtain ⟨-, -, hfailure⟩ := Reference.overScanned_of_kept {} {} ⟨L, none⟩ rfl rfl rfl hk
      rw [kept_binary] at hk
      exact ⟨hk, hfailure⟩
    · right
      obtain ⟨-, -, hfailure⟩ := Reference.overScanned_of_stop {} {} ⟨L, none⟩ rfl rfl rfl hL hv
      have hdecode : Transform.decodeLine line = .error cause := (Reference.of_verdict_stop hv).1
      obtain rfl := eq_emptyNumeral_of_decodeLine hdecode
      have hlength : (Reference.kept Transform.binary [] L).length = decodable L := by
        rw [stopIndex_binary] at hs
        omega
      refine ⟨line, ?_, hdecode, ?_⟩
      · calc L[decodable L]?
            = (Reference.kept Transform.binary [] L ++ line :: rest)[decodable L]? :=
              congrArg (·[decodable L]?) hL
          _ = some line := by
            rw [← hlength]
            simp
      · rw [hfailure, hlength]

/-! ## Files -/

section Builtin

variable {files : FileSystem} {inputPath outputPath content : Bytes}
  {source target : FileSystem.Place}

/-- **Squeezing a file** succeeds and leaves its lines squeezed. -/
theorem squeezeFile_of_regular (hin : FileRun.Regular files inputPath source content)
    (hout : FileRun.Writable files outputPath target) (hne : target ≠ source) :
    (squeezeFile Registry.builtin files inputPath outputPath).failure = none ∧
      FileRun.Leaves files (squeezeFile Registry.builtin files inputPath outputPath).files target
        ((lines (decodeText content)).map squeeze) := by
  have hp : ({} : Options).onEmpty = Policy.ofWord [] := rfl
  have hrun := run_of_squeeze hp rfl (Int.le_refl 0) content 0 .unstated
  refine ⟨?_, leaves_transformFile Transform.squeeze {} [] hin hout hne hrun.accepted ?_⟩
  · refine (transformFile_of_regular Transform.squeeze {} [] hin hout hne).2.trans ?_
    rw [hrun.failure]
    rfl
  · intro result hresult
    obtain ⟨line, -, rfl⟩ := List.mem_map.mp hresult
    exact unbroken_squeeze line

/-- **Decoding a file** leaves the decoded lines before the first one without digits, and fails at
that line if there is one. -/
theorem decodeFile_of_regular (hin : FileRun.Regular files inputPath source content)
    (hout : FileRun.Writable files outputPath target) (hne : target ≠ source) :
    let L := lines (decodeText content)
    let decoded := decodeFile Registry.builtin files inputPath outputPath
    (∃ results, FileRun.Leaves files decoded.files target results ∧
        List.Forall₂ (fun line result => Transform.decodeLine line = .ok result)
          (L.take (decodable L)) results) ∧
      (L.take (decodable L) = L ∧ decoded.failure = none ∨
        ∃ line, L[decodable L]? = some line ∧
          Transform.decodeLine line = .error .emptyNumeral ∧
          decoded.failure
            = some (.parse Transform.binary.name (decodable L + 1) line .emptyNumeral)) := by
  intro L decoded
  obtain ⟨⟨results, haccepted, hresults⟩, hend⟩ := run_of_binary content
  have hfailure : decoded.failure = (run Transform.binary {} { data := content } {}).failure.map
      (Fault.locate inputPath outputPath) :=
    (transformFile_of_regular Transform.binary {} [] hin hout hne).2
  refine ⟨⟨results, ?_, hresults⟩, ?_⟩
  · have hunbroken : ∀ result ∈ results, Unbroken result :=
      ((List.forall₂_and_left _ _).mp
        (hresults.flip.imp fun _ _ h => ⟨unbroken_of_decodeLine h, h⟩)).1
    exact leaves_transformFile Transform.binary {} [] hin hout hne haccepted hunbroken
  · rw [hfailure]
    rcases hend with ⟨hall, hnone⟩ | ⟨line, hline, hdecode, hfault⟩
    · left
      rw [hnone]
      exact ⟨hall, rfl⟩
    · right
      rw [hfault]
      exact ⟨line, hline, hdecode, rfl⟩

end Builtin

/-- **The file operations agree with the line operations.** The input is a file, and the output
names a different one, or a place where one can be made. Squeezing succeeds and leaves each line
squeezed. Decoding succeeds exactly if every line can be decoded; it leaves what the lines before
the first that cannot, line `k + 1`, decode to, and its failure gives that line with its number. In
both cases the output is read back as these results, and everything else is as it was. -/
theorem fileRuns_eq_lines (files : FileSystem) (inputPath outputPath content : Bytes)
    (source target : FileSystem.Place) (hin : FileRun.Regular files inputPath source content)
    (hout : FileRun.Writable files outputPath target) (hne : target ≠ source) :
    let L := lines (decodeText content)
    let squeezed := squeezeFile Registry.builtin files inputPath outputPath
    let decoded := decodeFile Registry.builtin files inputPath outputPath
    let k := decodable L
    (squeezed.failure = none ∧
        FileRun.Leaves files squeezed.files target (L.map squeeze)) ∧
      (decoded.failure = none ↔ ∀ line ∈ L, ∃ result, Transform.decodeLine line = .ok result) ∧
      (∃ results, FileRun.Leaves files decoded.files target results ∧
        List.Forall₂ (fun line result => Transform.decodeLine line = .ok result)
          (L.take k) results) ∧
      ∀ line, L[k]? = some line → ∃ fault, decoded.failure = some fault ∧
        fault = .parse Transform.binary.name (k + 1) line .emptyNumeral ∧
        Fault.emptyNumeral ∈ fault.chain := by
  intro L squeezed decoded k
  obtain ⟨hleaves, hend⟩ := decodeFile_of_regular hin hout hne
  refine ⟨squeezeFile_of_regular hin hout hne, ?_, hleaves, ?_⟩
  · obtain ⟨results, -, hresults⟩ := hleaves
    rcases hend with ⟨hall, hnone⟩ | ⟨line, hline, hdecode, hfault⟩
    · refine iff_of_true hnone ?_
      rw [hall] at hresults
      exact ((List.forall₂_and_left _ _).mp (hresults.imp fun _ _ h => ⟨⟨_, h⟩, h⟩)).1
    · refine iff_of_false (by rw [hfault]; simp) fun hdecodes => ?_
      obtain ⟨result, hresult⟩ := hdecodes line (List.mem_of_getElem? hline)
      rw [hdecode] at hresult
      cases hresult
  · intro line hline
    rcases hend with ⟨hall, -⟩ | ⟨line', hline', -, hfault⟩
    · have hlength : L.length ≤ k := List.take_eq_self_iff L |>.mp hall
      rw [List.getElem?_eq_none hlength] at hline
      cases hline
    · obtain rfl := Option.some.inj (hline'.symm.trans hline)
      exact ⟨_, hfault, rfl, by simp [Fault.chain]⟩

/-- A file with three kinds of ends, its second line without digits, and an output that held
something else. -/
theorem fileRuns_eq_lines_second :
    let files := (FileSystem.fresh.install (utf8 "in.txt") (utf8 " 1  0\r\nnone\r11")).install
      (utf8 "out.txt") (utf8 "old")
    let source := [utf8 "tmp", utf8 "work", utf8 "in.txt"]
    let target := [utf8 "tmp", utf8 "work", utf8 "out.txt"]
    FileRun.Regular files (utf8 "in.txt") source (utf8 " 1  0\r\nnone\r11") ∧
      FileRun.Writable files (utf8 "out.txt") target ∧ target ≠ source ∧
      (squeezeFile Registry.builtin files (utf8 "in.txt") (utf8 "out.txt")).files.entry? target
        = some (.file (utf8 "1 0\nnone\n11\n")) ∧
      (decodeFile Registry.builtin files (utf8 "in.txt") (utf8 "out.txt")).failure
        = some (.parse (utf8 "binary") 2 (utf8 "none") .emptyNumeral) := by
  intro files source target
  have hin : FileRun.Regular files (utf8 "in.txt") source (utf8 " 1  0\r\nnone\r11") :=
    ⟨by decide, by decide, by decide⟩
  have hout : FileRun.Writable files (utf8 "out.txt") target :=
    ⟨by decide, by decide, .inl ⟨utf8 "old", by decide⟩⟩
  have hne : target ≠ source := by decide
  obtain ⟨⟨-, hsqueezed⟩, -, -, hfault⟩ := fileRuns_eq_lines files _ _ _ source target hin hout hne
  obtain ⟨fault, hfailure, rfl, -⟩ := hfault (utf8 "none") (by decide)
  refine ⟨hin, hout, hne, hsqueezed.content.trans (by decide), hfailure.trans (by decide)⟩

end Linewise

import Linewise.FileRun
import Linewise.Proofs.FileSystem
import Linewise.Proofs.Reference

/-!
# Runs from a file to itself

A run over files empties its output before it reads its input. When both paths lead
to the same file, the run finds nothing to read: it succeeds, writes nothing, and the
content of the file is gone.

## Main definitions

* `FileRun.Regular`: a path leads to a file

## Main results

* `run_nil`: a run over no bytes
* `transformFile_in_place`: an in-place run leaves an empty file, so it leaves what the content
  comes to exactly if that is nothing
-/

namespace Linewise

/-- **A run over no bytes** succeeds, reads no line and writes nothing, whatever its options. -/
theorem run_nil (transform : Transform) (options : Options) (sink : Sink) :
    run transform options { data := [] } sink
      = { sink, stats := { transform := transform.name }, failure := none,
          log := [Run.endEntry { transform := transform.name }] } := by
  have hscan : Stream.scan options.limit (Source.decode { data := [] }) = ⟨[], none⟩ := by
    have hdrain := drain_nil options.limit_ne_zero
    rw [Stream.scan_eq options.limit_ne_zero, Source.flatten_pieces_decode,
      Source.contents_decode rfl, Source.failure_decode]
    simp [hdrain]
  rw [run, hscan]
  rfl

namespace FileRun

/-- **A path leads to a file** at a place, with some content. The path is not the one that stands
for the standard streams. -/
structure Regular (files : FileSystem) (path : Bytes) (place : FileSystem.Place)
    (content : Bytes) : Prop where
  /-- The path does not stand for the standard input or output. -/
  ne_dash : path ≠ dash
  /-- The path does not ask for a directory. -/
  noSlash : FileSystem.endsInSlash path = false
  /-- The path leads to the file. -/
  follow : files.follow path = .ok (.taken place (.file content))

variable {files : FileSystem} {path content : Bytes} {place : FileSystem.Place}

theorem Regular.openInput (h : Regular files path place content) (stdin : Bytes) :
    FileRun.openInput files stdin path = .ok (.file path place) := by
  simp only [FileRun.openInput, if_neg h.ne_dash, FileSystem.openInput, h.follow, h.noSlash]
  rfl

/-- Opening a file to be written empties it. -/
theorem Regular.openOutput (h : Regular files path place content) :
    FileRun.openOutput files path
      = .ok (files.put place (.file []), .file path place) := by
  simp only [FileRun.openOutput, if_neg h.ne_dash, FileSystem.openOutput, h.follow, h.noSlash]
  rfl

theorem Regular.place_ne_nil (h : Regular files path place content) : place ≠ [] :=
  (FileSystem.entry?_of_follow h.follow nofun).1

end FileRun

/-- **An in-place run loses the content of its file.** When both paths lead to the same file, the
run succeeds, the file is empty afterwards and nothing else has changed. So the file holds what
its content comes to, line by line, exactly if that is nothing. -/
theorem transformFile_in_place (transform : Transform) (options : Options) (files : FileSystem)
    (stdin inputPath outputPath content : Bytes) (place : FileSystem.Place)
    (hin : FileRun.Regular files inputPath place content)
    (hout : FileRun.Regular files outputPath place content) :
    let outcome := transformFile transform options files stdin inputPath outputPath
    let reference := Reference.output transform options.onEmpty.word (lines (decodeText content))
    outcome.failure = none ∧ outcome.files.entry? place = some (.file []) ∧
      (∀ place', place' ≠ place → outcome.files.entry? place' = files.entry? place') ∧
      ((outcome.failure = none → outcome.files.entry? place = some (.file reference)) ↔
        reference = []) := by
  intro outcome reference
  have hne := hin.place_ne_nil
  -- Opening the output has emptied the file that the input is read from.
  have hempty := FileSystem.entry?_put files hne (.file [])
  have hsource : FileRun.Input.source (files.put place (.file [])) (.file inputPath place)
      = { data := [] } := by
    simp only [FileRun.Input.source, FileSystem.contents, hempty]
  have hsink : FileRun.Output.sink (files.put place (.file [])) (.file outputPath place) = {} := by
    simp only [FileRun.Output.sink, hempty]
  have hclose : FileRun.Output.close? (files.put place (.file [])) (.file outputPath place)
      = none := by
    simp only [FileRun.Output.close?, hempty]
  have hstore : FileRun.Output.store (files.put place (.file [])) [] (.file outputPath place)
      = (files.put place (.file [])).put place (.file []) := by
    simp only [FileRun.Output.store, hempty]
  have houtcome : outcome.failure = none ∧
      outcome.files = (files.put place (.file [])).put place (.file []) := by
    simp only [outcome, transformFile, hin.openInput stdin, hout.openOutput, hsource, hsink,
      run_nil, hclose, hstore]
    exact ⟨rfl, trivial⟩
  obtain ⟨hfailure, hfiles⟩ := houtcome
  have hafter : outcome.files.entry? place = some (.file []) := by
    rw [hfiles]
    exact FileSystem.entry?_put _ hne _
  refine ⟨hfailure, hafter, fun place' hplace => ?_, ?_⟩
  · rw [hfiles, FileSystem.entry?_put_of_ne _ hplace, FileSystem.entry?_put_of_ne _ hplace]
  · rw [hafter]
    constructor
    · intro h
      simpa using (h hfailure).symm
    · rintro h -
      rw [h]

/-- Two spellings of one path lead to the same file. -/
theorem transformFile_in_place_spellings :
    let files := FileSystem.fresh.install (utf8 "codes.txt") (utf8 "1010\n")
    let place := [utf8 "tmp", utf8 "work", utf8 "codes.txt"]
    let outcome := transformFile Transform.binary {} files [] (utf8 "codes.txt")
      (utf8 "./codes.txt")
    FileRun.Regular files (utf8 "codes.txt") place (utf8 "1010\n") ∧
      FileRun.Regular files (utf8 "./codes.txt") place (utf8 "1010\n") ∧
      outcome.failure = none ∧ outcome.files.entry? place = some (.file []) := by
  intro files place outcome
  have hin : FileRun.Regular files (utf8 "codes.txt") place (utf8 "1010\n") :=
    ⟨by decide, by decide, by decide⟩
  have hout : FileRun.Regular files (utf8 "./codes.txt") place (utf8 "1010\n") :=
    ⟨by decide, by decide, by decide⟩
  obtain ⟨hfailure, hentry, -⟩ := transformFile_in_place Transform.binary {} files [] _ _ _ _
    hin hout
  exact ⟨hin, hout, hfailure, hentry⟩

/-- **A numeral is lost in place.** The run reports success, and reading the file afterwards gives
nothing where the line comes to `10`. -/
theorem transformFile_in_place_loses :
    let path := utf8 "codes.txt"
    let files := FileSystem.fresh.install path (utf8 "1010\n")
    let outcome := transformFile Transform.binary {} files [] path path
    let reference := Reference.output Transform.binary Policy.fail.word
      (lines (decodeText (utf8 "1010\n")))
    files.read path = .ok (utf8 "1010\n") ∧ reference = utf8 "10\n" ∧
      outcome.failure = none ∧ outcome.files.read path = .ok [] ∧
      ¬ (outcome.failure = none → outcome.files.read path = .ok reference) := by
  decide

end Linewise

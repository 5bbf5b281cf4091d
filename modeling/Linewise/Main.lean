import Linewise.Program

/-!
# The command line

Looks up the files that a command line may touch, carries out what it asks for,
and writes back what changed. Everything that is decided is decided by
`Program.plan` and `Job`; this module only carries bytes to and fro.
-/

namespace Linewise.Console

/-- The bytes of a byte array. -/
def ofArray (bytes : ByteArray) : Bytes :=
  bytes.toList

/-- Writes bytes to a stream. -/
def write (stream : IO.FS.Stream) (text : Bytes) : IO Unit := do
  stream.write ⟨text.toArray⟩
  stream.flush

/-- Reads a stream to its end, after the bytes in `done`. -/
partial def readAll (stream : IO.FS.Stream) (done : ByteArray) : IO ByteArray := do
  let piece ← stream.read 65536
  if piece.isEmpty then return done
  readAll stream (done ++ piece)

/-- The variables of the process. -/
def environment : IO Environment := do
  let text ← try IO.FS.readBinFile "/proc/self/environ" catch _ => pure .empty
  return (Bytes.splitOn [0] (ofArray text)).filterMap fun entry =>
    let name := entry.takeWhile (· ≠ ascii '=')
    if name.length < entry.length then some (name, entry.drop (name.length + 1)) else none

/-- What is at a place, if it can be told. -/
def look (place : FileSystem.Place) : IO (Option FileSystem.Entry) := do
  match (FileSystem.absolute place).toString? with
  | none => return none
  | some path =>
    try
      return some (.file (ofArray (← IO.FS.readBinFile path)))
    catch
      | .inappropriateType .. => return some .directory
      | _ => return none

/-- Adds what lies along some names, from a directory. -/
def survey (files : FileSystem) (place : FileSystem.Place) : List Bytes → IO FileSystem
  | [] => return files
  | name :: rest => do
    if name = utf8 "." then survey files place rest
    else if name = utf8 ".." then survey files place.dropLast rest
    else
      let next := place ++ [name]
      if (files.entry? next).isSome then survey files next rest
      else
        match ← look next with
        | some entry => survey (files.put next entry) next rest
        | none => return files

/-- Adds what lies along some paths. -/
def surveyAll (files : FileSystem) (paths : List Bytes) : IO FileSystem :=
  paths.foldlM (fun files path => survey files (files.start path) (FileSystem.names path)) files

/-- Writes the files back that a job has changed. -/
def store (before after : FileSystem) : IO Unit :=
  (before.changedFiles after).forM fun (place, content) =>
    match (FileSystem.absolute place).toString? with
    | none => return ()
    | some path => IO.FS.writeBinFile path ⟨content.toArray⟩

/-- Carries out a job, and measures how long its run takes. -/
def perform (job : Job) (files : FileSystem) : IO Outcome := do
  let files ← surveyAll files [job.input, job.output, job.metricsFile]
  let stdin ← if job.input = FileRun.dash then readAll (← IO.getStdin) .empty else pure .empty
  let start ← IO.monoNanosNow
  let run ← IO.lazyPure fun _ => job.run files (ofArray stdin)
  let stop ← IO.monoNanosNow
  let stats := { run.stats with duration := stop - start }
  let elapsed := fun duration => Duration.text (Duration.round Duration.microsecond duration)
  let outcome := job.conclude elapsed { run with stats }
  store files outcome.files
  return outcome

end Linewise.Console

open Linewise in
/-- Runs the program on its command line. -/
def main (arguments : List String) : IO UInt32 := do
  let arguments := arguments.map utf8
  let working := FileSystem.names (utf8 (← IO.currentDir).toString)
  let files ← Console.surveyAll (.workingAt working) (Program.documents arguments)
  let session : Session := { arguments, environment := ← Console.environment, files }
  let outcome ← match Program.plan session with
    | .answer outcome => pure outcome
    | .job job => Console.perform job files
  Console.write (← IO.getStdout) outcome.stdout
  Console.write (← IO.getStderr) (outcome.advice ++ outcome.log)
  match outcome.crash, outcome.failure with
  | some refusal, _ =>
    Console.write (← IO.getStderr) (utf8 "panic: " ++ refusal.message ++ utf8 "\n")
    return 2
  | none, some fault =>
    Console.write (← IO.getStderr) (utf8 "Error: " ++ fault.message ++ utf8 "\n")
    return 1
  | none, none => return 0

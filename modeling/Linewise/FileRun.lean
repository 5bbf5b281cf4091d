import Linewise.FileSystem
import Linewise.Registry
import Linewise.Run

/-!
# Runs over files

A run over files opens its input first and its output second, so that a missing
input never makes an output, and reads the input only then. A single dash stands
for the standard input or output. What fails while the run reads or writes is
reported with the path it happened to. The output is closed at the end; a failure to do
so is reported if nothing else has failed.

## Main definitions

* `FileRun.Outcome` — what is left of a run over files.
* `transformFile` — runs a transformation from one path to another.
* `transformFileNamed` — the same for a transformation given by name.
-/

namespace Linewise

namespace FileRun

/-- **What is left of a run over files.** -/
structure Outcome where
  /-- The files afterwards. -/
  files : FileSystem
  /-- What went to the standard output. -/
  stdout : Bytes := []
  /-- The counters. -/
  stats : Stats := {}
  /-- The failure that ended the run, if one did. -/
  failure : Option Fault := none
  /-- The log, in order. -/
  log : List Log.Entry := []

/-- The path that stands for the standard input or output. -/
def dash : Bytes := utf8 "-"

/-- **Where the lines of a run come from.** -/
inductive Input where
  /-- The standard input. -/
  | stdin (content : Bytes)
  /-- A file. -/
  | file (path : Bytes) (place : FileSystem.Place)

/-- **Where the results of a run go.** -/
inductive Output where
  /-- The standard output. -/
  | stdout
  /-- A file or a device. -/
  | file (path : Bytes) (place : FileSystem.Place)

/-- Opens the input of a run. -/
def openInput (files : FileSystem) (stdin path : Bytes) : Except Fault Input :=
  if path = dash then .ok (.stdin stdin)
  else
    match files.openInput path with
    | .ok place => .ok (.file path place)
    | .error reason => .error (.io Fault.openingInput path (.system (utf8 "open") path reason))

/-- Opens the output of a run. -/
def openOutput (files : FileSystem) (path : Bytes) : Except Fault (FileSystem × Output) :=
  if path = dash then .ok (files, .stdout)
  else
    match files.openOutput path with
    | .ok (files, place) => .ok (files, .file path place)
    | .error reason => .error (.io Fault.openingOutput path (.system (utf8 "open") path reason))

/-- The source that an open input is. -/
def Input.source (files : FileSystem) : Input → Source
  | stdin content => { data := content }
  | file path place =>
    match files.contents place with
    | .ok content => { data := content }
    | .error reason => { data := [], failure := some (.system (utf8 "read") path reason) }

/-- The sink that an open output is: only a full device has no room. -/
def Output.sink (files : FileSystem) : Output → Sink
  | stdout => {}
  | file path place =>
    match files.entry? place with
    | some (.device .full) =>
      { room := some 0, failure := .system (utf8 "write") path .noSpace }
    | _ => {}

/-- The files once an output has taken bytes: a device keeps none. -/
def Output.store (files : FileSystem) (accepted : Bytes) : Output → FileSystem
  | stdout => files
  | file _ place =>
    match files.entry? place with
    | some (.device _) => files
    | _ => files.put place (.file accepted)

/-- What closing an output fails with: a remote device has no room only then. The standard output
stays open. -/
def Output.close? (files : FileSystem) : Output → Option Fault
  | stdout => none
  | file path place =>
    match files.entry? place with
    | some (.device .remote) =>
      some (.io Fault.closing path (.system (utf8 "close") path .noSpace))
    | _ => none

/-- What of the bytes that an output has taken shows on the standard output. -/
def Output.shown (accepted : Bytes) : Output → Bytes
  | stdout => accepted
  | file .. => []

end FileRun

/-- **Runs a transformation from one path to another.** -/
def transformFile (transform : Transform) (options : Options) (files : FileSystem)
    (stdin inputPath outputPath : Bytes) : FileRun.Outcome :=
  let stats : Stats := { transform := transform.name }
  match FileRun.openInput files stdin inputPath with
  | .error fault => { files, stats, failure := some fault }
  | .ok input =>
    match FileRun.openOutput files outputPath with
    | .error fault => { files, stats, failure := some fault }
    | .ok (files, output) =>
      let outcome := run transform options (input.source files) (output.sink files)
      { files := output.store files outcome.sink.accepted
        stdout := output.shown outcome.sink.accepted
        stats := outcome.stats
        failure := outcome.failure.map (Fault.locate inputPath outputPath) <|> output.close? files
        log := outcome.log }

/-- Runs the transformation of a given name from one path to another; a name that is not
registered leaves everything as it is. -/
def transformFileNamed (registry : Registry) (name : Bytes) (options : Options)
    (files : FileSystem) (stdin inputPath outputPath : Bytes) : FileRun.Outcome :=
  match registry.get name with
  | .error fault => { files, failure := some fault }
  | .ok transform => transformFile transform options files stdin inputPath outputPath

/-- Decodes the binary digits of each line of a file. -/
def decodeFile (registry : Registry) (files : FileSystem) (inputPath outputPath : Bytes) :
    FileRun.Outcome :=
  transformFileNamed registry Transform.binary.name {} files [] inputPath outputPath

/-- Squeezes the blanks of each line of a file. -/
def squeezeFile (registry : Registry) (files : FileSystem) (inputPath outputPath : Bytes) :
    FileRun.Outcome :=
  transformFileNamed registry Transform.squeeze.name {} files [] inputPath outputPath

end Linewise

import Linewise.Command
import Linewise.FileRun
import Linewise.Metrics
import Linewise.Settings.Load
import Linewise.Summary

/-!
# Jobs

A job is a run over files that has been decided in every detail: the settings are
loaded, the flags are laid over them, and the transformation is found. Preparing
a job changes nothing; everything that can be refused beforehand is refused then.
After the run its metrics are written, and a summary is shown if the run went
well. A transformation whose name is no text cannot be counted: the program then
stops at once, after the run and with nothing more to say.

## Main definitions

* `Session` — what the program works on; `Session.load` loads its settings.
* `Outcome` — what is left when the program ends.
* `Job` — a run in every detail.
* `Job.settle`, `Job.resolve` — the settings with the flags over them.
* `Job.prepare` — the job that settings, flags and arguments ask for.
* `Job.run` — the run itself.
* `Job.conclude` — metrics, log, summary and the failure that is reported.
-/

namespace Linewise

/-- **What the program works on.** -/
structure Session where
  /-- The command line, without the name of the program. -/
  arguments : List Bytes := []
  /-- The environment. -/
  environment : Environment := []
  /-- The files. -/
  files : FileSystem := {}
  /-- The standard input. -/
  stdin : Bytes := []
  /-- The transformations. -/
  registry : Registry := Registry.builtin
  /-- The build. -/
  build : BuildInfo := {}
  /-- The settings that the workspace gives, by the files and the environment. -/
  workspace : FileSystem → Environment → Settings := Settings.ofWorkspace

/-- **The settings of a session**: what its workspace gives, with the document at a path and the
environment over it. -/
def Session.load (session : Session) (path : Bytes) : Settings.Loaded :=
  Settings.loadOver (session.workspace session.files session.environment) session.registry
    session.files session.environment path

/-- **What is left when the program ends.** -/
structure Outcome where
  /-- The files afterwards. -/
  files : FileSystem
  /-- The standard output. -/
  stdout : Bytes := []
  /-- Advice on how to call the program, for one who asked about an unknown command. -/
  advice : Bytes := []
  /-- The log. -/
  log : Bytes := []
  /-- The failure that is reported, if there is one. -/
  failure : Option Fault := none
  /-- Why the program stopped at once, if it did: its run could not be counted. -/
  crash : Option Metrics.Refusal := none

/-- **A run over files in every detail.** -/
structure Job where
  /-- The name under which the transformation was found. -/
  name : Bytes
  /-- The transformation. -/
  transform : Transform
  /-- How it treats lines. -/
  options : Options
  /-- The path of the input. -/
  input : Bytes
  /-- The path of the output. -/
  output : Bytes
  /-- The level of the log. -/
  level : Log.Level
  /-- Where the metrics go; empty for nowhere. -/
  metricsFile : Bytes
  /-- Is there no summary? -/
  quiet : Bool

namespace Job

/-- The settings with the flags over them that were given. -/
def overlay (given : Flags.Given) (settings : Settings) : Settings :=
  { settings with
    onEmpty := (given.text? "on-empty").getD settings.onEmpty
    maxLineBytes := (given.number? "max-line-bytes").getD settings.maxLineBytes
    metricsFile := (given.text? "metrics-file").getD settings.metricsFile
    logLevel := (given.text? "log-level").getD settings.logLevel }

/-- The path of the document with settings that the flags name. -/
def document (given : Flags.Given) : Bytes :=
  (given.text? "config-file").getD []

/-- **Loaded settings with the flags over them**; both have to be valid. -/
def settle (registry : Registry) (given : Flags.Given) (loaded : Settings.Loaded) :
    Except Fault Settings :=
  match loaded.failure with
  | some (_, fault) => .error fault
  | none =>
    let settings := overlay given loaded.settings
    match settings.validate registry with
    | some fault => .error fault
    | none => .ok settings

/-- The settings of a session with the flags over them. -/
def resolve (session : Session) (given : Flags.Given) : Except Fault Settings :=
  settle session.registry given (session.load (document given))

/-- **The job that settings, flags and arguments ask for.** Without a name the default
transformation runs; arguments take the place of the default paths. -/
def prepare (session : Session) (given : Flags.Given) (name : Bytes) : Except Fault Job :=
  match resolve session given with
  | .error fault => .error fault
  | .ok settings =>
    let name := if name.isEmpty then settings.defaultTransform else name
    match session.registry.get name, Policy.parse settings.onEmpty with
    | .error fault, _ => .error fault
    | _, .error fault => .error fault
    | .ok transform, .ok onEmpty =>
      .ok
        { name
          transform
          options := { onEmpty, maxLineBytes := settings.maxLineBytes }
          input := given.arguments.head?.getD settings.input
          output := given.arguments[1]?.getD settings.output
          level := Log.Level.ofName settings.logLevel
          metricsFile := settings.metricsFile
          quiet := given.isOn "quiet" }

/-- **The run itself.** -/
def run (job : Job) (files : FileSystem) (stdin : Bytes) : FileRun.Outcome :=
  transformFile job.transform job.options files stdin job.input job.output

/-- The entries of the log that the level keeps, each with the part of the program it comes
from. -/
def logText (job : Job) (entries : List Log.Entry) : Bytes :=
  let component := (utf8 "component", utf8 "codeclean.lineio." ++ job.name)
  Log.render ((Log.keep job.level entries).map fun entry =>
    { entry with fields := entry.fields ++ [component] })

/-- The metrics of one run, or why it cannot be counted. -/
def metrics (stats : Stats) (failure : Option Fault) : Except Metrics.Refusal Metrics :=
  match ({} : Metrics).observe stats failure with
  | (_, some refusal) => .error refusal
  | (metrics, none) => .ok metrics

/-- The files once the metrics of a run are written, with the failure if they could not be. A run
that cannot be counted is an error of its own. -/
def writeMetrics (job : Job) (outcome : FileRun.Outcome) :
    Except Metrics.Refusal (FileSystem × Option Fault) :=
  if job.metricsFile.isEmpty then .ok (outcome.files, none)
  else
    match metrics outcome.stats outcome.failure with
    | .error refusal => .error refusal
    | .ok metrics =>
      match outcome.files.replaceFile job.metricsFile metrics.exposition with
      | .ok files => .ok (files, none)
      | .error reason => .ok (outcome.files, some (.metricsNotWritten reason))

/-- What a failure is reported with. -/
def note (job : Job) : Bytes :=
  job.name ++ [Bytes.space] ++ job.input ++ utf8 " -> " ++ job.output

/-- Is a summary shown after a run that went well? On the standard output it would end up among the
results. -/
def showsSummary (job : Job) : Bool :=
  !job.quiet && job.output ≠ FileRun.dash

/-- **Ends a job after its run**: writes the metrics, reports the failure if there is one, that of
the run before that of the metrics, and shows the summary otherwise. -/
def conclude (job : Job) (elapsed : Int → Bytes) (outcome : FileRun.Outcome) : Outcome :=
  let log := job.logText outcome.log
  match job.writeMetrics outcome with
  | .error refusal =>
    { files := outcome.files, stdout := outcome.stdout, log, crash := some refusal }
  | .ok (files, unwritten) =>
    match outcome.failure <|> unwritten with
    | some fault =>
      { files, stdout := outcome.stdout, log, failure := some (.noted job.note fault) }
    | none =>
      let shown := if job.showsSummary then
          Summary.withElapsed outcome.stats job.input job.output
              (elapsed outcome.stats.duration) ++ utf8 "\n\n"
        else []
      { files, stdout := outcome.stdout ++ shown, log }

end Job

end Linewise

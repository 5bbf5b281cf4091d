import Linewise.Command.Help
import Linewise.Job
import Linewise.Json
import Linewise.Table

/-!
# The program

A command line either has its answer at once or asks for a job.

## Main definitions

* `Program.Plan` — an answer, or a job.
* `Program.plan` — what a command line asks for.
* `Program.documents` — where its settings may come from.
* `Program.execute` — the whole program.
-/

namespace Linewise.Program

/-- **What a command line asks for.** -/
inductive Plan where
  /-- An answer that is known at once. -/
  | answer (outcome : Outcome)
  /-- A run over files. -/
  | job (job : Job)

/-- An answer that changes no file. -/
def replies (session : Session) (stdout : Bytes) : Plan :=
  .answer { files := session.files, stdout }

/-- A failure that changes no file. -/
def fails (session : Session) (fault : Fault) : Plan :=
  .answer { files := session.files, failure := some fault }

/-- A mistake on the command line. -/
def refuses (session : Session) (error : UsageError) : Plan :=
  fails session (.other error.message)

/-- The job of a command that runs a transformation. -/
def runs (session : Session) (given : Flags.Given) (name : Bytes) : Plan :=
  match Job.prepare session given name with
  | .ok job => .job job
  | .error fault => fails session fault

/-- The transformations as a list of objects. -/
def listJson (registry : Registry) : Json :=
  .list (registry.list.map fun info =>
    .object [(utf8 "name", .text info.name), (utf8 "description", .text info.description)])

/-- The list of transformations; when the settings cannot be loaded, the initial ones say which is
the default. -/
def listText (session : Session) (given : Flags.Given) : Bytes :=
  if given.isOn "json" then (listJson session.registry).indented 0 ++ [Bytes.lineFeed]
  else
    let loaded := session.load []
    let settings := if loaded.failure.isNone then loaded.settings else Settings.initial
    transformsTable session.registry.list settings.defaultTransform

/-- What the build is known by. -/
def versionText (build : BuildInfo) (given : Flags.Given) : Bytes :=
  let text := if given.isOn "json" then
      (Json.object [(utf8 "commit", .text build.commit), (utf8 "date", .text build.date),
        (utf8 "version", .text build.version)]).compact
    else build.text
  text ++ [Bytes.lineFeed]

/-- The settings as a document. -/
def configPlan (session : Session) (given : Flags.Given) : Plan :=
  let loaded := session.load (Job.document given)
  match loaded.failure with
  | some (_, fault) => fails session fault
  | none => replies session loaded.settings.render

/-- The explanation of the command that some words name. -/
def helpPlan (session : Session) (words : List Bytes) : Plan :=
  match Command.find words with
  | .ok (command, _) => replies session (Help.text command)
  | .error _ => .answer { files := session.files, advice := Help.unknownTopic words }

/-- What a command does with its flags and arguments. -/
def commandPlan (session : Session) (command : Command) (given : Flags.Given) : Plan :=
  match command with
  | .decode => runs session given Transform.binary.name
  | .squeeze => runs session given Transform.squeeze.name
  | .run => runs session given ((given.text? "transform").getD [])
  | .list => replies session (listText session given)
  | .config => configPlan session given
  | .version => replies session (versionText session.build given)
  | .help => helpPlan session given.arguments
  | .program | .completion => replies session (Help.text command)

/-- **What a command line asks for.** A request for an explanation comes before any other, and a
command that does nothing of its own is explained too. -/
def plan (session : Session) : Plan :=
  match Command.find session.arguments with
  | .error error => refuses session error
  | .ok (command, arguments) =>
    match Flags.parse command.flags arguments with
    | .error error => refuses session error
    | .ok given =>
      if given.isOn "help" || !command.isRunnable then replies session (Help.text command)
      else
        match command.refuseArguments given.arguments with
        | some error => refuses session error
        | none => commandPlan session command given

/-- The paths of the documents from which the settings of a command line may come. -/
def documents (arguments : List Bytes) : List Bytes :=
  let named := match Command.find arguments with
    | .error _ => []
    | .ok (command, arguments) =>
      match Flags.parse command.flags arguments with
      | .error _ => []
      | .ok given => [Job.document given]
  Workspace.documentNames ++ Workspace.overrideNames ++ named

/-- **The whole program**: `elapsed` words the time that a run took. -/
def execute (elapsed : Int → Bytes) (session : Session) : Outcome :=
  match plan session with
  | .answer outcome => outcome
  | .job job => job.conclude elapsed (job.run session.files session.stdin)

end Linewise.Program

import Linewise.Program
import Linewise.Proofs.Layers

/-!
# What is refused before a run

A command that runs a transformation first loads the settings, lays the flags over them and
looks the transformation up. All that can be refused is refused then: the program fails, no
file has changed and nothing was printed. The policy is read once more after the settings were
found valid, and that cannot fail. Otherwise there is one run over files, and it has the
transformation, the options and the paths that settings, flags and arguments give.

## Main definitions

* `Job.Refused`: the ways a run is refused
* `Program.Asks`: a command line names a command, with flags and arguments
* `Program.toldName`: the name of the transformation that a command is told to run

## Main results

* `Settings.validate_eq_none_iff`: what validation says
* `Job.prepare_of_not_refused`, `Job.exists_prepare_error_iff`: a job is prepared or refused
* `Program.preflight`: no refusal leaves a trace, and a run is what was asked for
-/

namespace Linewise

/-! ## Validation -/

namespace Registry

theorem get_eq_ok_iff {registry : Registry} {name : Bytes} {transform : Transform} :
    registry.get name = .ok transform ↔ registry.find? name = some transform := by
  rw [get]
  cases registry.find? name with
  | none => simp
  | some found => simp

theorem exists_get_error {registry : Registry} {name : Bytes} (h : registry.find? name = none) :
    ∃ fault, registry.get name = .error fault := by
  rw [get, h]
  exact ⟨_, rfl⟩

end Registry

namespace Settings

/-- **What validation says**: the default transformation is registered, the policy can be read, the
bound is not negative, and the log level is known if there is one. -/
theorem validate_eq_none_iff {settings : Settings} {registry : Registry} :
    settings.validate registry = none ↔
      (∃ transform, registry.find? settings.defaultTransform = some transform) ∧
        (∃ policy, Policy.parse settings.onEmpty = .ok policy) ∧
        0 ≤ settings.maxLineBytes ∧
        (settings.logLevel = [] ∨ (Log.Level.parse? settings.logLevel).isSome) := by
  rw [validate]
  cases hfind : registry.find? settings.defaultTransform with
  | none =>
    obtain ⟨fault, hget⟩ := Registry.exists_get_error hfind
    simp [hget, refuse]
  | some transform =>
    rw [Registry.get_eq_ok_iff.mpr hfind]
    cases Policy.parse settings.onEmpty with
    | error fault => simp [refuse]
    | ok policy =>
      by_cases hbound : settings.maxLineBytes < 0
      · simp [hbound, Int.not_le.mpr hbound, refuse]
      · by_cases hlevel : settings.logLevel = [] ∨ (Log.Level.parse? settings.logLevel).isSome
        · simp [hbound, hlevel, Int.not_lt.mp hbound]
        · simp [hbound, hlevel, refuse]

end Settings

/-! ## Preparing a job -/

namespace Job

variable {session : Session} {given : Flags.Given} {settings : Settings} {name : Bytes}

/-- The policy of settings that were settled can be read. -/
theorem exists_policy_of_resolve (h : resolve session given = .ok settings) :
    ∃ policy, Policy.parse settings.onEmpty = .ok policy := by
  obtain ⟨-, hvalid, rfl⟩ := Settings.settle_eq_ok_iff.mp h
  exact (Settings.validate_eq_none_iff.mp hvalid).2.1

/-- The name under which a job looks its transformation up: the default one if none is given. -/
def nameOrDefault (name : Bytes) (settings : Settings) : Bytes :=
  if name.isEmpty then settings.defaultTransform else name

theorem prepare_of_unknown (hresolve : resolve session given = .ok settings)
    (hfind : session.registry.find? (nameOrDefault name settings) = none) :
    ∃ fault, prepare session given name = .error fault := by
  obtain ⟨fault, hget⟩ := Registry.exists_get_error hfind
  rw [nameOrDefault] at hget
  exact ⟨fault, by simp only [prepare, hresolve, hget]⟩

/-- With valid settings and a registered name there is a job: it runs the transformation on the
paths and with the options that settings, flags and arguments give. -/
theorem prepare_of_known {transform : Transform} {policy : Policy}
    (hresolve : resolve session given = .ok settings)
    (hfind : session.registry.find? (nameOrDefault name settings) = some transform)
    (hpolicy : Policy.parse settings.onEmpty = .ok policy) :
    ∃ job, prepare session given name = .ok job ∧
      ∀ files stdin, job.run files stdin
        = transformFile transform { onEmpty := policy, maxLineBytes := settings.maxLineBytes }
            files stdin (given.arguments.head?.getD settings.input)
            (given.arguments[1]?.getD settings.output) := by
  have hget := Registry.get_eq_ok_iff.mpr hfind
  rw [nameOrDefault] at hget
  simp only [prepare, hresolve, hget, hpolicy]
  exact ⟨_, rfl, fun files stdin => rfl⟩

/-- **The ways a run is refused**: the settings cannot be loaded, or are not valid with the flags
over them, or the name is not registered. -/
def Refused (session : Session) (given : Flags.Given) (name : Bytes) : Prop :=
  let loaded := session.load (document given)
  let settings := overlay given loaded.settings
  loaded.failure ≠ none ∨ settings.validate session.registry ≠ none ∨
    session.registry.find? (nameOrDefault name settings) = none

/-- **What is not refused is prepared.** -/
theorem prepare_of_not_refused (h : ¬ Refused session given name) :
    let settings := overlay given (session.load (document given)).settings
    ∃ job transform policy, prepare session given name = .ok job ∧
      session.registry.find? (nameOrDefault name settings) = some transform ∧
      Policy.parse settings.onEmpty = .ok policy ∧
      ∀ files stdin, job.run files stdin
        = transformFile transform { onEmpty := policy, maxLineBytes := settings.maxLineBytes }
            files stdin (given.arguments.head?.getD settings.input)
            (given.arguments[1]?.getD settings.output) := by
  intro settings
  simp only [Refused, not_or, not_not] at h
  obtain ⟨hfailure, hvalid, hfind⟩ := h
  have hresolve : resolve session given = .ok settings :=
    Settings.settle_eq_ok_iff.mpr ⟨hfailure, hvalid, rfl⟩
  obtain ⟨transform, hfind⟩ := Option.ne_none_iff_exists'.mp hfind
  obtain ⟨policy, hpolicy⟩ := exists_policy_of_resolve hresolve
  obtain ⟨job, hjob, hrun⟩ := prepare_of_known hresolve hfind hpolicy
  exact ⟨job, transform, policy, hjob, hfind, hpolicy, hrun⟩

/-- **A job is not prepared just if it is refused.** -/
theorem exists_prepare_error_iff (session : Session) (given : Flags.Given) (name : Bytes) :
    (∃ fault, prepare session given name = .error fault) ↔ Refused session given name := by
  constructor
  · rintro ⟨fault, hprepare⟩
    by_contra hnot
    obtain ⟨job, -, -, hjob, -⟩ := prepare_of_not_refused hnot
    rw [hprepare] at hjob
    cases hjob
  · intro hrefused
    cases hresolve : resolve session given with
    | error fault => exact ⟨fault, by simp only [prepare, hresolve]⟩
    | ok settings =>
      obtain ⟨hfailure, hvalid, rfl⟩ := Settings.settle_eq_ok_iff.mp hresolve
      rcases hrefused with h | h | h
      · exact absurd hfailure h
      · exact absurd hvalid h
      · exact prepare_of_unknown hresolve h

end Job

/-! ## The program -/

namespace Program

/-- **A command line names a command**, with flags and arguments it takes, and does not ask for an
explanation. -/
def Asks (session : Session) (command : Command) (given : Flags.Given) : Prop :=
  ∃ arguments, Command.find session.arguments = .ok (command, arguments) ∧
    Flags.parse command.flags arguments = .ok given ∧ given.isOn "help" = false ∧
    command.refuseArguments given.arguments = none

/-- The name of the transformation that a command is told to run: two commands have their own, and
the third takes it from a flag. -/
def toldName (command : Command) (given : Flags.Given) : Bytes :=
  match command with
  | .decode => Transform.binary.name
  | .squeeze => Transform.squeeze.name
  | _ => (given.text? "transform").getD []

/-- The commands that run a transformation. -/
def running : List Command := [.decode, .squeeze, .run]

variable {session : Session} {command : Command} {given : Flags.Given}

/-- The plan of a command that runs a transformation is to prepare its job. -/
theorem Asks.plan_eq (h : Asks session command given) (hcommand : command ∈ running) :
    plan session = runs session given (toldName command given) := by
  obtain ⟨arguments, hfind, hparse, hhelp, hrefuse⟩ := h
  simp only [plan, hfind, hparse, hhelp, hrefuse]
  simp only [running, List.mem_cons, List.not_mem_nil, or_false] at hcommand
  rcases hcommand with rfl | rfl | rfl <;> rfl

theorem runs_eq_answer_iff {name : Bytes} {outcome : Outcome} :
    runs session given name = .answer outcome ↔
      ∃ fault, Job.prepare session given name = .error fault ∧
        outcome = { files := session.files, failure := some fault } := by
  rw [runs]
  cases Job.prepare session given name with
  | error fault => simp [fails, eq_comm]
  | ok job => simp

theorem runs_eq_job_iff {name : Bytes} {job : Job} :
    runs session given name = .job job ↔ Job.prepare session given name = .ok job := by
  rw [runs]
  cases Job.prepare session given name with
  | error fault => simp [fails]
  | ok prepared => simp

/-- **What is refused before a run leaves no trace, and a run is what was asked for.** The workspace
gives the session any settings, and document, variables and flags are laid over them. The answer
to a command that runs a transformation is known at once just if the settings cannot be loaded, or
are not valid with the flags over them, or the name is not registered. Such an answer is a
failure that changes no file and prints nothing. Reading the policy of settled settings does not
fail. In all other cases there is one run over files, of the transformation of that name, with
that policy and the bound of the settings, on the paths of the arguments or else of the
settings. -/
theorem preflight (elapsed : Int → Bytes) (session : Session) (command : Command)
    (given : Flags.Given) (hasks : Asks session command given) (hcommand : command ∈ running) :
    let base := session.workspace session.files session.environment
    let loaded := Settings.loadOver base session.registry session.files session.environment
      (Job.document given)
    let settings := Job.overlay given loaded.settings
    let name := Job.nameOrDefault (toldName command given) settings
    let input := given.arguments.head?.getD settings.input
    let output := given.arguments[1]?.getD settings.output
    ((∃ outcome, plan session = .answer outcome) ↔
      loaded.failure ≠ none ∨ settings.validate session.registry ≠ none ∨
        session.registry.find? name = none) ∧
    (∀ resolved, Job.resolve session given = .ok resolved →
      ∃ policy, Policy.parse resolved.onEmpty = .ok policy) ∧
    (∀ outcome, plan session = .answer outcome →
      execute elapsed session = outcome ∧ outcome.failure ≠ none ∧
        outcome.files = session.files ∧ outcome.stdout = []) ∧
    (∀ job, plan session = .job job →
      ∃ transform policy, session.registry.find? name = some transform ∧
        Policy.parse settings.onEmpty = .ok policy ∧
        (∀ files stdin, job.run files stdin
          = transformFile transform { onEmpty := policy, maxLineBytes := settings.maxLineBytes }
              files stdin input output) ∧
        execute elapsed session
          = job.conclude elapsed
              (transformFile transform
                { onEmpty := policy, maxLineBytes := settings.maxLineBytes } session.files
                session.stdin input output)) := by
  intro base loaded settings name input output
  have hplan := hasks.plan_eq hcommand
  have hrefused := Job.exists_prepare_error_iff session given (toldName command given)
  refine ⟨?_, fun resolved => Job.exists_policy_of_resolve, ?_, ?_⟩
  · rw [hplan]
    constructor
    · rintro ⟨outcome, houtcome⟩
      obtain ⟨fault, hprepare, -⟩ := runs_eq_answer_iff.mp houtcome
      exact hrefused.mp ⟨fault, hprepare⟩
    · intro h
      obtain ⟨fault, hprepare⟩ := hrefused.mpr h
      exact ⟨_, runs_eq_answer_iff.mpr ⟨fault, hprepare, rfl⟩⟩
  · intro outcome houtcome
    refine ⟨by rw [execute, houtcome], ?_⟩
    rw [hplan] at houtcome
    obtain ⟨fault, -, rfl⟩ := runs_eq_answer_iff.mp houtcome
    exact ⟨nofun, rfl, rfl⟩
  · intro job hjob
    have hprepare := runs_eq_job_iff.mp (hplan.symm.trans hjob)
    have hnot : ¬ Job.Refused session given (toldName command given) := by
      rw [← hrefused]
      rintro ⟨fault, herror⟩
      rw [hprepare] at herror
      cases herror
    obtain ⟨prepared, transform, policy, hprepared, hfind, hpolicy, hrun⟩ :=
      Job.prepare_of_not_refused hnot
    obtain rfl : job = prepared := Except.ok.inj (hprepare.symm.trans hprepared)
    refine ⟨transform, policy, hfind, hpolicy, hrun, ?_⟩
    rw [execute, hjob]
    exact congrArg (job.conclude elapsed) (hrun session.files session.stdin)

set_option maxRecDepth 20000 in
/-- A name that is not registered is refused, although the input is there and the metrics have a
file: there is a failure, no file is made, and nothing is printed. -/
theorem preflight_unknown_name :
    let session : Session :=
      { arguments := ["run", "-t", "rot13", "--metrics-file", "m.prom", "in.txt", "out.txt"].map utf8
        files := FileSystem.fresh.install (utf8 "in.txt") (utf8 "101\n") }
    let outcome := execute (fun _ => []) session
    outcome.failure ≠ none ∧ outcome.files = session.files ∧ outcome.stdout = [] := by
  intro session outcome
  let given : Flags.Given :=
    { values := [(utf8 "transform", .text (utf8 "rot13")),
        (utf8 "metrics-file", .text (utf8 "m.prom"))]
      arguments := [utf8 "in.txt", utf8 "out.txt"] }
  have hasks : Asks session .run given := by
    refine ⟨["-t", "rot13", "--metrics-file", "m.prom", "in.txt", "out.txt"].map utf8, ?_⟩
    exact ⟨rfl, rfl, rfl, rfl⟩
  obtain ⟨hanswer, -, htrace, -⟩ := preflight (fun _ => []) session .run given hasks (by decide)
  obtain ⟨answer, hplan⟩ := hanswer.mpr (.inr (.inr (by decide)))
  obtain ⟨houtcome, hfailure, hfiles, hstdout⟩ := htrace answer hplan
  rw [← houtcome] at hfailure hfiles hstdout
  exact ⟨hfailure, hfiles, hstdout⟩

end Program

end Linewise

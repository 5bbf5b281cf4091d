import Linewise.Settings.Workspace

/-!
# Loading settings

Settings come in layers: the initial ones, those of the workspace, those of a
document, and those of the environment. A setting has the value of the last layer
that sets it.

## Main definitions

* `Settings.Stage` — where loading can fail.
* `Settings.Loaded` — the settings, with the failure if there was one.
* `Settings.documentEntries` — the entries of the document at a path.
* `Settings.loadOver` — document and environment over given settings.
* `Settings.load` — all layers.
-/

namespace Linewise.Settings

open Yaml (Value)

/-- **Where loading can fail.** -/
inductive Stage where
  /-- The document cannot be read. -/
  | file
  /-- Values do not fit their settings. -/
  | decoding
  /-- No run could use the settings. -/
  | validation
deriving DecidableEq, Repr

/-- **What comes of loading**: the settings as far as they came, and the failure if there was
one. -/
structure Loaded where
  /-- The settings. -/
  settings : Settings
  /-- Where and how loading failed. -/
  failure : Option (Stage × Fault) := none
deriving DecidableEq, Repr

/-- **The entries of the document at a path**; no path at all is an empty document. -/
def documentEntries (files : FileSystem) (path : Bytes) :
    Except Fault (List (Bytes × Value)) :=
  if path.isEmpty then .ok []
  else
    match files.read path with
    | .error fault => .error fault
    | .ok text =>
      match Yaml.readMap? text with
      | some entries => .ok entries
      | none => .error .malformedDocument

/-- **Document and environment over given settings.** -/
def loadOver (base : Settings) (registry : Registry) (files : FileSystem)
    (environment : Environment) (path : Bytes) : Loaded :=
  match documentEntries files path with
  | .error cause =>
    ⟨base, some (.file, .noted (utf8 "failed to load config file " ++ path) cause)⟩
  | .ok entries =>
    let progress := base.decode .free (merge entries environment.entries)
    if progress.problems.isEmpty then
      ⟨progress.settings, (progress.settings.validate registry).map (Stage.validation, ·)⟩
    else
      ⟨progress.settings, some (.decoding, .noted (utf8 "failed to decode config")
        (.unfitValues (progress.problems.map Problem.message)))⟩

/-- **All layers**: the initial settings, the workspace, a document and the environment. -/
def load (registry : Registry) (files : FileSystem) (environment : Environment) (path : Bytes) :
    Loaded :=
  loadOver (ofWorkspace files environment) registry files environment path

end Linewise.Settings

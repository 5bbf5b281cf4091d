import Linewise.FileSystem
import Linewise.Settings.Environment

/-!
# Settings of a workspace

A workspace may keep the settings of its programs in one document, each in a
section of its own. Variables in braces are replaced in the text of the document
before it is read. An override document beside it takes precedence. Whatever is
wrong with these documents is passed over: what fits counts.

## Main definitions

* `Workspace.expand` — replaces the variables in a text.
* `Workspace.entries?` — the section of this program.
* `Settings.ofWorkspace` — the settings of the workspace over the initial ones.
-/

namespace Linewise

namespace Workspace

open Yaml (Value)

/-- The section of this program. -/
def sectionName : Bytes := utf8 "codeclean"

/-- The names that the document of a workspace may have; the first that is there counts. -/
def documentNames : List Bytes :=
  ["grove.yml", "grove.yaml", ".grove.yml", ".grove.yaml"].map utf8

/-- The names that an override document may have. -/
def overrideNames : List Bytes :=
  ["grove.override.yml", "grove.override.yaml", ".grove.override.yml",
    ".grove.override.yaml"].map utf8

/-- What a variable in braces stands for: its value unless that is empty, else the text after the
mark `:-`, else nothing. -/
def valueOf (environment : Environment) (inside : Bytes) : Bytes :=
  let pieces := Bytes.splitOn (utf8 ":-") inside
  let value := environment.get (pieces.headD [])
  if value.isEmpty then Bytes.join (utf8 ":-") pieces.tail else value

/-- What stands before the closing brace, if something does and the brace is there. -/
def braced? (text : Bytes) : Option Bytes :=
  let inside := text.takeWhile (· ≠ 0x7D)
  if inside.isEmpty || inside.length = text.length then none else some inside

/-- One pass of `expand`: `skip` bytes belong to a variable already replaced. -/
def expandLoop (environment : Environment) : (skip : Nat) → Bytes → Bytes
  | _, [] => []
  | skip + 1, _ :: rest => expandLoop environment skip rest
  | 0, b :: rest =>
    match b, rest with
    | 0x24, 0x7B :: after =>
      match braced? after with
      | some inside =>
        valueOf environment inside ++ expandLoop environment (inside.length + 2) rest
      | none => b :: expandLoop environment 0 rest
    | _, _ => b :: expandLoop environment 0 rest

/-- **Replaces the variables in a text**: a dollar sign and a name in braces, perhaps with a text to
take in place of an empty value. -/
def expand (environment : Environment) (text : Bytes) : Bytes :=
  expandLoop environment 0 text

/-- The entries of a document in the working directory. -/
def document? (files : FileSystem) (environment : Environment) (name : Bytes) :
    Option (List (Bytes × Value)) :=
  (files.read name).toOption.bind fun text => Yaml.readMap? (expand environment text)

/-- The first of some names that stands for a file. -/
def present? (files : FileSystem) (names : List Bytes) : Option Bytes :=
  names.find? fun name => (files.read name).isOk

/-- **The section of this program** in the documents of the workspace. -/
def entries? (files : FileSystem) (environment : Environment) : Option Value := do
  let base ← document? files environment (← present? files documentNames)
  let whole ← match present? files overrideNames with
    | none => some base
    | some name => (document? files environment name).map (Settings.merge base)
  (whole.find? fun entry => entry.1 = sectionName).map Prod.snd

end Workspace

/-- **The settings of the workspace over the initial ones.** -/
def Settings.ofWorkspace (files : FileSystem) (environment : Environment) : Settings :=
  match Workspace.entries? files environment with
  | some (.map entries) => (Settings.initial.decode .strict entries).settings
  | _ => Settings.initial

end Linewise

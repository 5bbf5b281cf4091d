import Linewise.Settings.Decode

/-!
# Settings from the environment

A variable that begins with the program's name sets the setting that the rest of
its name spells: the rest is put in lower case, and two underscores divide a
section from what is in it.

## Main definitions

* `Environment` — the variables.
* `Environment.settingName` — the name that a variable spells.
* `Environment.entries` — the variables as entries of a document.
* `Settings.merge` — the entries of one document over those of another.
-/

namespace Linewise

/-- **The variables**, with their values. -/
abbrev Environment := List (Bytes × Bytes)

namespace Environment

open Yaml (Value)

/-- The value of a variable; empty when it is not set. -/
def get (environment : Environment) (name : Bytes) : Bytes :=
  ((environment.find? fun entry => entry.1 = name).map Prod.snd).getD []

/-- How the names of the variables begin that set settings. -/
def mark : Bytes := utf8 "CODECLEAN_"

/-- What divides a section from what is in it. -/
def divider : Bytes := utf8 "__"

/-- **The name that a variable spells**: without the mark, in lower case. -/
def settingName (name : Bytes) : Bytes :=
  Bytes.toLower (Bytes.withoutStart mark name)

/-- Puts a text under a path of names, making the maps on the way. A name that stands for something
else than a map is passed over. -/
def place (text : Bytes) : (path : List Bytes) → List (Bytes × Value) → List (Bytes × Value)
  | [], entries => entries
  | [name], entries => Yaml.setEntry name (.text text) entries
  | name :: next :: rest, entries =>
    match (entries.find? fun entry => entry.1 = name).map Prod.snd with
    | none => Yaml.setEntry name (.map (place text (next :: rest) [])) entries
    | some (.map inside) => Yaml.setEntry name (.map (place text (next :: rest) inside)) entries
    | some _ => place text (next :: rest) entries

/-- The names and texts that the variables set: of two that spell one name the later counts, and
one that spells nothing is left out. -/
def spelled (environment : Environment) : List (Bytes × Bytes) :=
  environment.foldl (fun done entry =>
    let name := settingName entry.1
    if mark.isPrefixOf entry.1 && !name.isEmpty then
      done.filter (fun other => other.1 ≠ name) ++ [(name, entry.2)]
    else done) []

/-- **The variables as entries of a document.** -/
def entries (environment : Environment) : List (Bytes × Value) :=
  environment.spelled.foldl
    (fun done entry => place entry.2 (Bytes.splitOn divider entry.1) done) []

end Environment

namespace Settings

open Yaml (Value)

mutual

/-- **The entries of one document over those of another**: maps of one name are merged, and
otherwise the upper entry counts. -/
def merge (lower : List (Bytes × Value)) : (upper : List (Bytes × Value)) → List (Bytes × Value)
  | [] => lower
  | (name, value) :: rest =>
    let found := (lower.find? fun entry => entry.1 = name).map Prod.snd
    merge (Yaml.setEntry name (mergeValue found value) lower) rest

/-- A value over the one that has its name below. -/
def mergeValue (below : Option Value) : (value : Value) → Value
  | .map entries =>
    match below with
    | some (.map lower) => .map (merge lower entries)
    | _ => .map entries
  | value => value

end

end Settings

end Linewise

import Linewise.Proofs.Metrics
import Linewise.Proofs.Preflight

/-!
# What a registry holds

Registrations follow one another in any order and under any names, those the program starts
with included. The names stay in byte order, each of them once, and a name stands for what was
registered under it last. All that is read off a registry agrees on that: the names, what a
name stands for, the list with the descriptions, and which default transformation is valid.
Decoding a single line goes past the registry and is not affected by it.

## Main definitions

* `Registry.Sorted`: the names are in byte order, each of them once
* `Registry.after`: the registry after a history of registrations
* `Registry.latest?`: what a history registers under a name last

## Main results

* `Registry.find?_register`, `Registry.Sorted.register`: one registration
* `Registry.find?_after`, `Registry.Sorted.after`: a history of registrations
* `Registry.last_registration_counts`: what is read off a registry after any history
-/

namespace Linewise

namespace Registry

variable {registry : Registry} {name : Bytes} {transform : Transform}
  {history : List (Bytes × Transform)}

/-! ## One registration -/

/-- **The names are in byte order**, each of them once. -/
def Sorted (registry : Registry) : Prop :=
  Metrics.Series.Sorted registry.entries

/-- A registry is a series of transformations: registering sets the one at a name. -/
theorem insert_eq_update (name : Bytes) (transform : Transform)
    (entries : List (Bytes × Transform)) :
    insert name transform entries
      = Metrics.Series.update name transform (fun _ => transform) entries := by
  fun_induction insert name transform entries with
  | case1 => rfl
  | case2 entry rest hname => rw [Metrics.Series.update, if_pos hname]
  | case3 entry rest hname hle => rw [Metrics.Series.update, if_neg hname, if_pos hle]
  | case4 entry rest hname hle ih => rw [Metrics.Series.update, if_neg hname, if_neg hle, ih]

/-- **A registration keeps the names in order.** -/
theorem Sorted.register (h : registry.Sorted) (name : Bytes) (transform : Transform) :
    (registry.register name transform).Sorted := by
  rw [Sorted, Registry.register, insert_eq_update]
  exact Metrics.Series.Sorted.update h

/-- **A registration is found under its name**, and every other name stands for what it stood
for. -/
theorem find?_register (h : registry.Sorted) (name : Bytes) (transform : Transform)
    (other : Bytes) :
    (registry.register name transform).find? other
      = if other = name then some transform else registry.find? other := by
  rw [Registry.register, insert_eq_update]
  exact Metrics.Series.at?_update h

theorem Sorted.pairwise_names (h : registry.Sorted) : registry.names.Pairwise (· < ·) :=
  List.pairwise_map.mpr h

theorem Sorted.nodup_names (h : registry.Sorted) : registry.names.Nodup := by
  refine h.pairwise_names.imp ?_
  rintro name other hlt rfl
  exact List.lt_irrefl name hlt

/-- A name is found just if it is there. -/
theorem exists_find?_iff {entries : List (Bytes × Transform)} :
    (∃ transform, (entries.find? fun entry => entry.1 = name).map Prod.snd = some transform) ↔
      ∃ transform, (name, transform) ∈ entries := by
  rw [← Option.isSome_iff_exists, Option.isSome_map, List.find?_isSome]
  simp

theorem mem_names_iff :
    name ∈ registry.names ↔ ∃ transform, registry.find? name = some transform := by
  rw [names, List.mem_map]
  refine Iff.trans ?_ exists_find?_iff.symm
  simp

/-- Every entry is found under its name: no other one has it. -/
theorem Sorted.find?_of_mem {entry : Bytes × Transform} (h : registry.Sorted)
    (hmem : entry ∈ registry.entries) : registry.find? entry.1 = some entry.2 :=
  Metrics.Series.Sorted.at?_of_mem h hmem

/-! ## A history of registrations -/

/-- **The registry after some registrations**, in the order in which they were made. -/
def after (registry : Registry) (history : List (Bytes × Transform)) : Registry :=
  history.foldl (fun registry entry => registry.register entry.1 entry.2) registry

/-- **What is registered under a name last.** -/
def latest? (history : List (Bytes × Transform)) (name : Bytes) : Option Transform :=
  (history.reverse.find? fun entry => entry.1 = name).map Prod.snd

theorem after_snoc (registry : Registry) (history : List (Bytes × Transform))
    (entry : Bytes × Transform) :
    registry.after (history ++ [entry]) = (registry.after history).register entry.1 entry.2 := by
  simp [after]

theorem latest?_snoc (history : List (Bytes × Transform)) (entry : Bytes × Transform)
    (name : Bytes) :
    latest? (history ++ [entry]) name
      = if name = entry.1 then some entry.2 else latest? history name := by
  rw [latest?, List.reverse_append, List.reverse_singleton, List.singleton_append]
  by_cases h : name = entry.1
  · rw [if_pos h, List.find?_cons_of_pos (by simp [h])]
    rfl
  · rw [if_neg h, List.find?_cons_of_neg (by simp [Ne.symm h]), latest?]

theorem exists_latest?_iff :
    (∃ transform, latest? history name = some transform) ↔
      ∃ transform, (name, transform) ∈ history := by
  rw [latest?, exists_find?_iff]
  simp

/-- **A history keeps the names in order.** -/
theorem Sorted.after (h : registry.Sorted) (history : List (Bytes × Transform)) :
    (registry.after history).Sorted := by
  induction history using List.reverseRecOn with
  | nil => exact h
  | append_singleton history entry ih =>
    rw [after_snoc]
    exact ih.register entry.1 entry.2

/-- **A name stands for what was registered under it last**, and for what it stood for before if
nothing was. -/
theorem find?_after (h : registry.Sorted) (history : List (Bytes × Transform)) (name : Bytes) :
    (registry.after history).find? name = (latest? history name <|> registry.find? name) := by
  induction history using List.reverseRecOn with
  | nil => rfl
  | append_singleton history entry ih =>
    rw [after_snoc, find?_register (h.after history), ih, latest?_snoc]
    split_ifs <;> rfl

/-! ## All that is read off a registry -/

/-- The registrations with which the program starts. -/
def startup : List (Bytes × Transform) :=
  [(Transform.binary.name, Transform.binary), (Transform.squeeze.name, Transform.squeeze)]

theorem sorted_empty : empty.Sorted :=
  List.Pairwise.nil

theorem sorted_builtin : builtin.Sorted :=
  sorted_empty.after startup

theorem find?_builtin (name : Bytes) : builtin.find? name = latest? startup name := by
  have h : builtin.find? name = (latest? startup name <|> empty.find? name) :=
    find?_after sorted_empty startup name
  rw [h]
  cases latest? startup name <;> rfl

theorem latest?_append (earlier later : List (Bytes × Transform)) (name : Bytes) :
    latest? (earlier ++ later) name = (latest? later name <|> latest? earlier name) := by
  rw [latest?, List.reverse_append, List.find?_append, latest?, latest?]
  cases later.reverse.find? fun entry => entry.1 = name <;> rfl

/-- The default settings with another default transformation are valid just if it is there. -/
theorem validate_initial_iff :
    { Settings.initial with defaultTransform := name }.validate registry = none ↔
      name ∈ registry.names := by
  rw [Settings.validate_eq_none_iff, mem_names_iff]
  refine ⟨And.left, fun h => ⟨h, ⟨.fail, ?_⟩, ?_, .inr ?_⟩⟩
  · change Policy.parse Settings.initial.onEmpty = .ok .fail
    decide
  · change 0 ≤ Settings.initial.maxLineBytes
    decide
  · change (Log.Level.parse? Settings.initial.logLevel).isSome
    decide

/-- **The last registration counts.** After any history of registrations, under any names and
on top of those of the start: the names are in strict byte order, and are those of the start
and of the history; a name can be had just if it is one of them, and stands for what was
registered under it last, which one more registration changes for its own name only; the list
has the same names in the same order, each with the description of what it stands for; the
default settings are valid with just these names as default transformation; and a single line
is decoded as the binary transformation of the start decodes it. -/
theorem last_registration_counts (history : List (Bytes × Transform)) :
    let registry := builtin.after history
    registry.names.Pairwise (· < ·) ∧
    (∀ name, name ∈ registry.names ↔
      name ∈ builtin.names ∨ ∃ transform, (name, transform) ∈ history) ∧
    (∀ name, (∃ transform, registry.get name = .ok transform) ↔ name ∈ registry.names) ∧
    (∀ name transform, registry.get name = .ok transform ↔
      latest? (startup ++ history) name = some transform) ∧
    (∀ name transform other, (builtin.after (history ++ [(name, transform)])).find? other
      = if other = name then some transform else registry.find? other) ∧
    (registry.list.map Info.name = registry.names ∧
      ∀ info ∈ registry.list, ∃ transform, registry.get info.name = .ok transform ∧
        info.description = transform.description) ∧
    (∀ name, { Settings.initial with defaultTransform := name }.validate registry = none ↔
      name ∈ registry.names) ∧
    ∃ start, builtin.get (utf8 "binary") = .ok start ∧
      ∀ line, Transform.decodeLine line = start.apply line := by
  intro registry
  have hsorted : registry.Sorted := sorted_builtin.after history
  have hfind (name : Bytes) :
      registry.find? name = (latest? history name <|> builtin.find? name) :=
    find?_after sorted_builtin history name
  refine ⟨hsorted.pairwise_names, ?_, ?_, ?_, ?_, ⟨?_, ?_⟩, ?_, ?_⟩
  · intro name
    rw [mem_names_iff, mem_names_iff, ← exists_latest?_iff, hfind]
    cases latest? history name <;> simp
  · intro name
    simp only [get_eq_ok_iff, mem_names_iff]
  · intro name transform
    rw [get_eq_ok_iff, hfind, find?_builtin, latest?_append]
  · intro name transform other
    rw [after_snoc]
    exact find?_register hsorted name transform other
  · simp [list, names]
  · intro info hinfo
    obtain ⟨entry, hentry, rfl⟩ := List.mem_map.mp hinfo
    exact ⟨entry.2, get_eq_ok_iff.mpr (hsorted.find?_of_mem hentry), rfl⟩
  · exact fun name => validate_initial_iff
  · exact ⟨Transform.binary, rfl, fun line => rfl⟩

end Registry

end Linewise

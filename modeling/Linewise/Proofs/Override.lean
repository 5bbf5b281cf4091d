import Mathlib.Data.List.Pairwise
import Mathlib.Data.Option.Basic
import Linewise.Proofs.Layers

/-!
# One variable over a document

A variable sets its setting, whatever the document says about it and however it spells it. The
other settings keep the values they have without the variable, with one exception: the
variable of a setting in the section brings a section of its own, which is merged with that of
the document only if the document spells its name exactly. A section in any other case is
found as long as there is no exact one; the variable adds that one, and everything else in the
section of the document is lost.

All of this is about documents in which each name has one spelling. Where two names differ in
case only, a decoder may take either, and what a document gives is not determined.

## Main definitions

* `Settings.OneSpelling`: no two names of a document differ in case only

## Main results

* `Environment.entries_of_single`: the document of a single variable
* `Settings.OneSpelling.lookup?_home`: with one spelling of each name, there is one entry to find
* `Settings.lookup?_override`: what the other settings find in the merged document
* `Settings.override_keeps_others_iff`: when a variable changes its own setting only
* `Settings.override_loses_section`: a section in another case
-/

namespace Linewise

namespace Environment

open Settings (Key)
open Yaml (Value)

variable {before after : Environment} {name text : Bytes} {key : Key}

/-- **No variable is one of the program.** -/
def Foreign (environment : Environment) : Prop :=
  ∀ entry ∈ environment, mark.isPrefixOf entry.1 = false

theorem spelled_append_of_foreign (before : Environment) (h : after.Foreign) :
    spelled (before ++ after) = spelled before := by
  induction after using List.reverseRecOn with
  | nil => rw [List.append_nil]
  | append_singleton rest last ih =>
    have hlast : mark.isPrefixOf last.1 = false := h last (by simp)
    rw [← List.append_assoc, spelled_snoc, hlast]
    exact ih fun entry hentry => h entry (List.mem_append_left _ hentry)

theorem spelled_of_foreign (h : before.Foreign) : spelled before = [] :=
  spelled_append_of_foreign [] h

theorem entries_of_foreign (h : before.Foreign) : before.entries = [] := by
  rw [entries, spelled_of_foreign h]
  rfl

/-- **The document of a single variable** has nothing but its text, where the setting stands. -/
theorem entries_of_single (hbefore : before.Foreign) (hafter : after.Foreign)
    (hmark : mark.isPrefixOf name = true) (hname : settingName name = key.variableName) :
    entries (before ++ (name, text) :: after) = place text key.path [] := by
  have hspelled : spelled (before ++ (name, text) :: after) = [(key.variableName, text)] := by
    rw [List.append_cons, spelled_append_of_foreign _ hafter, spelled_snoc,
      spelled_of_foreign hbefore, hname]
    simp [hmark, key.variableName_ne_nil]
  rw [entries, hspelled, List.foldl_cons, List.foldl_nil, key.splitOn_variableName]

end Environment

namespace Settings

open Yaml (Value)

/-! ## The merged document -/

section Merged

variable {entries : List (Bytes × Value)} {key other : Key} {text : Bytes}

/-- The names of two settings differ in more than their case. -/
theorem Key.not_sameName (h : other ≠ key) : sameName key.name other.name = false := by
  cases key <;> cases other <;> first | exact absurd rfl h | decide

theorem Key.sectionName_not_sameName (key : Key) :
    sameName Key.sectionName key.name = false := by
  cases key <;> decide

theorem merge_singleton (lower : List (Bytes × Value)) (name : Bytes) (value : Value) :
    merge lower [(name, value)]
      = Yaml.setEntry name (mergeValue (Yaml.at? name lower) value) lower := by
  rw [merge, merge]
  rfl

theorem merge_place_of_mem_ofTop (h : key ∈ Key.ofTop) :
    merge entries (Environment.place text key.path [])
      = Yaml.setEntry key.name (.text text) entries := by
  rw [place_of_mem_ofTop text h, Yaml.setEntry, merge_singleton, mergeValue_text]

/-- The entries of the section that is spelled exactly; none if there is no such section. -/
def exactEntries (entries : List (Bytes × Value)) : List (Bytes × Value) :=
  match Yaml.at? Key.sectionName entries with
  | some (.map inside) => inside
  | _ => []

/-- A variable in the section joins the one that is spelled exactly, and takes the place of
anything else of that name. -/
theorem merge_place_of_mem_ofSection (h : key ∈ Key.ofSection) :
    merge entries (Environment.place text key.path [])
      = Yaml.setEntry Key.sectionName
          (.map (Yaml.setEntry key.name (.text text) (exactEntries entries))) entries := by
  rw [spelt_nil.tagged.place_of_mem_ofSection text h, Yaml.setEntry, merge_singleton,
    exactEntries]
  congr 1
  cases Yaml.at? Key.sectionName entries with
  | none => exact mergeValue_map_none _
  | some value =>
    cases value with
    | map lower =>
      rw [mergeValue_map_map]
      change Value.map (merge lower [(key.name, .text text)]) = _
      rw [merge_singleton, mergeValue_text]
    | _ =>
      rw [mergeValue]
      · rfl
      · intro lower hmap
        cases hmap

/-- Where a section is spelled exactly, it is the one that is found. -/
theorem sectionEntries_eq_exactEntries (h : Yaml.at? Key.sectionName entries ≠ none) :
    sectionEntries entries = exactEntries entries := by
  cases hvalue : Yaml.at? Key.sectionName entries with
  | none => exact absurd hvalue h
  | some value =>
    obtain ⟨entry, hfind, hentry⟩ := Option.map_eq_some_iff.mp hvalue
    have hlookup : lookup? Key.sectionName entries = some value := by
      simp [lookup?, hfind, hentry]
    rw [sectionEntries, hlookup, exactEntries, hvalue]
    cases value <;> rfl

theorem lookup?_override_self :
    lookup? key.name (home (merge entries (Environment.place text key.path [])) key)
      = some (.text text) := by
  rcases key.mem_ofSection_or_mem_ofTop with hkey | hkey
  · rw [home, if_pos hkey, merge_place_of_mem_ofSection hkey, sectionEntries_setEntry_self,
      lookup?_setEntry_self]
  · rw [home, if_neg (Key.not_mem_ofSection hkey), merge_place_of_mem_ofTop hkey,
      lookup?_setEntry_self]

/-- **What another setting finds** is what it finds without the variable, unless the two are in a
section that is not spelled exactly: then it finds nothing. -/
theorem lookup?_override (h : other ≠ key) :
    lookup? other.name (home (merge entries (Environment.place text key.path [])) other)
      = if key ∈ Key.ofSection ∧ other ∈ Key.ofSection ∧ Yaml.at? Key.sectionName entries = none
        then none else lookup? other.name (home entries other) := by
  rcases key.mem_ofSection_or_mem_ofTop with hkey | hkey
  · rw [merge_place_of_mem_ofSection hkey]
    rcases other.mem_ofSection_or_mem_ofTop with hother | hother
    · rw [home, if_pos hother, sectionEntries_setEntry_self,
        lookup?_setEntry_of_not_sameName (Key.not_sameName h)]
      split_ifs with hcase
      · rw [exactEntries, hcase.2.2]
        rfl
      · rw [home, if_pos hother,
          sectionEntries_eq_exactEntries fun hnone => hcase ⟨hkey, hother, hnone⟩]
    · have hnot := Key.not_mem_ofSection hother
      rw [home, if_neg hnot, lookup?_setEntry_of_not_sameName other.sectionName_not_sameName,
        if_neg fun hcase => hnot hcase.2.1, home, if_neg hnot]
  · rw [merge_place_of_mem_ofTop hkey, if_neg fun hcase => Key.not_mem_ofSection hkey hcase.1]
    rcases other.mem_ofSection_or_mem_ofTop with hother | hother
    · rw [home, if_pos hother, home, if_pos hother, sectionEntries_setEntry_name]
    · have hnot := Key.not_mem_ofSection hother
      rw [home, if_neg hnot, home, if_neg hnot,
        lookup?_setEntry_of_not_sameName (Key.not_sameName h)]

end Merged

/-! ## One spelling of each name -/

/-- **Each name has one spelling**: no two names of a document, or of a map in it, differ in case
only. -/
structure OneSpelling (entries : List (Bytes × Value)) : Prop where
  /-- The names of the document. -/
  names : entries.Pairwise fun x y => sameName x.1 y.1 = false
  /-- The names of a map in it. -/
  inside : ∀ name inside, (name, .map inside) ∈ entries →
    inside.Pairwise fun x y => sameName x.1 y.1 = false

section OneSpelling

variable {entries : List (Bytes × Value)} {name : Bytes} {entry : Bytes × Value}

theorem sameName_iff {a b : Bytes} :
    sameName a b = true ↔ (shownChars a).map foldChar = (shownChars b).map foldChar := by
  rw [sameName, decide_eq_true_iff]

theorem sameName_comm (a b : Bytes) : sameName a b = sameName b a := by
  rw [Bool.eq_iff_iff, sameName_iff, sameName_iff, eq_comm]

/-- What is looked up is an entry whose name is the same but for case. -/
theorem exists_mem_of_lookup? {value : Value} (h : lookup? name entries = some value) :
    ∃ entry ∈ entries, sameName entry.1 name = true ∧ entry.2 = value := by
  obtain ⟨entry, hentry, rfl⟩ := Option.map_eq_some_iff.mp h
  rcases (Option.orElse_eq_some _ _ _).mp hentry with hexact | ⟨-, hfolded⟩
  · obtain rfl : entry.1 = name := by simpa using List.find?_some hexact
    exact ⟨entry, List.mem_of_find?_eq_some hexact, sameName_refl _, rfl⟩
  · have hsame :=
      List.find?_some (p := fun entry : Bytes × Value => sameName entry.1 name) hfolded
    exact ⟨entry, List.mem_of_find?_eq_some hfolded, hsame, rfl⟩

theorem lookup?_isSome (hmem : entry ∈ entries) (hsame : sameName entry.1 name = true) :
    (lookup? name entries).isSome := by
  have hfolded : (entries.find? fun entry => sameName entry.1 name).isSome :=
    List.find?_isSome.mpr ⟨entry, hmem, hsame⟩
  rw [lookup?, Option.isSome_map]
  cases entries.find? fun entry => entry.1 = name with
  | none => exact hfolded
  | some exact => rfl

/-- **Where no two names differ in case only, there is one entry to find.** -/
theorem lookup?_of_pairwise (h : entries.Pairwise fun x y => sameName x.1 y.1 = false)
    (hmem : entry ∈ entries) (hsame : sameName entry.1 name = true) :
    lookup? name entries = some entry.2 := by
  obtain ⟨value, hvalue⟩ := Option.isSome_iff_exists.mp (lookup?_isSome hmem hsame)
  obtain ⟨found, hfound, hname, rfl⟩ := exists_mem_of_lookup? hvalue
  have : Std.Symm fun x y : Bytes × Value => sameName x.1 y.1 = false :=
    ⟨fun x y hxy => by rw [sameName_comm, hxy]⟩
  have heq : found = entry := by
    by_contra hne
    have hdiffer := h.forall hfound hmem hne
    rw [← Bool.not_eq_true, sameName_iff] at hdiffer
    exact hdiffer ((sameName_iff.mp hname).trans (sameName_iff.mp hsame).symm)
  rw [hvalue, heq]

/-- The section of such a document has one spelling of each name as well. -/
theorem OneSpelling.sectionEntries (h : OneSpelling entries) :
    (sectionEntries entries).Pairwise fun x y => sameName x.1 y.1 = false := by
  rw [Settings.sectionEntries]
  cases hlookup : lookup? Key.sectionName entries with
  | none => exact List.Pairwise.nil
  | some value =>
    obtain ⟨entry, hmem, -, rfl⟩ := exists_mem_of_lookup? hlookup
    obtain ⟨name, value⟩ := entry
    cases value with
    | map inside => exact h.inside name inside hmem
    | _ => exact List.Pairwise.nil

/-- **A document with one spelling of each name gives a setting one value**, in whatever order it
is gone through. -/
theorem OneSpelling.lookup?_home (h : OneSpelling entries) {key : Key}
    (hmem : entry ∈ home entries key) (hsame : sameName entry.1 key.name = true) :
    lookup? key.name (home entries key) = some entry.2 := by
  refine lookup?_of_pairwise ?_ hmem hsame
  rw [home]
  split_ifs
  · exact h.sectionEntries
  · exact h.names

end OneSpelling

/-! ## Loading with a variable and without -/

section Load

variable {files : FileSystem} {path : Bytes} {entries : List (Bytes × Value)}
  {before after : Environment} {name : Bytes} {key other : Key}

/-- What loading leaves a setting at depends on what it finds in the merged document. -/
theorem get_loadOver (base : Settings) (registry : Registry) (environment : Environment)
    (hdocument : documentEntries files path = .ok entries) (key : Key) :
    (loadOver base registry files environment path).settings.get key
      = (given? .free (home (merge entries environment.entries) key) key).getD (base.get key) := by
  rw [← get_decode]
  simp only [loadOver, hdocument]
  split_ifs <;> rfl

/-- Without a variable of the program, the document alone counts. -/
theorem get_loadOver_of_foreign (base : Settings) (registry : Registry)
    (hdocument : documentEntries files path = .ok entries) (hbefore : before.Foreign)
    (hafter : after.Foreign) (key : Key) :
    (loadOver base registry files (before ++ after) path).settings.get key
      = (given? .free (home entries key) key).getD (base.get key) := by
  have hforeign : (before ++ after).Foreign := by
    intro entry hentry
    exact (List.mem_append.mp hentry).elim (hbefore entry) (hafter entry)
  rw [get_loadOver base registry _ hdocument, Environment.entries_of_foreign hforeign, merge]

/-- **A variable sets its setting**, if its text is a value of it. -/
theorem get_override_self (base : Settings) (registry : Registry) {text : Bytes} {entry : Entry}
    (hdocument : documentEntries files path = .ok entries)
    (hbefore : before.Foreign) (hafter : after.Foreign)
    (hmark : Environment.mark.isPrefixOf name = true)
    (hname : Environment.settingName name = key.variableName)
    (hentry : key.ofText? text = some entry) :
    (loadOver base registry files (before ++ (name, text) :: after) path).settings.get key
      = entry := by
  rw [get_loadOver base registry _ hdocument,
    Environment.entries_of_single hbefore hafter hmark hname, given?, lookup?_override_self,
    Option.map_some, entryOf_of_ofText? hentry]
  rfl

/-- **What a variable leaves another setting at**: what it is without it, or what it was below the
document if that has a section which is not spelled exactly. -/
theorem get_override_of_ne (base : Settings) (registry : Registry) (text : Bytes)
    (hdocument : documentEntries files path = .ok entries)
    (hbefore : before.Foreign) (hafter : after.Foreign)
    (hmark : Environment.mark.isPrefixOf name = true)
    (hname : Environment.settingName name = key.variableName) (hne : other ≠ key) :
    (loadOver base registry files (before ++ (name, text) :: after) path).settings.get other
      = if key ∈ Key.ofSection ∧ other ∈ Key.ofSection ∧ Yaml.at? Key.sectionName entries = none
        then base.get other
        else (loadOver base registry files (before ++ after) path).settings.get other := by
  rw [get_loadOver base registry _ hdocument,
    Environment.entries_of_single hbefore hafter hmark hname, given?, lookup?_override hne,
    get_loadOver_of_foreign base registry hdocument hbefore hafter]
  split_ifs <;> rfl

/-- **When a variable changes its own setting only.** In the document each name has one spelling, so
what it gives a setting is the one entry that has its name in some case. The variable always sets
its own setting, if its text is a value of it. All others keep what they have without it, just if
the setting is not in the section, or the document spells the name of the section exactly, or the
document's section does not change any other setting. -/
theorem override_keeps_others_iff (base : Settings) (registry : Registry)
    (before after : Environment) (name text : Bytes) (key : Key)
    (hdocument : documentEntries files path = .ok entries) (hspelling : OneSpelling entries)
    (hbefore : before.Foreign) (hafter : after.Foreign)
    (hmark : Environment.mark.isPrefixOf name = true)
    (hname : Environment.settingName name = key.variableName) :
    let without := (loadOver base registry files (before ++ after) path).settings
    let overridden :=
      (loadOver base registry files (before ++ (name, text) :: after) path).settings
    (∀ other, ∀ entry ∈ home entries other, sameName entry.1 other.name = true →
        lookup? other.name (home entries other) = some entry.2) ∧
      (∀ entry, key.ofText? text = some entry → overridden.get key = entry) ∧
      ((∀ other, other ≠ key → overridden.get other = without.get other) ↔
        key ∈ Key.ofTop ∨ Yaml.at? Key.sectionName entries ≠ none ∨
          ∀ other ∈ Key.ofSection, other ≠ key → without.get other = base.get other) := by
  intro without overridden
  have hother (other : Key) (hne : other ≠ key) : overridden.get other
      = if key ∈ Key.ofSection ∧ other ∈ Key.ofSection ∧ Yaml.at? Key.sectionName entries = none
        then base.get other else without.get other :=
    get_override_of_ne base registry text hdocument hbefore hafter hmark hname hne
  refine ⟨fun other entry => hspelling.lookup?_home,
    fun entry => get_override_self base registry hdocument hbefore hafter hmark hname, ?_⟩
  constructor
  · intro hkeeps
    rcases key.mem_ofSection_or_mem_ofTop with hkey | hkey
    · by_cases hsection : Yaml.at? Key.sectionName entries = none
      · refine .inr (.inr fun other hmem hne => ?_)
        rw [← hkeeps other hne, hother other hne, if_pos ⟨hkey, hmem, hsection⟩]
      · exact .inr (.inl hsection)
    · exact .inl hkey
  · intro hcondition other hne
    rw [hother other hne]
    split_ifs with hcase
    · obtain ⟨hkey, hmem, hsection⟩ := hcase
      rcases hcondition with htop | hexact | hbase
      · exact absurd hkey (Key.not_mem_ofSection htop)
      · exact absurd hsection hexact
      · exact (hbase other hmem hne).symm
    · rfl

end Load

set_option maxRecDepth 20000 in
/-- The section is spelled exactly, so a variable in it leaves the policy and the log level as the
document has them. -/
theorem override_keeps_others_section :
    let files := FileSystem.fresh.install (utf8 "c.yml")
      (utf8 "transform:\n  on_empty: skip\nlog_level: debug\n")
    let environment := [(utf8 "CODECLEAN_TRANSFORM__INPUT", utf8 "in.txt")]
    let without := (loadOver initial Registry.builtin files [] (utf8 "c.yml")).settings
    let overridden := (loadOver initial Registry.builtin files environment (utf8 "c.yml")).settings
    overridden.get .input = .text (utf8 "in.txt") ∧
      ∀ other, other ≠ .input → overridden.get other = without.get other := by
  intro files environment without overridden
  have hdocument : documentEntries files (utf8 "c.yml")
      = .ok [(Key.sectionName, .map [(Key.onEmpty.name, .text (utf8 "skip"))]),
          (Key.logLevel.name, .text (utf8 "debug"))] :=
    documentEntries_of_read (by decide) (by decide) readMap?_section_and_top
  have hspelling : OneSpelling [(Key.sectionName, .map [(Key.onEmpty.name, .text (utf8 "skip"))]),
      (Key.logLevel.name, .text (utf8 "debug"))] := by
    constructor
    · simp only [List.pairwise_cons, List.mem_singleton, forall_eq, List.not_mem_nil,
        false_imp_iff, implies_true, List.Pairwise.nil, and_true]
      decide
    · intro name inside hmem
      obtain ⟨-, hinside⟩ : name = Key.sectionName ∧
          inside = [(Key.onEmpty.name, .text (utf8 "skip"))] := by simpa using hmem
      rw [hinside]
      exact List.pairwise_singleton _ _
  obtain ⟨-, hself, hothers⟩ := override_keeps_others_iff initial Registry.builtin [] []
    (utf8 "CODECLEAN_TRANSFORM__INPUT") (utf8 "in.txt") .input hdocument hspelling nofun nofun
    (by decide) (by decide)
  refine ⟨hself _ rfl, hothers.mpr (.inr (.inl ?_))⟩
  rw [Yaml.at?_cons_self]
  nofun

set_option maxRecDepth 20000 in
/-- A section in another case, with one setting in it. -/
theorem readMap?_capital_section :
    Yaml.readMap? (utf8 "Transform:\n  on_empty: skip\n")
      = some [(utf8 "Transform", .map [(Key.onEmpty.name, .text (utf8 "skip"))])] := by
  have htokens : Yaml.tokens "Transform:\n  on_empty: skip\n".toList
      = [.mappingStart, .key, .scalar "Transform".toList true, .value, .mappingStart, .key,
          .scalar "on_empty".toList true, .value, .scalar "skip".toList true, .blockEnd,
          .blockEnd, .streamEnd] := by
    decide +kernel
  have hdocument : Yaml.document? "Transform:\n  on_empty: skip\n".toList
      = some (some (.mapping [(.scalar [] "Transform".toList true,
          .mapping [(.scalar [] "on_empty".toList true, .scalar [] "skip".toList true)])])) := by
    rw [Yaml.document?, htokens]
    rfl
  apply Yaml.readMap?_of_document? (by decide) hdocument
  simp only [Yaml.value?, Yaml.ownEntries?, Yaml.mergeEntries?]
  rfl

set_option maxRecDepth 20000 in
/-- **A variable makes a section in another case disappear**: a document is accepted with the
variable and without, and the policy it sets is lost when the variable sets the input. -/
theorem override_loses_section :
    let files := FileSystem.fresh.install (utf8 "c.yml") (utf8 "Transform:\n  on_empty: skip\n")
    let environment := [(utf8 "CODECLEAN_TRANSFORM__INPUT", utf8 "in.txt")]
    load Registry.builtin files [] (utf8 "c.yml")
        = ⟨{ initial with onEmpty := utf8 "skip" }, none⟩ ∧
      load Registry.builtin files environment (utf8 "c.yml")
        = ⟨{ initial with input := utf8 "in.txt" }, none⟩ := by
  intro files environment
  have hdocument : documentEntries files (utf8 "c.yml")
      = .ok [(utf8 "Transform", .map [(Key.onEmpty.name, .text (utf8 "skip"))])] :=
    documentEntries_of_read (by decide) (by decide) readMap?_capital_section
  have hworkspace : ofWorkspace files [] = initial ∧ ofWorkspace files environment = initial := by
    decide
  have hvariable : Environment.entries environment
      = Environment.place (utf8 "in.txt") (Key.path .input) [] :=
    @Environment.entries_of_single [] [] (utf8 "CODECLEAN_TRANSFORM__INPUT") (utf8 "in.txt") .input
      nofun nofun (by decide) (by decide)
  constructor
  · have hnone : Environment.entries [] = [] := rfl
    rw [load, hworkspace.1]
    simp only [loadOver, hdocument, hnone, merge]
    rfl
  · have hinput : Key.input ∈ Key.ofSection := by decide
    rw [load, hworkspace.2]
    simp only [loadOver, hdocument, hvariable, merge_place_of_mem_ofSection hinput]
    rfl

end Settings

end Linewise

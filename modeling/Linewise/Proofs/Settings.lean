import Mathlib.Tactic.SplitIfs
import Linewise.Settings.Environment

/-!
# Settings from documents, one by one

A document is decoded setting by setting: what it gives a setting depends on the entry of
that name alone, and goes to that setting alone. The settings of the transform section find
their entries in the section, the others beside it. This holds for every document, also for
one in which some values do not fit: those settings keep what they have.

## Main definitions

* `Settings.Key.Takes`: a value is of the sort of a setting
* `Settings.given?`, `Settings.problem?`: what entries give a setting, and why they give nothing
* `Settings.home`: the entries among which a document has those of a setting
* `Yaml.at?`: the value of a name, as it is written

## Main results

* `Settings.get_decode`: a document sets each setting on its own
* `Settings.problems_decode_eq_nil_iff`: a document without problems
* `Settings.lookup?_setEntry_self`, `Settings.lookup?_setEntry_of_not_sameName`: looking up a name
  after another one was set
-/

namespace Linewise

/-! ## Entries of a document -/

namespace Yaml

variable {name : Bytes} {value : Value} {entries : List (Bytes × Value)}

/-- **The value of a name**, as it is written. -/
def at? (name : Bytes) (entries : List (Bytes × Value)) : Option Value :=
  (entries.find? fun entry => entry.1 = name).map Prod.snd

theorem at?_nil (name : Bytes) : at? name [] = none := rfl

theorem at?_cons_self (name : Bytes) (value : Value) (entries : List (Bytes × Value)) :
    at? name ((name, value) :: entries) = some value := by
  simp [at?]

theorem at?_cons_of_ne {other : Bytes} (h : other ≠ name) (value : Value)
    (entries : List (Bytes × Value)) :
    at? name ((other, value) :: entries) = at? name entries := by
  rw [at?, List.find?_cons_of_neg (by simpa using h), at?]

theorem at?_setEntry_self (name : Bytes) (value : Value) (entries : List (Bytes × Value)) :
    at? name (setEntry name value entries) = some value := by
  induction entries with
  | nil => exact at?_cons_self name value []
  | cons entry rest ih =>
    rw [setEntry]
    split_ifs with h
    · exact at?_cons_self name value rest
    · rw [at?_cons_of_ne h]
      exact ih

/-- Setting a name does not show to anyone who looks for other names. -/
theorem find?_setEntry_of_not {p : Bytes → Bool} (h : p name = false) (value : Value)
    (entries : List (Bytes × Value)) :
    (setEntry name value entries).find? (fun entry => p entry.1)
      = entries.find? (fun entry => p entry.1) := by
  induction entries with
  | nil => simp [setEntry, h]
  | cons entry rest ih =>
    rw [setEntry]
    split_ifs with hname
    · rw [List.find?_cons_of_neg (by simp [h]), List.find?_cons_of_neg (by simp [hname, h])]
    · rw [List.find?_cons, List.find?_cons, ih]

theorem at?_setEntry_of_ne {other : Bytes} (h : other ≠ name) (value : Value)
    (entries : List (Bytes × Value)) :
    at? other (setEntry name value entries) = at? other entries := by
  rw [at?, at?, find?_setEntry_of_not (p := fun n => decide (n = other))]
  simpa using h.symm

/-- The names are those that were there, and the one that was set. -/
theorem name_of_mem_setEntry {entry : Bytes × Value} (h : entry ∈ setEntry name value entries) :
    entry.1 = name ∨ entry ∈ entries := by
  induction entries with
  | nil =>
    rw [setEntry, List.mem_singleton] at h
    exact .inl (congrArg Prod.fst h)
  | cons first rest ih =>
    rw [setEntry] at h
    split_ifs at h with hfirst
    · rcases List.mem_cons.mp h with heq | hmem
      · exact .inl (congrArg Prod.fst heq)
      · exact .inr (List.mem_cons_of_mem _ hmem)
    · rcases List.mem_cons.mp h with heq | hmem
      · exact .inr (heq ▸ List.mem_cons_self)
      · exact (ih hmem).imp_right (List.mem_cons_of_mem _)

/-- No name is set twice. -/
theorem nodup_setEntry (name : Bytes) (value : Value)
    (h : (entries.map Prod.fst).Nodup) : ((setEntry name value entries).map Prod.fst).Nodup := by
  induction entries with
  | nil => simp [setEntry]
  | cons first rest ih =>
    obtain ⟨hfirst, hrest⟩ := List.nodup_cons.mp h
    rw [setEntry]
    split_ifs with hname
    · rw [List.map_cons, List.nodup_cons, ← hname]
      exact ⟨hfirst, hrest⟩
    · rw [List.map_cons, List.nodup_cons]
      refine ⟨fun hmem => ?_, ih hrest⟩
      obtain ⟨entry, hentry, heq⟩ := List.mem_map.mp hmem
      rcases name_of_mem_setEntry hentry with hset | hold
      · exact hname (heq.symm.trans hset)
      · exact hfirst (List.mem_map.mpr ⟨entry, hold, heq⟩)

theorem mem_of_at? (h : at? name entries = some value) : (name, value) ∈ entries := by
  obtain ⟨entry, hfind, rfl⟩ := Option.map_eq_some_iff.mp h
  have hname : entry.1 = name := by simpa using List.find?_some hfind
  rw [← hname]
  exact List.mem_of_find?_eq_some hfind

/-- A name that stands for no value stands nowhere. -/
theorem at?_eq_none_iff : at? name entries = none ↔ ∀ entry ∈ entries, entry.1 ≠ name := by
  simp [at?]

/-- Reading a map goes through characters and nodes. -/
theorem readMap?_of_document? {text : Bytes} {cs : List Char} {node : Node} {reading : Reading}
    (hchars : chars? text = some cs) (hdocument : document? cs = some (some node))
    (hvalue : (value? false node).run {} = some (.map entries, reading)) :
    readMap? text = some entries := by
  simp [readMap?, hchars, hdocument, hvalue]

end Yaml

namespace Settings

open Yaml (Value at?)

/-! ## Getting and setting -/

/-- **A value is of the sort of a setting**: a number for the bound on a line, a text for any
other. -/
def Key.Takes : Key → Entry → Prop
  | .maxLineBytes, .number _ => True
  | .maxLineBytes, .text _ => False
  | _, .text _ => True
  | _, .number _ => False

theorem get_set_self (settings : Settings) {key : Key} {entry : Entry} (h : key.Takes entry) :
    (settings.set key entry).get key = entry := by
  cases key <;> cases entry <;> simp_all [Key.Takes, set, get]

theorem get_set_of_ne (settings : Settings) {key other : Key} (h : other ≠ key) (entry : Entry) :
    (settings.set key entry).get other = settings.get other := by
  cases key <;> cases entry <;> cases other <;> simp_all [set, get]

/-- **Settings are what their values are.** -/
theorem ext_get {settings other : Settings} (h : ∀ key, settings.get key = other.get key) :
    settings = other := by
  have hdefault := h .defaultTransform
  have honEmpty := h .onEmpty
  have hmax := h .maxLineBytes
  have hinput := h .input
  have houtput := h .output
  have hlevel := h .logLevel
  have hmetrics := h .metricsFile
  cases settings
  cases other
  simp_all [get]

theorem Key.mem_ofSection_or_mem_ofTop (key : Key) : key ∈ Key.ofSection ∨ key ∈ Key.ofTop := by
  cases key <;> decide

theorem Key.not_mem_ofSection {key : Key} (h : key ∈ Key.ofTop) : key ∉ Key.ofSection := by
  cases key <;> revert h <;> decide

/-! ## One setting -/

/-- What a value of a document becomes is of the sort of its setting. -/
theorem takes_of_entryOf {conversion : Conversion} {key : Key} {value : Value} {entry : Entry}
    (h : entryOf conversion key value = .ok (some entry)) : key.Takes entry := by
  have htext (key : Key) (h : (textOf conversion key.fullName value).map (Option.map Entry.text)
      = .ok (some entry)) : ∃ s, entry = .text s := by
    cases ht : textOf conversion key.fullName value with
    | error problem => simp [ht, Except.map] at h
    | ok text =>
      simp only [ht, Except.map, Except.ok.injEq, Option.map_eq_some_iff] at h
      obtain ⟨s, -, hs⟩ := h
      exact ⟨s, hs.symm⟩
  cases key with
  | maxLineBytes =>
    cases hn : numberOf conversion Key.maxLineBytes.fullName value with
    | error problem => simp [entryOf, hn, Except.map] at h
    | ok number =>
      simp only [entryOf, hn, Except.map, Except.ok.injEq, Option.map_eq_some_iff] at h
      obtain ⟨n, -, rfl⟩ := h
      trivial
  | _ =>
    obtain ⟨s, rfl⟩ := htext _ h
    trivial

/-- **What entries give a setting**, if they give it anything that fits. -/
def given? (conversion : Conversion) (entries : List (Bytes × Value)) (key : Key) :
    Option Entry :=
  match (lookup? key.name entries).map (entryOf conversion key) with
  | some (.ok entry) => entry
  | _ => none

/-- Why an entry of a setting does not fit, if it does not. -/
def problem? (conversion : Conversion) (entries : List (Bytes × Value)) (key : Key) :
    Option Problem :=
  match (lookup? key.name entries).map (entryOf conversion key) with
  | some (.error problem) => some problem
  | _ => none

section OneSetting

variable {conversion : Conversion} {entries : List (Bytes × Value)} {key : Key}

theorem takes_of_given? {entry : Entry} (h : given? conversion entries key = some entry) :
    key.Takes entry := by
  rw [given?] at h
  cases hlookup : lookup? key.name entries with
  | none => simp [hlookup] at h
  | some value =>
    cases hentry : entryOf conversion key value with
    | error problem => simp [hlookup, hentry] at h
    | ok found =>
      simp only [hlookup, Option.map_some, hentry] at h
      exact takes_of_entryOf (hentry.trans (congrArg Except.ok h))

/-- Decoding a setting sets it, or adds a problem, or does nothing. -/
theorem decodeKey_eq (conversion : Conversion) (entries : List (Bytes × Value))
    (progress : Progress) (key : Key) :
    decodeKey conversion entries progress key
      = { settings := ((given? conversion entries key).map (progress.settings.set key)).getD
            progress.settings
          problems := progress.problems ++ (problem? conversion entries key).toList } := by
  rw [decodeKey, given?, problem?]
  rcases (lookup? key.name entries).map (entryOf conversion key) with
    _ | _ | _ | entry <;> simp

/-- **A setting is decoded on its own**: no other one notices. -/
theorem get_decodeKey (progress : Progress) (other : Key) :
    (decodeKey conversion entries progress key).settings.get other
      = if other = key then (given? conversion entries key).getD (progress.settings.get other)
        else progress.settings.get other := by
  rw [decodeKey_eq]
  cases hentry : given? conversion entries key with
  | none => simp
  | some entry =>
    split_ifs with h
    · rw [h]
      exact get_set_self _ (takes_of_given? hentry)
    · exact get_set_of_ne _ h entry

end OneSetting

/-! ## All settings -/

section AllSettings

variable (conversion : Conversion) (entries : List (Bytes × Value))

/-- Decoding some settings sets them to what the entries give them. -/
theorem get_foldl_decodeKey (keys : List Key) (progress : Progress) (key : Key) :
    (keys.foldl (decodeKey conversion entries) progress).settings.get key
      = if key ∈ keys then (given? conversion entries key).getD (progress.settings.get key)
        else progress.settings.get key := by
  induction keys generalizing progress with
  | nil => simp
  | cons first rest ih =>
    rw [List.foldl_cons, ih, get_decodeKey]
    by_cases hkey : key = first
    · subst hkey
      cases given? conversion entries key <;> simp
    · simp [hkey]

/-- The problems come in the order of the settings. -/
theorem problems_foldl_decodeKey (keys : List Key) (progress : Progress) :
    (keys.foldl (decodeKey conversion entries) progress).problems
      = progress.problems ++ keys.filterMap (problem? conversion entries) := by
  induction keys generalizing progress with
  | nil => simp
  | cons first rest ih =>
    rw [List.foldl_cons, ih, decodeKey_eq]
    cases hproblem : problem? conversion entries first <;> simp [hproblem]

theorem foldl_decodeKey_nil (keys : List Key) (progress : Progress) :
    keys.foldl (decodeKey conversion []) progress = progress := by
  induction keys with
  | nil => rfl
  | cons first rest ih => exact ih

/-- The entries of the section of a document; none if it has no section. -/
def sectionEntries : List (Bytes × Value) :=
  match (lookup? Key.sectionName entries).map sectionOf with
  | some (.ok inside) => inside
  | _ => []

/-- Why the section of a document is none, if it is there and is none. -/
def sectionProblem? : Option Problem :=
  match (lookup? Key.sectionName entries).map sectionOf with
  | some (.error problem) => some problem
  | _ => none

/-- **The entries among which a document has that of a setting**: those of the section, or those
beside it. -/
def home (key : Key) : List (Bytes × Value) :=
  if key ∈ Key.ofSection then sectionEntries entries else entries

/-- Decoding a document is decoding the settings of the section, and then the others. -/
theorem decode_eq (settings : Settings) :
    settings.decode conversion entries
      = Key.ofTop.foldl (decodeKey conversion entries)
          (Key.ofSection.foldl (decodeKey conversion (sectionEntries entries))
            { settings, problems := (sectionProblem? entries).toList }) := by
  rw [decode, sectionEntries, sectionProblem?]
  rcases (lookup? Key.sectionName entries).map sectionOf with _ | problem | inside
  · rw [foldl_decodeKey_nil]
    rfl
  · rw [foldl_decodeKey_nil]
    rfl
  · rfl

/-- **A document sets each setting on its own**: to what the entry of that name gives it, if there
is one that fits, and else not at all. -/
theorem get_decode (settings : Settings) (key : Key) :
    (settings.decode conversion entries).settings.get key
      = (given? conversion (home entries key) key).getD (settings.get key) := by
  rw [decode_eq, get_foldl_decodeKey, get_foldl_decodeKey, home]
  rcases key.mem_ofSection_or_mem_ofTop with hsection | htop
  · have htop : key ∉ Key.ofTop := fun htop => Key.not_mem_ofSection htop hsection
    rw [if_neg htop, if_pos hsection, if_pos hsection]
  · have hsection := Key.not_mem_ofSection htop
    rw [if_pos htop, if_neg hsection, if_neg hsection]

/-- **A document has no problems** if its section is a map and every entry of a setting fits. -/
theorem problems_decode_eq_nil_iff (settings : Settings) :
    (settings.decode conversion entries).problems = [] ↔
      sectionProblem? entries = none ∧
        ∀ key, problem? conversion (home entries key) key = none := by
  rw [decode_eq, problems_foldl_decodeKey, problems_foldl_decodeKey]
  simp only [List.append_eq_nil_iff, Option.toList_eq_nil_iff, List.filterMap_eq_nil_iff]
  constructor
  · rintro ⟨⟨hproblem, hsection⟩, htop⟩
    refine ⟨hproblem, fun key => ?_⟩
    rcases key.mem_ofSection_or_mem_ofTop with hmem | hmem
    · rw [home, if_pos hmem]
      exact hsection key hmem
    · rw [home, if_neg (Key.not_mem_ofSection hmem)]
      exact htop key hmem
  · rintro ⟨hproblem, hkeys⟩
    refine ⟨⟨hproblem, fun key hmem => ?_⟩, fun key hmem => ?_⟩
    · have hkey := hkeys key
      rwa [home, if_pos hmem] at hkey
    · have hkey := hkeys key
      rwa [home, if_neg (Key.not_mem_ofSection hmem)] at hkey

end AllSettings

/-! ## Looking up a name -/

section Lookup

variable {name other : Bytes} {entries : List (Bytes × Value)}

theorem sameName_refl (name : Bytes) : sameName name name = true := by
  simp [sameName]

theorem lookup?_setEntry_self (name : Bytes) (value : Value) (entries : List (Bytes × Value)) :
    lookup? name (Yaml.setEntry name value entries) = some value := by
  obtain ⟨entry, hfind, hvalue⟩ := Option.map_eq_some_iff.mp
    (Yaml.at?_setEntry_self name value entries)
  simp [lookup?, hfind, hvalue]

/-- **A name that was set does not show under a different one**, in any case. -/
theorem lookup?_setEntry_of_not_sameName (h : sameName name other = false) (value : Value)
    (entries : List (Bytes × Value)) :
    lookup? other (Yaml.setEntry name value entries) = lookup? other entries := by
  have hne : name ≠ other := by
    rintro rfl
    rw [sameName_refl] at h
    cases h
  have hexact := Yaml.find?_setEntry_of_not (p := fun n => decide (n = other))
    (by simpa using hne) value entries
  have hfolded := Yaml.find?_setEntry_of_not (p := fun n => sameName n other) h value entries
  rw [lookup?, lookup?, hexact, hfolded]

/-- Where no name differs from another one in its case alone, a name is looked up as it is
written. -/
theorem lookup?_eq_at? (h : ∀ entry ∈ entries, sameName entry.1 name = true → entry.1 = name) :
    lookup? name entries = at? name entries := by
  cases hexact : entries.find? (fun entry => entry.1 = name) with
  | some entry => simp [lookup?, at?, hexact]
  | none =>
    have hfolded : entries.find? (fun entry => sameName entry.1 name) = none := by
      refine List.find?_eq_none.mpr fun entry hentry hsame => ?_
      have hnone := List.find?_eq_none.mp hexact entry hentry
      exact hnone (by simpa using h entry hentry hsame)
    simp [lookup?, at?, hexact, hfolded]

end Lookup

end Settings

end Linewise

import Mathlib.Data.List.Induction
import Linewise.Proofs.Settings

/-!
# Variables over documents

The variables of the environment become a document of their own, which is merged over the
one that was read. Both are looked at by name: where the names are spelled exactly as the
settings are, an entry of the merged document is that of the variables if they have one, and
else that of the document. A section that both have is merged name by name, so what one of
them has in it does not hide what the other has.

## Main definitions

* `Settings.Key.at?`: the value of a document for a setting, spelled exactly
* `Settings.Tagged`: all names of a document are spelled exactly
* `Settings.Spelt`: the same, and no name is there twice
* `Settings.Key.variableName`, `Environment.value?`: the variable of a setting, and its value

## Main results

* `Settings.at?_merge`: a name of a merged document
* `Settings.Tagged.lookup?_home`: exact names are looked up as they are written
* `Settings.Tagged.at?_merge`: a setting of a merged document
* `Settings.Spelt.place`, `Settings.Spelt.at?_place`: one variable
* `Environment.spelt_entries`, `Environment.at?_entries`: all of them
-/

namespace Linewise

namespace Settings

open Yaml (Value)

/-! ## Merged documents -/

section Merge

variable {lower upper : List (Bytes × Value)}

/-- **A name of a merged document**: the upper entry counts, put over the lower one. -/
theorem at?_merge (h : (upper.map Prod.fst).Nodup) (lower : List (Bytes × Value)) (name : Bytes) :
    Yaml.at? name (merge lower upper)
      = match Yaml.at? name upper with
        | some value => some (mergeValue (Yaml.at? name lower) value)
        | none => Yaml.at? name lower := by
  induction upper generalizing lower with
  | nil => rw [merge, Yaml.at?_nil]
  | cons entry rest ih =>
    obtain ⟨first, value⟩ := entry
    obtain ⟨hfirst, hrest⟩ := List.nodup_cons.mp h
    rw [merge, ih hrest]
    by_cases hname : first = name
    · have hnone : Yaml.at? name rest = none := by
        refine Yaml.at?_eq_none_iff.mpr fun other hother heq => hfirst ?_
        exact List.mem_map.mpr ⟨other, hother, heq.trans hname.symm⟩
      subst hname
      rw [hnone, Yaml.at?_cons_self, Yaml.at?_setEntry_self]
      rfl
    · rw [Yaml.at?_cons_of_ne hname, Yaml.at?_setEntry_of_ne (Ne.symm hname)]

theorem mergeValue_text (below : Option Value) (s : Bytes) :
    mergeValue below (.text s) = .text s := by
  rw [mergeValue]
  nofun

theorem mergeValue_map_none (entries : List (Bytes × Value)) :
    mergeValue none (.map entries) = .map entries := by
  rw [mergeValue]
  nofun

theorem mergeValue_map_map (lower entries : List (Bytes × Value)) :
    mergeValue (some (.map lower)) (.map entries) = .map (merge lower entries) := by
  rw [mergeValue]

end Merge

/-! ## Exact names -/

/-- All entries have some of these names. -/
def Named (names : List Bytes) (entries : List (Bytes × Value)) : Prop :=
  ∀ entry ∈ entries, entry.1 ∈ names

section Named

variable {names : List Bytes} {entries lower upper : List (Bytes × Value)}

theorem Named.setEntry (h : Named names entries) {name : Bytes} (hname : name ∈ names)
    (value : Value) : Named names (Yaml.setEntry name value entries) := by
  intro entry hentry
  rcases Yaml.name_of_mem_setEntry hentry with heq | hmem
  · rw [heq]
    exact hname
  · exact h entry hmem

theorem Named.merge (hlower : Named names lower) (hupper : Named names upper) :
    Named names (merge lower upper) := by
  induction upper generalizing lower with
  | nil =>
    rw [Settings.merge]
    exact hlower
  | cons entry rest ih =>
    obtain ⟨hentry, hrest⟩ := List.forall_mem_cons.mp hupper
    rw [Settings.merge]
    exact ih (hlower.setEntry hentry _) hrest

/-- Names of which no two differ in case alone are looked up as they are written. -/
theorem Named.lookup?_eq_at? (h : Named names entries)
    (hnames : ∀ a ∈ names, ∀ b ∈ names, sameName a b = true → a = b) {name : Bytes}
    (hname : name ∈ names) : lookup? name entries = Yaml.at? name entries :=
  Settings.lookup?_eq_at? fun entry hentry => hnames entry.1 (h entry hentry) name hname

end Named

/-- The names of a document beside the section. -/
def topNames : List Bytes :=
  Key.sectionName :: Key.ofTop.map Key.name

/-- The names in the section. -/
def sectionNames : List Bytes :=
  Key.ofSection.map Key.name

theorem eq_of_sameName_topNames :
    ∀ a ∈ topNames, ∀ b ∈ topNames, sameName a b = true → a = b := by
  decide

theorem eq_of_sameName_sectionNames :
    ∀ a ∈ sectionNames, ∀ b ∈ sectionNames, sameName a b = true → a = b := by
  decide

theorem Key.name_mem_topNames {key : Key} (h : key ∈ Key.ofTop) : key.name ∈ topNames :=
  List.mem_cons_of_mem _ (List.mem_map_of_mem h)

theorem Key.name_mem_sectionNames {key : Key} (h : key ∈ Key.ofSection) :
    key.name ∈ sectionNames :=
  List.mem_map_of_mem h

theorem Key.eq_of_name {key other : Key} (h : key.name = other.name) : key = other := by
  cases key <;> cases other <;> revert h <;> decide

theorem Key.name_ne_sectionName (key : Key) : key.name ≠ Key.sectionName := by
  cases key <;> decide

/-- The value of a name in a value that is a map. -/
def within? (name : Bytes) : Value → Option Value
  | .map entries => Yaml.at? name entries
  | _ => none

/-- **The value of a document for a setting**, where it is spelled exactly. -/
def Key.at? (key : Key) (entries : List (Bytes × Value)) : Option Value :=
  if key ∈ Key.ofSection then (Yaml.at? Key.sectionName entries).bind (within? key.name)
  else Yaml.at? key.name entries

/-- **All names of a document are spelled exactly**, and its section is a map. -/
structure Tagged (entries : List (Bytes × Value)) : Prop where
  /-- The names beside the section. -/
  names : Named topNames entries
  /-- The names in it. -/
  inside : ∀ value, Yaml.at? Key.sectionName entries = some value →
    ∃ inside, value = .map inside ∧ Named sectionNames inside

namespace Tagged

variable {entries lower upper : List (Bytes × Value)}

theorem lookup?_section (h : Tagged entries) :
    lookup? Key.sectionName entries = Yaml.at? Key.sectionName entries :=
  h.names.lookup?_eq_at? eq_of_sameName_topNames List.mem_cons_self

theorem sectionProblem?_eq_none (h : Tagged entries) : sectionProblem? entries = none := by
  rw [sectionProblem?, h.lookup?_section]
  cases hsection : Yaml.at? Key.sectionName entries with
  | none => rfl
  | some value =>
    obtain ⟨inside, rfl, -⟩ := h.inside value hsection
    rfl

theorem section_cases (h : Tagged entries) :
    Yaml.at? Key.sectionName entries = none ∧ sectionEntries entries = [] ∨
      Yaml.at? Key.sectionName entries = some (.map (sectionEntries entries)) := by
  rw [sectionEntries, h.lookup?_section]
  cases hsection : Yaml.at? Key.sectionName entries with
  | none => exact .inl ⟨rfl, rfl⟩
  | some value =>
    obtain ⟨inside, rfl, -⟩ := h.inside value hsection
    exact .inr rfl

theorem named_sectionEntries (h : Tagged entries) :
    Named sectionNames (sectionEntries entries) := by
  rcases h.section_cases with ⟨-, hnil⟩ | hsome
  · rw [hnil]
    exact fun _ => nofun
  · obtain ⟨inside, heq, hnamed⟩ := h.inside _ hsome
    rw [Value.map.inj heq]
    exact hnamed

theorem at?_of_section (h : Tagged entries) {key : Key} (hkey : key ∈ Key.ofSection) :
    key.at? entries = Yaml.at? key.name (sectionEntries entries) := by
  rw [Key.at?, if_pos hkey]
  rcases h.section_cases with ⟨hnone, hnil⟩ | hsome
  · rw [hnone, hnil]
    rfl
  · rw [hsome]
    rfl

/-- **Exact names are looked up as they are written.** -/
theorem lookup?_home (h : Tagged entries) (key : Key) :
    lookup? key.name (home entries key) = key.at? entries := by
  rcases key.mem_ofSection_or_mem_ofTop with hkey | hkey
  · rw [home, if_pos hkey, h.at?_of_section hkey]
    exact h.named_sectionEntries.lookup?_eq_at? eq_of_sameName_sectionNames
      (Key.name_mem_sectionNames hkey)
  · have hnot := Key.not_mem_ofSection hkey
    rw [home, if_neg hnot, Key.at?, if_neg hnot]
    exact h.names.lookup?_eq_at? eq_of_sameName_topNames (Key.name_mem_topNames hkey)

end Tagged

/-- **A document in which no name is there twice**, all of them spelled exactly. -/
structure Spelt (entries : List (Bytes × Value)) : Prop where
  /-- The names are spelled exactly. -/
  tagged : Tagged entries
  /-- The names beside the section are different. -/
  nodup : (entries.map Prod.fst).Nodup
  /-- The names in it are different. -/
  nodupInside : ((sectionEntries entries).map Prod.fst).Nodup

theorem spelt_nil : Spelt [] := by
  refine ⟨⟨fun _ => nofun, ?_⟩, List.nodup_nil, List.nodup_nil⟩
  intro value hvalue
  cases hvalue

section Over

variable {lower upper : List (Bytes × Value)}

/-- The section of a merged document: each of the two has its own, or none. -/
theorem at?_section_merge (hlower : Tagged lower) (hupper : Spelt upper) :
    Yaml.at? Key.sectionName (merge lower upper) = Yaml.at? Key.sectionName lower ∧
        Yaml.at? Key.sectionName upper = none ∨
      Yaml.at? Key.sectionName (merge lower upper)
        = some (.map (merge (sectionEntries lower) (sectionEntries upper))) ∧
        Yaml.at? Key.sectionName lower ≠ none ∨
      Yaml.at? Key.sectionName (merge lower upper) = some (.map (sectionEntries upper)) ∧
        Yaml.at? Key.sectionName lower = none := by
  rw [at?_merge hupper.nodup]
  rcases hupper.tagged.section_cases with ⟨hnone, -⟩ | hsome
  · rw [hnone]
    exact .inl ⟨rfl, rfl⟩
  · rw [hsome]
    right
    rcases hlower.section_cases with ⟨hnone, -⟩ | hbelow
    · rw [hnone]
      exact .inr ⟨congrArg some (mergeValue_map_none _), rfl⟩
    · rw [hbelow]
      exact .inl ⟨congrArg some (mergeValue_map_map _ _), nofun⟩

theorem Tagged.merge (hlower : Tagged lower) (hupper : Spelt upper) :
    Tagged (merge lower upper) := by
  refine ⟨hlower.names.merge hupper.tagged.names, ?_⟩
  intro value hvalue
  rcases at?_section_merge hlower hupper with ⟨hsame, -⟩ | ⟨hboth, -⟩ | ⟨hover, -⟩
  · rw [hsame] at hvalue
    exact hlower.inside value hvalue
  · rw [hboth] at hvalue
    exact ⟨_, (Option.some.inj hvalue).symm,
      hlower.named_sectionEntries.merge hupper.tagged.named_sectionEntries⟩
  · rw [hover] at hvalue
    exact ⟨_, (Option.some.inj hvalue).symm, hupper.tagged.named_sectionEntries⟩

theorem at?_merge_of_text (h : (upper.map Prod.fst).Nodup) {name : Bytes}
    (htext : ∀ value, Yaml.at? name upper = some value → ∃ s, value = .text s) :
    Yaml.at? name (Settings.merge lower upper)
      = (Yaml.at? name upper <|> Yaml.at? name lower) := by
  rw [at?_merge h]
  cases hvalue : Yaml.at? name upper with
  | none => rfl
  | some value =>
    obtain ⟨s, rfl⟩ := htext value hvalue
    exact congrArg some (mergeValue_text _ s)

/-- **A setting of a merged document** is that of the upper one if it has the setting, and else
that of the lower one: merging a section does not lose what is in it. -/
theorem Tagged.at?_merge (hlower : Tagged lower) (hupper : Spelt upper) {key : Key}
    (htext : ∀ value, key.at? upper = some value → ∃ s, value = .text s) :
    key.at? (Settings.merge lower upper) = (key.at? upper <|> key.at? lower) := by
  rcases key.mem_ofSection_or_mem_ofTop with hkey | hkey
  · rw [hupper.tagged.at?_of_section hkey] at htext ⊢
    rcases at?_section_merge hlower hupper with ⟨hsame, hnone⟩ | ⟨hboth, -⟩ | ⟨hover, hnone⟩
    · -- the variables have no section
      have hnil : sectionEntries upper = [] := by
        rcases hupper.tagged.section_cases with ⟨-, hnil⟩ | hsome
        · exact hnil
        · rw [hnone] at hsome
          cases hsome
      rw [hnil, Key.at?, Key.at?, if_pos hkey, if_pos hkey, hsame]
      rfl
    · -- both have one, and the two are merged name by name
      rw [hlower.at?_of_section hkey, Key.at?, if_pos hkey, hboth]
      exact at?_merge_of_text hupper.nodupInside htext
    · -- the document has none
      rw [Key.at?, Key.at?, if_pos hkey, if_pos hkey, hover, hnone]
      cases hvalue : Yaml.at? key.name (sectionEntries upper) with
      | none => simpa [within?] using hvalue
      | some value => simpa [within?] using hvalue
  · have hnot := Key.not_mem_ofSection hkey
    simp only [Key.at?, if_neg hnot] at htext ⊢
    exact at?_merge_of_text hupper.nodup htext

end Over

/-! ## One variable -/

/-- **The name that the variable of a setting spells**: the names on the way to it. -/
def Key.variableName (key : Key) : Bytes :=
  Bytes.join Environment.divider key.path

/-- The name of a variable is taken apart as it was put together. -/
theorem Key.splitOn_variableName (key : Key) :
    Bytes.splitOn Environment.divider key.variableName = key.path := by
  cases key <;> decide

theorem Key.variableName_ne_nil (key : Key) : key.variableName ≠ [] := by
  cases key <;> decide

theorem Key.variableName_inj {key other : Key} :
    key.variableName = other.variableName ↔ key = other := by
  constructor
  · intro h
    cases key <;> cases other <;> revert h <;> decide
  · exact congrArg Key.variableName

theorem Key.path_of_mem_ofSection {key : Key} (h : key ∈ Key.ofSection) :
    key.path = [Key.sectionName, key.name] := by
  rw [Key.path, if_pos (List.contains_iff_mem.mpr h)]

theorem Key.path_of_mem_ofTop {key : Key} (h : key ∈ Key.ofTop) : key.path = [key.name] := by
  rw [Key.path, if_neg (mt List.contains_iff_mem.mp (Key.not_mem_ofSection h))]

theorem Key.not_sameName_sectionName (key : Key) :
    sameName key.name Key.sectionName = false := by
  cases key <;> decide

section Place

variable {entries : List (Bytes × Value)} {key : Key} (text : Bytes)

theorem sectionEntries_setEntry_self (inside entries : List (Bytes × Value)) :
    sectionEntries (Yaml.setEntry Key.sectionName (.map inside) entries) = inside := by
  rw [sectionEntries, lookup?_setEntry_self]
  rfl

theorem sectionEntries_setEntry_name (key : Key) (value : Value)
    (entries : List (Bytes × Value)) :
    sectionEntries (Yaml.setEntry key.name value entries) = sectionEntries entries := by
  rw [sectionEntries, sectionEntries,
    lookup?_setEntry_of_not_sameName key.not_sameName_sectionName]

theorem place_of_mem_ofTop (h : key ∈ Key.ofTop) :
    Environment.place text key.path entries = Yaml.setEntry key.name (.text text) entries := by
  rw [Key.path_of_mem_ofTop h, Environment.place]

/-- A setting of the section is put there, beside what is in it. -/
theorem Tagged.place_of_mem_ofSection (hentries : Tagged entries) (h : key ∈ Key.ofSection) :
    Environment.place text key.path entries
      = Yaml.setEntry Key.sectionName
          (.map (Yaml.setEntry key.name (.text text) (sectionEntries entries))) entries := by
  rw [Key.path_of_mem_ofSection h]
  rcases hentries.section_cases with ⟨hnone, hnil⟩ | hsome
  · rw [Yaml.at?] at hnone
    simp only [Environment.place, hnone, hnil]
  · rw [Yaml.at?] at hsome
    simp only [Environment.place, hsome]

/-- **A variable keeps names exact**, and no name comes twice. -/
theorem Spelt.place (hentries : Spelt entries) (key : Key) :
    Spelt (Environment.place text key.path entries) := by
  rcases key.mem_ofSection_or_mem_ofTop with hkey | hkey
  · rw [hentries.tagged.place_of_mem_ofSection text hkey]
    refine ⟨⟨hentries.tagged.names.setEntry List.mem_cons_self _, ?_⟩,
      Yaml.nodup_setEntry _ _ hentries.nodup, ?_⟩
    · intro value hvalue
      rw [Yaml.at?_setEntry_self] at hvalue
      exact ⟨_, (Option.some.inj hvalue).symm,
        hentries.tagged.named_sectionEntries.setEntry (Key.name_mem_sectionNames hkey) _⟩
    · rw [sectionEntries_setEntry_self]
      exact Yaml.nodup_setEntry _ _ hentries.nodupInside
  · rw [place_of_mem_ofTop text hkey]
    refine ⟨⟨hentries.tagged.names.setEntry (Key.name_mem_topNames hkey) _, ?_⟩,
      Yaml.nodup_setEntry _ _ hentries.nodup, ?_⟩
    · intro value hvalue
      rw [Yaml.at?_setEntry_of_ne key.name_ne_sectionName.symm] at hvalue
      exact hentries.tagged.inside value hvalue
    · rw [sectionEntries_setEntry_name]
      exact hentries.nodupInside

/-- **A variable sets its setting** and no other. -/
theorem Spelt.at?_place (hentries : Spelt entries) (key other : Key) :
    other.at? (Environment.place text key.path entries)
      = if other = key then some (.text text) else other.at? entries := by
  have hname : other ≠ key → other.name ≠ key.name := mt Key.eq_of_name
  rcases key.mem_ofSection_or_mem_ofTop with hkey | hkey
  · rw [hentries.tagged.place_of_mem_ofSection text hkey]
    rcases other.mem_ofSection_or_mem_ofTop with hother | hother
    · -- both are in the section
      rw [hentries.tagged.at?_of_section hother, Key.at?, if_pos hother, Yaml.at?_setEntry_self,
        Option.bind_some, within?]
      split_ifs with heq
      · rw [heq, Yaml.at?_setEntry_self]
      · rw [Yaml.at?_setEntry_of_ne (hname heq)]
    · have hne : other ≠ key := by
        rintro rfl
        exact Key.not_mem_ofSection hother hkey
      have hnot := Key.not_mem_ofSection hother
      rw [if_neg hne, Key.at?, Key.at?, if_neg hnot, if_neg hnot,
        Yaml.at?_setEntry_of_ne other.name_ne_sectionName]
  · rw [place_of_mem_ofTop text hkey]
    rcases other.mem_ofSection_or_mem_ofTop with hother | hother
    · have hne : other ≠ key := by
        rintro rfl
        exact Key.not_mem_ofSection hkey hother
      rw [if_neg hne, Key.at?, Key.at?, if_pos hother, if_pos hother,
        Yaml.at?_setEntry_of_ne key.name_ne_sectionName.symm]
    · -- both are beside it
      have hnot := Key.not_mem_ofSection hother
      rw [Key.at?, Key.at?, if_neg hnot, if_neg hnot]
      split_ifs with heq
      · rw [heq, Yaml.at?_setEntry_self]
      · rw [Yaml.at?_setEntry_of_ne (hname heq)]

end Place

end Settings

/-! ## All variables -/

namespace Environment

open Settings (Key Spelt)
open Yaml (Value)

/-- Does a variable spell a name? -/
def spells (name : Bytes) (entry : Bytes × Bytes) : Bool :=
  mark.isPrefixOf entry.1 && settingName entry.1 = name

/-- **The value of a setting in the environment**: that of the last variable that spells it. -/
def value? (environment : Environment) (key : Key) : Option Bytes :=
  (environment.reverse.find? (spells key.variableName)).map Prod.snd

/-- **Every variable of the program spells a setting.** -/
def NamesSettings (environment : Environment) : Prop :=
  ∀ entry ∈ environment, mark.isPrefixOf entry.1 = true →
    ∃ key : Key, settingName entry.1 = key.variableName

theorem spelled_snoc (environment : Environment) (entry : Bytes × Bytes) :
    spelled (environment ++ [entry])
      = if mark.isPrefixOf entry.1 && !(settingName entry.1).isEmpty then
          (spelled environment).filter (fun other => other.1 ≠ settingName entry.1)
            ++ [(settingName entry.1, entry.2)]
        else spelled environment := by
  rw [spelled, List.foldl_append]
  rfl

/-- What is thrown out of a list for its name is not missed under another one. -/
theorem find?_filter_ne (pairs : List (Bytes × Bytes)) {name thrown : Bytes} (h : thrown ≠ name) :
    (pairs.filter fun other => other.1 ≠ thrown).reverse.find? (fun other => other.1 = name)
      = pairs.reverse.find? fun other => other.1 = name := by
  rw [← List.filter_reverse, List.find?_filter]
  congr 1
  funext other
  by_cases hother : other.1 = name
  · simp [hother, Ne.symm h]
  · simp [hother]

/-- Of the variables that spell a name, the last one counts. -/
theorem find?_spelled (environment : Environment) {name : Bytes} (hname : name ≠ []) :
    ((spelled environment).reverse.find? fun entry => entry.1 = name).map Prod.snd
      = (environment.reverse.find? (spells name)).map Prod.snd := by
  induction environment using List.reverseRecOn with
  | nil => rfl
  | append_singleton rest entry ih =>
    rw [spelled_snoc, List.reverse_concat, List.find?_cons]
    by_cases hmark : mark.isPrefixOf entry.1 = true
    · by_cases hspells : settingName entry.1 = name
      · simp [spells, hmark, hspells, hname]
      · rw [show spells name entry = false by simp [spells, hspells]]
        split_ifs with h
        · rw [List.reverse_concat, List.find?_cons_of_neg (by simpa using hspells),
            find?_filter_ne _ hspells]
          exact ih
        · exact ih
    · -- not a variable of the program
      rw [if_neg (by simp [hmark]), show spells name entry = false by simp [spells, hmark]]
      exact ih

theorem exists_of_mem_spelled {environment : Environment} {entry : Bytes × Bytes}
    (h : entry ∈ spelled environment) :
    ∃ source ∈ environment, mark.isPrefixOf source.1 = true ∧
      settingName source.1 = entry.1 := by
  induction environment using List.reverseRecOn with
  | nil => cases h
  | append_singleton rest last ih =>
    have hrest (h : entry ∈ spelled rest) : ∃ source ∈ rest ++ [last],
        mark.isPrefixOf source.1 = true ∧ settingName source.1 = entry.1 := by
      obtain ⟨source, hmem, hspells⟩ := ih h
      exact ⟨source, List.mem_append_left _ hmem, hspells⟩
    rw [spelled_snoc] at h
    split_ifs at h with hlast
    · rcases List.mem_append.mp h with hmem | hmem
      · exact hrest (List.mem_filter.mp hmem).1
      · rw [List.mem_singleton.mp hmem]
        exact ⟨last, by simp, (Bool.and_eq_true_iff.mp hlast).1, rfl⟩
    · exact hrest h

/-- **The variables put into a document**, one by one: the names stay exact, and each setting has
the text that was put there last. -/
theorem foldl_place (placed : List (Bytes × Bytes))
    (h : ∀ entry ∈ placed, ∃ key : Key, entry.1 = key.variableName) :
    let entries : List (Bytes × Value) :=
      placed.foldl (fun done entry => place entry.2 (Bytes.splitOn divider entry.1) done) []
    Spelt entries ∧ ∀ key : Key, key.at? entries
      = ((placed.reverse.find? fun entry => entry.1 = key.variableName).map Prod.snd).map
          Value.text := by
  induction placed using List.reverseRecOn with
  | nil =>
    refine ⟨Settings.spelt_nil, fun key => ?_⟩
    cases key <;> rfl
  | append_singleton rest last ih =>
    obtain ⟨hspelt, hat⟩ := ih fun entry hentry => h entry (List.mem_append_left _ hentry)
    obtain ⟨key, hkey⟩ := h last (by simp)
    simp only [List.foldl_append, List.foldl_cons, List.foldl_nil]
    rw [hkey, key.splitOn_variableName]
    refine ⟨hspelt.place last.2 key, fun other => ?_⟩
    rw [hspelt.at?_place, hat, List.reverse_concat, List.find?_cons, hkey]
    by_cases heq : other = key
    · simp [heq]
    · have hne : ¬ key.variableName = other.variableName :=
        fun hname => heq (Key.variableName_inj.mp hname).symm
      simp [heq, hne]

section Entries

variable {environment : Environment}

theorem NamesSettings.spelled (h : environment.NamesSettings) :
    ∀ entry ∈ environment.spelled, ∃ key : Key, entry.1 = key.variableName := by
  intro entry hentry
  obtain ⟨source, hmem, hmark, heq⟩ := exists_of_mem_spelled hentry
  obtain ⟨key, hkey⟩ := h source hmem hmark
  exact ⟨key, heq.symm.trans hkey⟩

theorem spelt_entries (h : environment.NamesSettings) : Spelt environment.entries :=
  (foldl_place environment.spelled h.spelled).1

/-- **The document of the variables** has for each setting the text of its variable. -/
theorem at?_entries (h : environment.NamesSettings) (key : Key) :
    key.at? environment.entries = (environment.value? key).map Value.text := by
  rw [entries, (foldl_place environment.spelled h.spelled).2 key,
    find?_spelled environment key.variableName_ne_nil, value?]

end Entries

end Environment

end Linewise

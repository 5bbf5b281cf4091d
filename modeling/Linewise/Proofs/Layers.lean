import Mathlib.Tactic.SplitIfs
import Linewise.Job
import Linewise.Proofs.Variables

/-!
# Layers of settings

Settings come in layers: the initial ones, those of the workspace, a document, the variables
and the flags. A layer gives values to some settings and says nothing of the others, and each
setting has the value of the uppermost layer that gives it one. The layers are put together in
two ways, by decoding over settings that are there and by merging documents; neither loses the
values of a layer below in a section that both of them have.

## Main definitions

* `Settings.Layer`, `Settings.Layered`: a layer, and settings that come from layers
* `Settings.Plain`: a document with exact names and fitting values
* `Layer.ofWorkspace`, `Layer.ofDocument`, `Layer.ofEnvironment`, `Layer.ofFlags`: the layers

## Main results

* `Settings.layered_ofWorkspace`: the layer of the workspace
* `Settings.lookup_merged`: what document and variables give a setting
* `Settings.settle_layered`: loading and settling, for all layers
-/

namespace Linewise

namespace Settings

open Yaml (Value)

/-! ## Layers -/

/-- **A layer** gives values to some settings. -/
abbrev Layer := Key → Option Entry

/-- **Each setting has the value of the first layer that gives it one**, and its initial value
where none does. -/
def Layered (layers : List Layer) (settings : Settings) : Prop :=
  ∀ key, settings.get key = (layers.findSome? fun layer => layer key).getD (initial.get key)

namespace Layered

variable {layers below : List Layer} {settings other : Settings}

theorem unique (h : Layered layers settings) (hother : Layered layers other) :
    settings = other := by
  apply ext_get
  intro key
  rw [h key, hother key]

/-- Settings that were changed by layers come from those layers over the ones before. -/
theorem append (above : List Layer) (hbelow : Layered below other)
    (h : ∀ key, settings.get key
      = (above.findSome? fun layer => layer key).getD (other.get key)) :
    Layered (above ++ below) settings := by
  intro key
  rw [h key, hbelow key, List.findSome?_append]
  cases above.findSome? fun layer => layer key <;> rfl

end Layered

/-! ## Values -/

/-- The value that a text is for a setting: a number where the setting is one; no text at all is
zero. -/
def Key.ofText? (key : Key) (text : Bytes) : Option Entry :=
  match key with
  | .maxLineBytes =>
    if text.isEmpty then some (.number 0) else (Integer.parse text).toOption.map .number
  | _ => some (.text text)

/-- The value that an entry of a document is for a setting: one of the sort of the setting. -/
def Key.ofValue? (key : Key) (value : Value) : Option Entry :=
  match key, value with
  | .maxLineBytes, .int n => if n < wrapBound then some (.number n) else none
  | .maxLineBytes, _ => none
  | _, .text s => some (.text s)
  | _, _ => none

theorem entryOf_of_ofText? {key : Key} {text : Bytes} {entry : Entry}
    (h : key.ofText? text = some entry) : entryOf .free key (.text text) = .ok (some entry) := by
  cases key with
  | maxLineBytes =>
    rw [Key.ofText?] at h
    split_ifs at h with hempty
    · obtain rfl := Option.some.inj h
      simp [entryOf, numberOf, hempty, Except.map]
    · cases hparse : Integer.parse text with
      | error error => simp [hparse, Except.toOption] at h
      | ok n =>
        obtain rfl : Entry.number n = entry := by simpa [hparse, Except.toOption] using h
        simp [entryOf, numberOf, hempty, hparse, Except.map]
  | _ =>
    obtain rfl := Option.some.inj h
    rfl

theorem entryOf_of_ofValue? {key : Key} {value : Value} {entry : Entry}
    (h : key.ofValue? value = some entry) : entryOf .free key value = .ok (some entry) := by
  cases key with
  | maxLineBytes =>
    cases value with
    | int n =>
      rw [Key.ofValue?] at h
      split_ifs at h with hn
      obtain rfl := Option.some.inj h
      simp [entryOf, numberOf, wrapped, Int.not_le.mpr hn, Except.map]
    | _ => cases h
  | _ =>
    cases value with
    | text s =>
      obtain rfl := Option.some.inj h
      rfl
    | _ => cases h

/-! ## The layers of the program -/

/-- The layer of the workspace: what fits in its documents. -/
def Layer.ofWorkspace (files : FileSystem) (environment : Environment) : Layer := fun key =>
  match Workspace.entries? files environment with
  | some (.map entries) => given? .strict (home entries key) key
  | _ => none

/-- The layer of a document. -/
def Layer.ofDocument (entries : List (Bytes × Value)) : Layer := fun key =>
  (key.at? entries).bind key.ofValue?

/-- The layer of the variables. -/
def Layer.ofEnvironment (environment : Environment) : Layer := fun key =>
  (environment.value? key).bind key.ofText?

/-- The layer of the flags: four settings have one. -/
def Layer.ofFlags (given : Flags.Given) : Layer
  | .onEmpty => (given.text? "on-empty").map .text
  | .maxLineBytes => (given.number? "max-line-bytes").map .number
  | .metricsFile => (given.text? "metrics-file").map .text
  | .logLevel => (given.text? "log-level").map .text
  | _ => none

/-- **The workspace is one layer** over the initial settings, whatever is wrong with it. -/
theorem layered_ofWorkspace (files : FileSystem) (environment : Environment) :
    Layered [Layer.ofWorkspace files environment] (ofWorkspace files environment) := by
  intro key
  rw [ofWorkspace, List.findSome?_singleton, Layer.ofWorkspace]
  cases Workspace.entries? files environment with
  | none => rfl
  | some value =>
    cases value with
    | map entries => exact get_decode .strict entries initial key
    | _ => rfl

/-- **The flags are one layer.** -/
theorem get_overlay (given : Flags.Given) (settings : Settings) (key : Key) :
    (Job.overlay given settings).get key = (Layer.ofFlags given key).getD (settings.get key) := by
  cases key with
  | onEmpty => cases h : given.text? "on-empty" <;> simp [Job.overlay, Layer.ofFlags, get, h]
  | maxLineBytes =>
    cases h : given.number? "max-line-bytes" <;> simp [Job.overlay, Layer.ofFlags, get, h]
  | metricsFile =>
    cases h : given.text? "metrics-file" <;> simp [Job.overlay, Layer.ofFlags, get, h]
  | logLevel => cases h : given.text? "log-level" <;> simp [Job.overlay, Layer.ofFlags, get, h]
  | _ => rfl

theorem layered_overlay {layers : List Layer} {settings : Settings}
    (h : Layered layers settings) (given : Flags.Given) :
    Layered (Layer.ofFlags given :: layers) (Job.overlay given settings) := by
  refine h.append [Layer.ofFlags given] fun key => ?_
  rw [get_overlay, List.findSome?_singleton]

/-! ## Documents and variables -/

/-- **A document is plain**: every name is that of the section or of a setting, spelled exactly, the
section is a map, and every value is of the sort of its setting. -/
def Plain (entries : List (Bytes × Value)) : Prop :=
  ∀ entry ∈ entries,
    (∃ inside, entry = (Key.sectionName, .map inside) ∧
      ∀ inner ∈ inside, ∃ key ∈ Key.ofSection, inner.1 = key.name ∧
        (key.ofValue? inner.2).isSome) ∨
    ∃ key ∈ Key.ofTop, entry.1 = key.name ∧ (key.ofValue? entry.2).isSome

section Merged

variable {entries : List (Bytes × Value)} {environment : Environment} {key : Key}

theorem Plain.inside (h : Plain entries) {value : Value}
    (hvalue : Yaml.at? Key.sectionName entries = some value) :
    ∃ inside, value = .map inside ∧
      ∀ inner ∈ inside, ∃ key ∈ Key.ofSection, inner.1 = key.name ∧
        (key.ofValue? inner.2).isSome := by
  rcases h _ (Yaml.mem_of_at? hvalue) with ⟨inside, heq, hinside⟩ | ⟨key, -, hname, -⟩
  · exact ⟨inside, congrArg Prod.snd heq, hinside⟩
  · exact absurd hname.symm key.name_ne_sectionName

theorem Plain.tagged (h : Plain entries) : Tagged entries := by
  constructor
  · intro entry hentry
    rcases h entry hentry with ⟨inside, rfl, -⟩ | ⟨key, hkey, hname, -⟩
    · exact List.mem_cons_self
    · rw [hname]
      exact Key.name_mem_topNames hkey
  · intro value hvalue
    obtain ⟨inside, rfl, hinside⟩ := h.inside hvalue
    refine ⟨inside, rfl, fun inner hinner => ?_⟩
    obtain ⟨key, hkey, hname, -⟩ := hinside inner hinner
    rw [hname]
    exact Key.name_mem_sectionNames hkey

theorem Plain.ofValue?_isSome (h : Plain entries) {value : Value}
    (hvalue : key.at? entries = some value) : (key.ofValue? value).isSome := by
  rw [Key.at?] at hvalue
  split_ifs at hvalue with hkey
  · obtain ⟨whole, hwhole, hwithin⟩ := Option.bind_eq_some_iff.mp hvalue
    obtain ⟨inside, rfl, hinside⟩ := h.inside hwhole
    obtain ⟨other, -, hname, hfits⟩ := hinside _ (Yaml.mem_of_at? hwithin)
    rw [Key.eq_of_name hname]
    exact hfits
  · rcases h _ (Yaml.mem_of_at? hvalue) with ⟨inside, heq, -⟩ | ⟨other, -, hname, hfits⟩
    · exact absurd (congrArg Prod.fst heq) key.name_ne_sectionName
    · rw [Key.eq_of_name hname]
      exact hfits

/-- **What document and variables give a setting** when they are merged: the value of the variable,
or else that of the document. Every value fits. -/
theorem lookup_merged (hplain : Plain entries) (hnames : environment.NamesSettings)
    (hfits : ∀ text, environment.value? key = some text → (key.ofText? text).isSome) :
    (lookup? key.name (home (merge entries environment.entries) key)).map (entryOf .free key)
      = ([Layer.ofEnvironment environment, Layer.ofDocument entries].findSome?
          fun layer => layer key).map fun entry => .ok (some entry) := by
  have hspelt := Environment.spelt_entries hnames
  have hat := Environment.at?_entries hnames key
  have htext : ∀ value, key.at? environment.entries = some value → ∃ s, value = .text s := by
    intro value hvalue
    rw [hat] at hvalue
    obtain ⟨s, -, hs⟩ := Option.map_eq_some_iff.mp hvalue
    exact ⟨s, hs.symm⟩
  rw [(hplain.tagged.merge hspelt).lookup?_home, hplain.tagged.at?_merge hspelt htext, hat]
  cases hvariable : environment.value? key with
  | some text =>
    obtain ⟨entry, hentry⟩ := Option.isSome_iff_exists.mp (hfits text hvariable)
    simp [Layer.ofEnvironment, hvariable, hentry, entryOf_of_ofText? hentry]
  | none =>
    cases hvalue : key.at? entries with
    | none => simp [Layer.ofEnvironment, Layer.ofDocument, hvariable, hvalue]
    | some value =>
      obtain ⟨entry, hentry⟩ := Option.isSome_iff_exists.mp (hplain.ofValue?_isSome hvalue)
      simp [Layer.ofEnvironment, Layer.ofDocument, hvariable, hvalue, hentry,
        entryOf_of_ofValue? hentry]

end Merged

/-! ## Loading -/

section Load

variable {files : FileSystem} {environment : Environment} {path : Bytes}
  {entries : List (Bytes × Value)}

/-- The variables fit their settings: only a number can fail to. -/
theorem ofText?_isSome
    (h : ∀ text, environment.value? .maxLineBytes = some text →
      (Key.ofText? .maxLineBytes text).isSome) (key : Key) :
    ∀ text, environment.value? key = some text → (key.ofText? text).isSome := by
  intro text htext
  cases key with
  | maxLineBytes => exact h text htext
  | _ => rfl

/-- **Loading a plain document and variables that fit** meets no problem, and each setting is given
what the variables or the document give it. -/
theorem loadOver_of_plain (base : Settings) (registry : Registry)
    (hdocument : documentEntries files path = .ok entries)
    (hplain : Plain entries) (hnames : environment.NamesSettings)
    (hnumber : ∀ text, environment.value? .maxLineBytes = some text →
      (Key.ofText? .maxLineBytes text).isSome) :
    let loaded := loadOver base registry files environment path
    loaded.failure = (loaded.settings.validate registry).map (Stage.validation, ·) ∧
      ∀ key, loaded.settings.get key
        = ([Layer.ofEnvironment environment, Layer.ofDocument entries].findSome?
            fun layer => layer key).getD (base.get key) := by
  have hlookup (key : Key) := lookup_merged hplain hnames (ofText?_isSome hnumber key)
  have hproblems : (base.decode .free (merge entries environment.entries)).problems = [] := by
    apply (problems_decode_eq_nil_iff _ _ _).mpr
    constructor
    · exact (hplain.tagged.merge (Environment.spelt_entries hnames)).sectionProblem?_eq_none
    · intro key
      rw [problem?, hlookup key]
      cases [Layer.ofEnvironment environment, Layer.ofDocument entries].findSome?
        fun layer => layer key <;> rfl
  have hload : loadOver base registry files environment path
      = ⟨(base.decode .free (merge entries environment.entries)).settings,
          ((base.decode .free (merge entries environment.entries)).settings.validate
            registry).map (Stage.validation, ·)⟩ := by
    simp [loadOver, hdocument, hproblems]
  intro loaded
  simp only [loaded, hload, true_and]
  intro key
  rw [get_decode, given?, hlookup key]
  cases [Layer.ofEnvironment environment, Layer.ofDocument entries].findSome?
    fun layer => layer key <;> rfl

/-- **What settling comes to**: the settings with the flags over them, if both are valid. -/
theorem settle_eq_ok_iff {registry : Registry} {given : Flags.Given} {loaded : Loaded}
    {settings : Settings} :
    Job.settle registry given loaded = .ok settings ↔
      loaded.failure = none ∧ (Job.overlay given loaded.settings).validate registry = none ∧
        settings = Job.overlay given loaded.settings := by
  rw [Job.settle]
  cases hfailure : loaded.failure with
  | some failure => simp
  | none =>
    cases hvalid : (Job.overlay given loaded.settings).validate registry with
    | some fault => simp [hvalid]
    | none => simp [hvalid, eq_comm]

end Load

/-- **Settings are layered setting by setting.** A document is plain, the variables name settings,
and the bound on a line is a number where it is set. Over whatever the workspace gives, loading
leaves each setting at the value of its variable, or else of the document, or else of the
workspace, or else at its initial value, and fails only if these settings are not valid; settling
succeeds just if they are, and are with the flags over them, and gives the latter. The workspace
that is built in is such a layer, and a session settles its settings over what its own workspace
gives. -/
theorem settle_layered (session : Session) (given : Flags.Given)
    (entries : List (Bytes × Value))
    (hdocument : documentEntries session.files (Job.document given) = .ok entries)
    (hplain : Plain entries) (hnames : session.environment.NamesSettings)
    (hnumber : ∀ text, session.environment.value? .maxLineBytes = some text →
      (Key.ofText? .maxLineBytes text).isSome) :
    (∀ (workspace : Layer) (base : Settings), Layered [workspace] base →
      let layers := [Layer.ofEnvironment session.environment, Layer.ofDocument entries, workspace]
      let loaded := loadOver base session.registry session.files session.environment
        (Job.document given)
      Layered layers loaded.settings ∧
        loaded.failure
          = (loaded.settings.validate session.registry).map (Stage.validation, ·) ∧
        ∀ settings, Job.settle session.registry given loaded = .ok settings ↔
          loaded.settings.validate session.registry = none ∧
            settings.validate session.registry = none ∧
            Layered (Layer.ofFlags given :: layers) settings) ∧
    Layered [Layer.ofWorkspace session.files session.environment]
      (ofWorkspace session.files session.environment) ∧
    Job.resolve session given
      = Job.settle session.registry given
          (loadOver (session.workspace session.files session.environment) session.registry
            session.files session.environment (Job.document given)) := by
  refine ⟨?_, layered_ofWorkspace _ _, rfl⟩
  intro workspace base hbase layers loaded
  obtain ⟨hfailure, hget⟩ := loadOver_of_plain base session.registry hdocument hplain hnames
    hnumber
  have hloaded : Layered layers loaded.settings := hbase.append _ hget
  have hfailed : loaded.failure
      = (loaded.settings.validate session.registry).map (Stage.validation, ·) := hfailure
  refine ⟨hloaded, hfailed, fun settings => ?_⟩
  rw [settle_eq_ok_iff, hfailed, Option.map_eq_none_iff]
  have hover := layered_overlay hloaded given
  constructor
  · rintro ⟨hvalid, hvalid', rfl⟩
    exact ⟨hvalid, hvalid', hover⟩
  · rintro ⟨hvalid, hvalid', hlayered⟩
    obtain rfl := hlayered.unique hover
    exact ⟨hvalid, hvalid', rfl⟩

theorem documentEntries_of_read {files : FileSystem} {path text : Bytes}
    {entries : List (Bytes × Value)} (hpath : path ≠ [])
    (hread : files.read path = .ok text) (hentries : Yaml.readMap? text = some entries) :
    documentEntries files path = .ok entries := by
  simp [documentEntries, hpath, hread, hentries]

set_option maxRecDepth 20000 in
/-- A document with a setting in the section and one beside it. -/
theorem readMap?_section_and_top :
    Yaml.readMap? (utf8 "transform:\n  on_empty: skip\nlog_level: debug\n")
      = some [(Key.sectionName, .map [(Key.onEmpty.name, .text (utf8 "skip"))]),
          (Key.logLevel.name, .text (utf8 "debug"))] := by
  have htokens : Yaml.tokens "transform:\n  on_empty: skip\nlog_level: debug\n".toList
      = [.mappingStart, .key, .scalar "transform".toList true, .value, .mappingStart, .key,
          .scalar "on_empty".toList true, .value, .scalar "skip".toList true, .blockEnd, .key,
          .scalar "log_level".toList true, .value, .scalar "debug".toList true, .blockEnd,
          .streamEnd] := by
    decide +kernel
  have hdocument : Yaml.document? "transform:\n  on_empty: skip\nlog_level: debug\n".toList
      = some (some (.mapping
          [(.scalar [] "transform".toList true,
              .mapping [(.scalar [] "on_empty".toList true, .scalar [] "skip".toList true)]),
            (.scalar [] "log_level".toList true, .scalar [] "debug".toList true)])) := by
    rw [Yaml.document?, htokens]
    rfl
  apply Yaml.readMap?_of_document? (by decide) hdocument
  simp only [Yaml.value?, Yaml.ownEntries?, Yaml.mergeEntries?]
  rfl

set_option maxRecDepth 20000 in
/-- All layers at once: the bound is from a flag, the input from a variable, the policy and the log
level are from the document, the output is from the workspace, and the rest is initial. -/
theorem settle_layered_every_layer :
    let session : Session :=
      { environment := [(utf8 "CODECLEAN_TRANSFORM__INPUT", utf8 "in.txt")]
        files := FileSystem.fresh.install (utf8 "c.yml")
          (utf8 "transform:\n  on_empty: skip\nlog_level: debug\n") }
    let given : Flags.Given :=
      { values := [(utf8 "config-file", .text (utf8 "c.yml")),
          (utf8 "max-line-bytes", .number 80)] }
    let loaded := loadOver { initial with output := utf8 "values.txt" } session.registry
      session.files session.environment (Job.document given)
    Job.settle session.registry given loaded
      = .ok
        { defaultTransform := utf8 "binary"
          onEmpty := utf8 "skip"
          maxLineBytes := 80
          input := utf8 "in.txt"
          output := utf8 "values.txt"
          logLevel := utf8 "debug"
          metricsFile := [] } := by
  intro session given loaded
  let entries : List (Bytes × Value) :=
    [(Key.sectionName, .map [(Key.onEmpty.name, .text (utf8 "skip"))]),
      (Key.logLevel.name, .text (utf8 "debug"))]
  have hdocument : documentEntries session.files (Job.document given) = .ok entries :=
    documentEntries_of_read (by decide) (by decide) readMap?_section_and_top
  have hplain : Plain entries := by
    intro entry hentry
    rcases List.mem_cons.mp hentry with rfl | hentry
    · left
      refine ⟨_, rfl, fun inner hinner => ?_⟩
      obtain rfl := List.mem_singleton.mp hinner
      exact ⟨.onEmpty, by decide, rfl, rfl⟩
    · right
      obtain rfl := List.mem_singleton.mp hentry
      exact ⟨.logLevel, by decide, rfl, rfl⟩
  have hnames : session.environment.NamesSettings := by
    intro entry hentry _
    obtain rfl := List.mem_singleton.mp hentry
    exact ⟨.input, by decide⟩
  have hnumber : ∀ text, session.environment.value? .maxLineBytes = some text →
      (Key.ofText? .maxLineBytes text).isSome := by
    have hnone : session.environment.value? .maxLineBytes = none := by decide
    intro text htext
    rw [hnone] at htext
    cases htext
  let workspace : Layer := fun key =>
    if key = .output then some (.text (utf8 "values.txt")) else none
  obtain ⟨hall, -, -⟩ := settle_layered session given entries hdocument hplain hnames hnumber
  obtain ⟨hlayered, -, hsettle⟩ := hall workspace { initial with output := utf8 "values.txt" }
    fun key => by cases key <;> rfl
  have hloaded : loaded.settings
      = { initial with
          onEmpty := utf8 "skip"
          input := utf8 "in.txt"
          output := utf8 "values.txt"
          logLevel := utf8 "debug" } := by
    apply hlayered.unique
    intro key
    cases key <;> decide
  apply (hsettle _).mpr
  refine ⟨?_, by decide, ?_⟩
  · rw [hloaded]
    decide
  · intro key
    cases key <;> decide

end Settings

end Linewise

import Linewise.Proofs.Documents
import Linewise.Proofs.Override
import Linewise.Proofs.Preflight

/-!
# Settings that are written and loaded again

Valid settings with paths and a policy in printable ASCII come back from the document they
are written to. All their values stand in one line: the default transformation is one of the
two built-in names, the bound is not negative, and a known log level has no characters but
letters, the dotted capital I and the Kelvin sign among them, whose lower case is in ASCII.
So every entry is read back, and the document gives each setting that it has its own value.
What it leaves out is an empty text or zero, and comes back as it is initially.

## Main definitions

* `Bytes.IsPrintable`: a text in printable ASCII
* `Settings.Entry.IsInline`: a value that stands in one line
* `Settings.document`: the document of the settings, as it is read
* `Settings.filled`: the settings with the initial values for empty ones

## Main results

* `lowercase_ascii`: the characters whose lower case is a small letter
* `Settings.isInline_get`: every value of valid settings stands in one line
* `Settings.readMap?_render`: the document of the settings is read back
* `Settings.reload_render`: the settings come back
-/

namespace Linewise

/-! ## Variables of others -/

namespace Environment

variable {environment : Environment}

theorem Foreign.namesSettings (h : environment.Foreign) : environment.NamesSettings := by
  intro entry hentry hmark
  rw [h entry hentry] at hmark
  cases hmark

theorem Foreign.value? (h : environment.Foreign) (key : Settings.Key) :
    environment.value? key = none := by
  rw [Environment.value?, Option.map_eq_none_iff, List.find?_eq_none]
  intro entry hentry hspells
  rw [spells, h entry (List.mem_reverse.mp hentry)] at hspells
  cases hspells

end Environment

/-! ## Log levels -/

/-- Few capitals have their small letter in ASCII. -/
theorem Lowercase.of_mem_ranges : ∀ range ∈ ranges, 0x80 ≤ range.small ∨
    (range.low, range.high) ∈ [(0x41, 0x5A), (0x130, 0x130), (0x212A, 0x212A)] := by
  decide +kernel

/-- **The characters whose lower case is a small letter**: the letters, the dotted capital I and
the Kelvin sign. -/
theorem lowercase_ascii {c : Char} (h : 0x61 ≤ (lowercase c).toNat ∧ (lowercase c).toNat ≤ 0x7A) :
    0x41 ≤ c.toNat ∧ c.toNat ≤ 0x7A ∨ c.toNat = 0x130 ∨ c.toNat = 0x212A := by
  rw [lowercase] at h
  split at h
  · rename_i code hcode
    obtain ⟨range, hrange, hmap⟩ := List.exists_of_findSome?_eq_some hcode
    rw [Lowercase.Range.map?] at hmap
    split_ifs at hmap with hcapital
    simp only [Bool.and_eq_true, decide_eq_true_eq] at hcapital
    have hsmall : range.small ≤ code := by
      rw [← Option.some.inj hmap]
      exact Nat.le_add_right _ _
    have hvalid : code.isValidChar := by
      by_contra hvalid
      rw [Char.ofNat, dif_neg hvalid] at h
      exact absurd h (by decide)
    rw [toNat_charOfNat hvalid] at h
    have hbounds := Lowercase.of_mem_ranges range hrange
    simp only [List.mem_cons, Prod.mk.injEq, List.not_mem_nil, or_false] at hbounds
    omega
  · left
    omega

/-- A log level is named in small letters. -/
theorem Log.Level.name_eq_ofChars (level : Level) :
    ∃ word, level.name = ofChars word ∧ ∀ d ∈ word, 0x61 ≤ d.toNat ∧ d.toNat ≤ 0x7A := by
  cases level <;> exact ⟨_, rfl, List.all_iff_forall_prop.mp (by decide)⟩

/-- **A known log level stands in one line**, and has no stray bytes. -/
theorem Log.Level.oneLine_of_parse? {text : Bytes} (h : (parse? text).isSome) :
    Yaml.OneLine text := by
  obtain ⟨word, hword, hletters⟩ : ∃ word : List Char, Bytes.toLower text = ofChars word ∧
      ∀ d ∈ word, 0x61 ≤ d.toNat ∧ d.toNat ≤ 0x7A := by
    rw [parse?] at h
    split_ifs at h with hwarn
    · exact ⟨"warn".toList, hwarn, List.all_iff_forall_prop.mp (by decide)⟩
    · obtain ⟨level, hlevel⟩ := Option.isSome_iff_exists.mp h
      have hname : level.name = Bytes.toLower text := by simpa using List.find?_some hlevel
      rw [← hname]
      exact level.name_eq_ofChars
  have hlower : (shownChars text).map lowercase = word := by
    have hshown := congrArg shownChars hword
    rwa [Bytes.toLower, shownChars_ofChars, shownChars_ofChars] at hshown
  have hcode (c : Char) (hc : c ∈ shownChars text) :
      0x41 ≤ c.toNat ∧ c.toNat ≤ 0x7A ∨ c.toNat = 0x130 ∨ c.toNat = 0x212A :=
    lowercase_ascii (hletters _ (hlower ▸ List.mem_map_of_mem hc))
  constructor
  · rw [isValidUtf8, List.all_eq_true]
    intro rune hrune
    cases rune with
    | char c => rfl
    | stray b => exact absurd (hcode '\ufffd' (List.mem_map.mpr ⟨.stray b, hrune, rfl⟩)) (by decide)
  · intro c hc
    rcases hcode c hc with hletter | hdotted | hkelvin
    · exact Yaml.isInline_of_toNat (by omega)
    · obtain rfl : c = Char.ofNat 0x130 := Char.toNat_inj.mp hdotted
      decide
    · obtain rfl : c = Char.ofNat 0x212A := Char.toNat_inj.mp hkelvin
      decide

/-! ## Values that stand in one line -/

/-- **A text in printable ASCII.** -/
def Bytes.IsPrintable (text : Bytes) : Prop :=
  ∀ b ∈ text, 0x20 ≤ b.toNat ∧ b.toNat ≤ 0x7E

instance (text : Bytes) : Decidable text.IsPrintable :=
  List.decidableBAll (fun b : UInt8 => 0x20 ≤ b.toNat ∧ b.toNat ≤ 0x7E) text

theorem Bytes.IsPrintable.oneLine {text : Bytes} (h : text.IsPrintable) : Yaml.OneLine text := by
  have hascii : ∀ b ∈ text, b.toNat < 0x80 := by
    intro b hb
    have := h b hb
    omega
  rw [← ofChars_codes hascii]
  refine ⟨isValidUtf8_ofChars _, fun c hc => ?_⟩
  rw [shownChars_ofChars] at hc
  obtain ⟨b, hb, rfl⟩ := List.mem_map.mp hc
  have hcode := h b hb
  apply Yaml.isInline_of_toNat
  rw [toNat_charOfNat (.inl (by omega))]
  exact hcode

namespace Settings

open Yaml (Value Item)

/-- **A value that stands in one line**: a text that does, or a number of 64 bits without sign. -/
def Entry.IsInline : Entry → Prop
  | text s => Yaml.OneLine s
  | number n => 0 ≤ n ∧ n < Integer.signedBound

/-- The built-in names are words. -/
theorem of_find?_builtin {name : Bytes} {transform : Transform}
    (h : Registry.builtin.find? name = some transform) : name.IsPrintable ∧ name ≠ [] := by
  have hall : ∀ name ∈ Registry.builtin.names, name.IsPrintable ∧ name ≠ [] := by decide
  obtain ⟨entry, hentry, -⟩ := Option.map_eq_some_iff.mp h
  have hname : entry.1 = name := by simpa using List.find?_some hentry
  apply hall
  rw [← hname]
  exact List.mem_map_of_mem (List.mem_of_find?_eq_some hentry)

section Valid

variable {settings : Settings}

/-- **Every value of valid settings stands in one line**, if the texts that are not checked are
in printable ASCII. -/
theorem isInline_get (hvalid : settings.validate Registry.builtin = none)
    (hbound : settings.maxLineBytes < Integer.signedBound)
    (honEmpty : settings.onEmpty.IsPrintable) (hinput : settings.input.IsPrintable)
    (houtput : settings.output.IsPrintable) (hmetrics : settings.metricsFile.IsPrintable)
    (key : Key) : (settings.get key).IsInline := by
  obtain ⟨⟨transform, htransform⟩, -, hnat, hlevel⟩ := validate_eq_none_iff.mp hvalid
  cases key with
  | defaultTransform => exact (of_find?_builtin htransform).1.oneLine
  | onEmpty => exact honEmpty.oneLine
  | maxLineBytes => exact ⟨hnat, hbound⟩
  | input => exact hinput.oneLine
  | output => exact houtput.oneLine
  | logLevel =>
    rcases hlevel with hempty | hknown
    · rw [get, hempty]
      exact Yaml.OneLine.nil
    · exact Log.Level.oneLine_of_parse? hknown
  | metricsFile => exact hmetrics.oneLine

end Valid

/-! ## The document of the settings -/

section Document

variable {settings : Settings}

theorem Key.isWord_name (key : Key) : ∃ word, Yaml.IsWord word ∧ key.name = ofChars word := by
  cases key <;> exact ⟨_, ⟨by decide, by decide, List.all_eq_true.mp (by decide)⟩, rfl⟩

/-- The entry of a setting is one of its sort. -/
theorem item?_cases {key : Key} {item : Item} (h : settings.item? key = some item) :
    (∃ s, settings.get key = .text s ∧ item = .text key.name s) ∨
      ∃ n, settings.get key = .number n ∧ item = .int key.name n := by
  rw [item?] at h
  cases hentry : settings.get key with
  | text s =>
    simp only [hentry] at h
    split_ifs at h
    exact .inl ⟨s, rfl, (Option.some.inj h).symm⟩
  | number n =>
    simp only [hentry] at h
    split_ifs at h
    exact .inr ⟨n, rfl, (Option.some.inj h).symm⟩

theorem key_of_item? {key : Key} {item : Item} (h : settings.item? key = some item) :
    item.key = key.name := by
  obtain ⟨s, -, rfl⟩ | ⟨n, -, rfl⟩ := item?_cases h <;> rfl

/-- **The entry of a setting can be read back** if its value stands in one line, and then has that
value. -/
theorem legible_of_item? {key : Key} {item : Item} (h : settings.item? key = some item)
    (hinline : (settings.get key).IsInline) :
    item.Legible ∧ key.ofValue? item.value = some (settings.get key) := by
  have hword : ∃ word, Yaml.IsWord word ∧ item.key = ofChars word :=
    key_of_item? h ▸ key.isWord_name
  obtain ⟨s, hentry, rfl⟩ | ⟨n, hentry, rfl⟩ := item?_cases h
  · rw [hentry] at hinline ⊢
    refine ⟨⟨hword, hinline⟩, ?_⟩
    cases key with
    | maxLineBytes => cases hentry
    | _ => rfl
  · rw [hentry] at hinline ⊢
    refine ⟨⟨hword, hinline⟩, ?_⟩
    cases key with
    | maxLineBytes => exact if_pos hinline.2
    | _ => cases hentry

variable (settings) in
/-- The names and values that some settings have in a document. -/
def namedOf (keys : List Key) : List (Bytes × Value) :=
  (keys.filterMap settings.item?).map Item.named

variable (settings) in
/-- **The document of the settings**, as it is read. -/
def document : List (Bytes × Value) :=
  (Key.sectionName, .map (settings.namedOf Key.ofSection)) :: settings.namedOf Key.ofTop

theorem mem_namedOf {keys : List Key} {named : Bytes × Value}
    (h : named ∈ settings.namedOf keys) :
    ∃ key ∈ keys, ∃ item, settings.item? key = some item ∧ named = item.named := by
  obtain ⟨item, hitem, rfl⟩ := List.mem_map.mp h
  obtain ⟨key, hkey, hitem⟩ := List.mem_filterMap.mp hitem
  exact ⟨key, hkey, item, hitem, rfl⟩

variable (settings) in
theorem keys_sublist (keys : List Key) :
    ((keys.filterMap settings.item?).map Item.key).Sublist (keys.map Key.name) := by
  induction keys with
  | nil => exact .slnil
  | cons key keys ih =>
    cases hitem : settings.item? key with
    | none =>
      rw [List.filterMap_cons_none hitem]
      exact ih.cons _
    | some item =>
      rw [List.filterMap_cons_some hitem, List.map_cons, List.map_cons, key_of_item? hitem]
      exact ih.cons_cons _

/-- **A setting is found under its name**, if it has an entry. -/
theorem at?_namedOf {keys : List Key} {key : Key} (hkey : key ∈ keys) :
    Yaml.at? key.name (settings.namedOf keys) = (settings.item? key).map Item.value := by
  cases hat : Yaml.at? key.name (settings.namedOf keys) with
  | none =>
    cases hitem : settings.item? key with
    | none => rfl
    | some item =>
      have hmem : item.named ∈ settings.namedOf keys :=
        List.mem_map_of_mem (List.mem_filterMap.mpr ⟨key, hkey, hitem⟩)
      exact absurd (key_of_item? hitem) (Yaml.at?_eq_none_iff.mp hat _ hmem)
  | some value =>
    obtain ⟨other, -, item, hitem, hnamed⟩ := mem_namedOf (Yaml.mem_of_at? hat)
    have hother : key = other :=
      Key.eq_of_name ((congrArg Prod.fst hnamed).trans (key_of_item? hitem))
    rw [hother, hitem, Option.map_some]
    exact congrArg (some ∘ Prod.snd) hnamed

/-- **The document of the settings is read back.** -/
theorem readMap?_render (hinline : ∀ key, (settings.get key).IsInline)
    (hdefault : settings.defaultTransform ≠ []) :
    Yaml.readMap? settings.render = some settings.document := by
  have hitems (keys : List Key) : ∀ item ∈ keys.filterMap settings.item?, item.Legible := by
    intro item hitem
    obtain ⟨key, -, hitem⟩ := List.mem_filterMap.mp hitem
    exact (legible_of_item? hitem (hinline key)).1
  let sections : List Yaml.Section :=
    [.nested Key.sectionName (Key.ofSection.filterMap settings.item?),
      .top (Key.ofTop.filterMap settings.item?)]
  have hlegible : ∀ sect ∈ sections, sect.Legible := by
    intro sect hsect
    simp only [sections, List.mem_cons, List.not_mem_nil, or_false] at hsect
    rcases hsect with rfl | rfl
    · refine ⟨hitems _, (keys_sublist settings Key.ofSection).nodup (by decide), ?_⟩
      rintro key items ⟨⟩
      exact ⟨"transform".toList, ⟨by decide, by decide, List.all_eq_true.mp (by decide)⟩, rfl⟩
    · refine ⟨hitems _, (keys_sublist settings Key.ofTop).nodup (by decide), ?_⟩
      intro key items htop
      cases htop
  have hdefault : settings.item? .defaultTransform
      = some (.text Key.defaultTransform.name settings.defaultTransform) := by
    simp [item?, get, hdefault]
  have hsection : (Key.ofSection.filterMap settings.item?).isEmpty = false := by
    rw [Key.ofSection, List.filterMap_cons_some hdefault, List.isEmpty_cons]
  have hnamed : sections.flatMap Yaml.Section.named = settings.document := by
    simp [sections, Yaml.Section.named, hsection, document, namedOf]
  rw [← hnamed]
  refine Yaml.readMap?_render hlegible ?_ ?_
  · rw [hnamed]
    simp only [document, namedOf, List.map_cons, List.map_map]
    exact ((keys_sublist settings Key.ofTop).cons_cons Key.sectionName).nodup (by decide)
  · rw [hnamed]
    exact List.cons_ne_nil _ _

/-- **The document of the settings is plain.** -/
theorem plain_document (hinline : ∀ key, (settings.get key).IsInline) :
    Plain settings.document := by
  have hfits {keys : List Key} {named : Bytes × Value} (h : named ∈ settings.namedOf keys) :
      ∃ key ∈ keys, named.1 = key.name ∧ (key.ofValue? named.2).isSome := by
    obtain ⟨key, hkey, item, hitem, rfl⟩ := mem_namedOf h
    refine ⟨key, hkey, key_of_item? hitem, ?_⟩
    rw [Item.named, (legible_of_item? hitem (hinline key)).2]
    rfl
  intro entry hentry
  rcases List.mem_cons.mp hentry with rfl | hentry
  · exact .inl ⟨_, rfl, fun inner hinner => hfits hinner⟩
  · exact .inr (hfits hentry)

/-- **The document gives each setting that it has its own value.** -/
theorem ofDocument_document (hinline : ∀ key, (settings.get key).IsInline) (key : Key) :
    Layer.ofDocument settings.document key
      = (settings.item? key).map fun _ => settings.get key := by
  have hat : key.at? settings.document = (settings.item? key).map Item.value := by
    rw [Key.at?]
    split_ifs with hkey
    · rw [document, Yaml.at?_cons_self]
      exact at?_namedOf hkey
    · rw [document, Yaml.at?_cons_of_ne key.name_ne_sectionName.symm]
      exact at?_namedOf (key.mem_ofSection_or_mem_ofTop.resolve_left hkey)
  rw [Layer.ofDocument, hat]
  cases hitem : settings.item? key with
  | none => rfl
  | some item => exact (legible_of_item? hitem (hinline key)).2

end Document

/-! ## Loading the document again -/

/-- **The settings with the initial value for an empty policy, path or log level.** -/
def filled (settings : Settings) : Settings :=
  let orInitial (text initial : Bytes) := if text.isEmpty then initial else text
  { settings with
    onEmpty := orInitial settings.onEmpty initial.onEmpty
    input := orInitial settings.input initial.input
    output := orInitial settings.output initial.output
    logLevel := orInitial settings.logLevel initial.logLevel }

variable {settings : Settings}

/-- What has no entry is initial: nothing but empty texts and zero is left out. -/
theorem get_filled (hdefault : settings.defaultTransform ≠ []) (key : Key) :
    settings.filled.get key
      = ((settings.item? key).map fun _ => settings.get key).getD (initial.get key) := by
  cases key with
  | defaultTransform => simp [filled, get, item?, hdefault]
  | onEmpty => by_cases h : settings.onEmpty = [] <;> simp [filled, get, item?, h]
  | maxLineBytes => by_cases h : settings.maxLineBytes = 0 <;> simp [filled, get, item?, h, initial]
  | input => by_cases h : settings.input = [] <;> simp [filled, get, item?, h]
  | output => by_cases h : settings.output = [] <;> simp [filled, get, item?, h]
  | logLevel => by_cases h : settings.logLevel = [] <;> simp [filled, get, item?, h]
  | metricsFile => by_cases h : settings.metricsFile = [] <;> simp [filled, get, item?, h, initial]

/-- Initial values in place of empty ones keep settings valid. -/
theorem validate_filled (hvalid : settings.validate Registry.builtin = none) :
    settings.filled.validate Registry.builtin = none := by
  obtain ⟨htransform, hpolicy, hnat, hlevel⟩ := validate_eq_none_iff.mp hvalid
  refine validate_eq_none_iff.mpr ⟨htransform, ?_, hnat, ?_⟩
  · by_cases h : settings.onEmpty = []
    · exact ⟨.fail, by simp only [filled, h]; decide⟩
    · simpa [filled, h] using hpolicy
  · right
    by_cases h : settings.logLevel = []
    · simp only [filled, h]
      decide
    · simpa [filled, h] using hlevel

/-- **Settings that are written come back when they are loaded.** The settings are valid with the
built-in transformations, their bound fits into 64 bits, and the policy, the paths and the file for
metrics are in printable ASCII, whatever they hold. Their document is in a file, no variable is one
of the program, and the workspace is not asked or has nothing to say. Then loading the file
succeeds and gives these settings, with the initial value in place of an empty policy, input,
output or log level. -/
theorem reload_render (settings : Settings) (files : FileSystem) (environment : Environment)
    (path : Bytes) (hvalid : settings.validate Registry.builtin = none)
    (hbound : settings.maxLineBytes < Integer.signedBound)
    (honEmpty : settings.onEmpty.IsPrintable) (hinput : settings.input.IsPrintable)
    (houtput : settings.output.IsPrintable) (hmetrics : settings.metricsFile.IsPrintable)
    (hread : files.read path = .ok settings.render) (hforeign : environment.Foreign) :
    loadOver initial Registry.builtin files environment path = ⟨settings.filled, none⟩ ∧
      (Workspace.entries? files environment = none →
        load Registry.builtin files environment path = ⟨settings.filled, none⟩) := by
  have hinline := isInline_get hvalid hbound honEmpty hinput houtput hmetrics
  have hdefault : settings.defaultTransform ≠ [] := by
    obtain ⟨⟨transform, htransform⟩, -⟩ := validate_eq_none_iff.mp hvalid
    exact (of_find?_builtin htransform).2
  have hpath : path ≠ [] := by
    rintro rfl
    cases hread
  have hdocument : documentEntries files path = .ok settings.document :=
    documentEntries_of_read hpath hread (readMap?_render hinline hdefault)
  have hvariables (key : Key) : environment.value? key = none :=
    hforeign.value? key
  obtain ⟨hfailure, hget⟩ := loadOver_of_plain initial Registry.builtin hdocument
    (plain_document hinline) hforeign.namesSettings
    (fun text htext => by rw [hvariables] at htext; cases htext)
  have hsettings : (loadOver initial Registry.builtin files environment path).settings
      = settings.filled := by
    apply ext_get
    intro key
    rw [hget key, get_filled hdefault]
    simp [Layer.ofEnvironment, hvariables, ofDocument_document hinline]
  have hloaded : loadOver initial Registry.builtin files environment path
      = ⟨settings.filled, none⟩ := by
    rw [hsettings, validate_filled hvalid] at hfailure
    exact congrArg₂ Loaded.mk hsettings hfailure
  refine ⟨hloaded, fun hworkspace => ?_⟩
  rw [load, ofWorkspace, hworkspace]
  exact hloaded

/-- Blanks around the policy, quotes, signs and a date in a path, no output, a word for a boolean,
the dotted capital I in the log level, and the largest bound. -/
theorem reload_render_quoted :
    let settings : Settings :=
      { defaultTransform := utf8 "squeeze"
        onEmpty := utf8 " Skip "
        maxLineBytes := 9223372036854775807
        input := utf8 "2024-01-02: 'a' #\"b\" \\"
        output := []
        logLevel := utf8 "\u0130nfo"
        metricsFile := utf8 "true" }
    let files := FileSystem.fresh.install (utf8 "c.yml") settings.render
    let environment : Environment := [(utf8 "HOME", utf8 "/home")]
    loadOver initial Registry.builtin files environment (utf8 "c.yml")
        = ⟨{ settings with output := utf8 "output.txt" }, none⟩ ∧
      load Registry.builtin files environment (utf8 "c.yml")
        = ⟨{ settings with output := utf8 "output.txt" }, none⟩ := by
  intro settings files environment
  have hread (text : Bytes) : (FileSystem.fresh.install (utf8 "c.yml") text).read (utf8 "c.yml")
      = .ok text := rfl
  have hworkspace (text : Bytes) : Workspace.entries?
      (FileSystem.fresh.install (utf8 "c.yml") text) environment = none := rfl
  have hforeign : environment.Foreign := by
    intro entry hentry
    obtain rfl := List.mem_singleton.mp hentry
    rfl
  obtain ⟨hloaded, hload⟩ := reload_render settings files environment (utf8 "c.yml")
    (by decide +kernel) (by decide) (by decide) (by decide) (by decide) (by decide)
    (hread settings.render) hforeign
  exact ⟨hloaded, hload (hworkspace settings.render)⟩

end Settings

end Linewise

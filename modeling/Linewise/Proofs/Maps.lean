import Mathlib.Data.List.Nodup
import Linewise.Proofs.Nodes
import Linewise.Proofs.Settings

/-!
# The values of a map of maps

A document of parts is read as a map of names and values. Nothing in it is an alias, so
however much there is to read, it is never too much; no key is a merge key, since a merge
key is no word; and where no name stands twice, every entry is added behind those that are
there. Before that, its characters have to come out of its bytes as they are: it begins with
a word, hence with no byte order mark, and its lines end in line feeds alone.

## Main definitions

* `Yaml.Yields`: what a reader gives where there are no aliases
* `Yaml.Reads`: a key and a node stand for a name and a value
* `Yaml.Line.named`, `Yaml.Part.named`: the names and values of a line and of a part

## Main results

* `Yaml.yields_mapping`: the value of a map
* `Yaml.chars?_ofChars`: the characters of a document
* `Yaml.readMap?_parts`: a document of parts is read as a map
-/

namespace Linewise.Yaml

/-! ## Reading values -/

section Yields

variable {α β : Type}

/-- **A reader yields a value**, however much was read before, as long as there are no aliases. -/
def Yields (reader : Reader α) (a : α) : Prop :=
  ∀ n, ∃ m, reader.run ⟨n, 0⟩ = some (a, ⟨m, 0⟩)

theorem Yields.pure (a : α) : Yields (pure a) a :=
  fun n => ⟨n, rfl⟩

theorem Yields.bind {reader : Reader α} {next : α → Reader β} {a : α} {b : β}
    (hreader : Yields reader a) (hnext : Yields (next a) b) : Yields (reader >>= next) b := by
  intro n
  obtain ⟨m, hm⟩ := hreader n
  obtain ⟨k, hk⟩ := hnext m
  refine ⟨k, ?_⟩
  rw [StateT.run_bind, hm]
  exact hk

theorem Yields.lift {found : Option α} {a : α} (h : found = some a) :
    Yields (liftM found) a := by
  subst h
  exact fun n => ⟨n, rfl⟩

/-- Without aliases there is never too much to read. -/
theorem yields_count : Yields (count false) () :=
  fun n => ⟨n + 1, rfl⟩

end Yields

/-! ## Maps -/

/-- **A key and a node are read as a name and its value**: the key is a word, and the node yields
the value. -/
structure Reads (entry : Node × Node) (named : Bytes × Value) : Prop where
  /-- The key is a word. -/
  key : ∃ word, (∀ c ∈ word, isWordChar c = true) ∧ entry.1 = .scalar [] word true ∧
    named.1 = ofChars word
  /-- The node yields the value. -/
  value : Yields (value? false entry.2) named.2

namespace Reads

variable {entry : Node × Node} {named : Bytes × Value}

theorem keyName? (h : Reads entry named) : Yaml.keyName? entry.1 = some named.1 := by
  obtain ⟨word, -, hkey, hname⟩ := h.key
  rw [hkey, hname]
  rfl

theorem keyText (h : Reads entry named) : ofChars (Yaml.keyText entry.1).2 = named.1 := by
  obtain ⟨word, -, hkey, hname⟩ := h.key
  rw [hkey, hname]
  rfl

/-- A word is no merge key. -/
theorem isMerge (h : Reads entry named) : Yaml.isMerge entry.1 = false := by
  obtain ⟨word, hword, hkey, -⟩ := h.key
  rw [hkey, Yaml.isMerge]
  have hne : word ≠ ['<', '<'] := by
    rintro rfl
    exact absurd (hword '<' List.mem_cons_self) (by decide)
  simp [hne]

end Reads

theorem hasDuplicate_of_nodup {keys : List (Nat × List Char)} (h : keys.Nodup) :
    hasDuplicate keys = false := by
  induction keys with
  | nil => rfl
  | cons key rest ih =>
    obtain ⟨hkey, hrest⟩ := List.nodup_cons.mp h
    simp [hasDuplicate, hkey, ih hrest]

/-- A new name comes last. -/
theorem setEntry_of_not_mem {name : Bytes} {entries : List (Bytes × Value)}
    (h : name ∉ entries.map Prod.fst) (value : Value) :
    setEntry name value entries = entries ++ [(name, value)] := by
  induction entries with
  | nil => rfl
  | cons entry rest ih =>
    rw [List.map_cons, List.mem_cons, not_or] at h
    rw [setEntry, if_neg (Ne.symm h.1), ih h.2, List.cons_append]

section Mapping

variable {entries : List (Node × Node)} {named : List (Bytes × Value)}

/-- **The entries that a map gives itself**, after those that are there. -/
theorem yields_ownEntries (h : List.Forall₂ Reads entries named) (done : List (Bytes × Value))
    (hnames : ((done ++ named).map Prod.fst).Nodup) :
    Yields (ownEntries? false entries done) (done ++ named) := by
  induction h generalizing done with
  | nil =>
    rw [List.append_nil, ownEntries?]
    exact .pure done
  | @cons entry pair entries named hentry hrest ih =>
    obtain ⟨name, value⟩ := pair
    have hnew : name ∉ done.map Prod.fst := by
      rw [List.map_append, List.nodup_append] at hnames
      intro hmem
      exact hnames.2.2 name hmem name (by simp) rfl
    have hsnoc : done ++ (name, value) :: named = done ++ [(name, value)] ++ named := by
      simp
    rw [ownEntries?, hentry.isMerge, hsnoc]
    rw [hsnoc] at hnames
    refine .bind yields_count (.bind (.lift hentry.keyName?) (.bind hentry.value ?_))
    rw [setEntry_of_not_mem hnew]
    exact ih _ hnames

/-- Where there is no merge key, nothing is merged. -/
theorem yields_mergeEntries (h : List.Forall₂ Reads entries named) (done : List (Bytes × Value)) :
    Yields (mergeEntries? false entries done) done := by
  induction h with
  | nil =>
    rw [mergeEntries?]
    exact .pure done
  | cons hentry hrest ih =>
    rw [mergeEntries?, hentry.isMerge]
    exact ih

/-- **A map yields its entries** if no name stands twice. -/
theorem yields_mapping (h : List.Forall₂ Reads entries named)
    (hnames : (named.map Prod.fst).Nodup) :
    Yields (value? false (.mapping entries)) (.map named) := by
  have hkeys : named.map Prod.fst
      = (entries.map fun entry => keyText entry.1).map fun key => ofChars key.2 := by
    induction h with
    | nil => rfl
    | cons hentry hrest ih =>
      rw [List.map_cons, ih (List.nodup_cons.mp hnames).2]
      simp [hentry.keyText]
  have hduplicate : hasDuplicate (entries.map fun entry => keyText entry.1) = false :=
    hasDuplicate_of_nodup (List.Nodup.of_map _ (hkeys ▸ hnames))
  rw [value?, hduplicate]
  exact .bind yields_count (.bind (yields_ownEntries h [] hnames)
    (.bind (yields_mergeEntries h named) (.pure _)))

end Mapping

/-! ## Lines and parts -/

namespace Line

/-- The value of a line: what a plain text stands for, and any other text itself. -/
def value (line : Line) : Value :=
  if line.style = .plain then resolve (ofChars line.text) else .text (ofChars line.text)

/-- The name and the value of a line. -/
def named (line : Line) : Bytes × Value :=
  (ofChars line.key, line.value)

theorem reads {line : Line} (hline : line.Legible) : Reads line.entry line.named where
  key := ⟨line.key, hline.key.chars, rfl, rfl⟩
  value := by
    have hscalar : scalarValue? [] line.text (line.style = .plain) = some line.value := by
      by_cases hstyle : line.style = .plain <;> simp [scalarValue?, value, hstyle]
    rw [entry, named, value?]
    exact .bind yields_count (.lift hscalar)

theorem forall₂_reads {lines : List Line} (hlines : ∀ line ∈ lines, line.Legible) :
    List.Forall₂ Reads (lines.map entry) (lines.map named) := by
  rw [List.forall₂_map_left_iff, List.forall₂_map_right_iff, List.forall₂_same]
  exact fun line hline => reads (hlines line hline)

end Line

namespace Part

/-- The names and values of a part: those of its lines, or the map of them. -/
def named : Part → List (Bytes × Value)
  | top first lines => (first :: lines).map Line.named
  | nested key first lines => [(ofChars key, .map ((first :: lines).map Line.named))]

theorem forall₂_reads {part : Part} (hpart : part.Legible)
    (hnames : ((part.lines.map Line.named).map Prod.fst).Nodup) :
    List.Forall₂ Reads part.entries part.named := by
  have hlines := Line.forall₂_reads hpart.lines
  cases part with
  | top first lines => exact hlines
  | nested key first lines =>
    refine .cons ⟨⟨key, (hpart.key key first lines rfl).chars, rfl, rfl⟩, ?_⟩ .nil
    exact yields_mapping hlines hnames

end Part

/-! ## Characters -/

/-- A character of a document in lines: it stands in a line, or ends one. -/
def isLined (c : Char) : Bool :=
  isInline c || c = '\n'

theorem normalizeBreaks_of_isLined {cs : List Char} (hcs : ∀ c ∈ cs, isLined c = true) :
    normalizeBreaks cs = cs := by
  have hne {c d : Char} (hc : isLined c = true) (hd : isLined d = false) : c ≠ d := by
    rintro rfl
    rw [hc] at hd
    cases hd
  fun_induction normalizeBreaks cs with
  | case1 => rfl
  | case2 rest ih => exact absurd rfl (hne (hcs '\r' List.mem_cons_self) (d := '\r') rfl)
  | case3 c rest hpair ih =>
    have hc := hcs c List.mem_cons_self
    rw [ih fun d hd => hcs d (List.mem_cons_of_mem c hd)]
    simp [hne hc (d := '\r') rfl, hne hc (d := '\u0085') rfl]

theorem isAllowed_of_isLined {c : Char} (h : isLined c = true) : isAllowed c = true := by
  rcases (by simpa [isLined] using h : isInline c = true ∨ c = '\n') with hc | rfl
  · exact isAllowed_of_isInline hc
  · rfl

/-- No byte order mark stands before a word. -/
theorem afterStart?_ofChars {cs : List Char} (hword : AtWord cs) {mark : UInt8}
    (hmark : 0x80 ≤ mark.toNat) (marks : Bytes) :
    Bytes.afterStart? (mark :: marks) (ofChars cs) = none := by
  cases cs with
  | nil => rfl
  | cons c rest =>
    have hc := toNat_of_isWordChar (hword c rfl)
    have hne : mark ≠ ascii c := by
      rintro rfl
      rw [ascii, UInt8.toNat_ofNat'] at hmark
      omega
    rw [ofChars, List.flatMap_cons, utf8EncodeChar_ascii (by omega), List.singleton_append,
      Bytes.afterStart?, if_neg hne]

/-- **The characters of a document** in lines, if it begins with a word. -/
theorem chars?_ofChars {cs : List Char} (hword : AtWord cs) (hcs : ∀ c ∈ cs, isLined c = true) :
    chars? (ofChars cs) = some cs := by
  have hlittle : Bytes.afterStart? ByteOrder.little.mark (ofChars cs) = none :=
    afterStart?_ofChars hword (by decide) _
  have hbig : Bytes.afterStart? ByteOrder.big.mark (ofChars cs) = none :=
    afterStart?_ofChars hword (by decide) _
  have hmark : Bytes.withoutStart utf8Mark (ofChars cs) = ofChars cs := by
    rw [Bytes.withoutStart, utf8Mark, afterStart?_ofChars hword (by decide)]
    rfl
  have hdecoded : decoded? (ofChars cs) = some cs := by
    simp [decoded?, hlittle, hbig, hmark]
  have hallowed : cs.all isAllowed = true :=
    List.all_eq_true.mpr fun c hc => isAllowed_of_isLined (hcs c hc)
  simp [chars?, hdecoded, hallowed, normalizeBreaks_of_isLined hcs]

theorem isLined_of_isInline {c : Char} (h : isInline c = true) : isLined c = true := by
  simp [isLined, h]

/-- Between quotes there are a text and the signs before its characters. -/
theorem isLined_quoted {text : List Char} (htext : ∀ c ∈ text, isInline c = true)
    (needs : Char → Bool) {sign quote : Char} (hsign : isInline sign = true)
    (hquote : isInline quote = true) :
    ∀ c ∈ quote :: guarded needs sign text ++ [quote], isLined c = true := by
  intro c hc
  apply isLined_of_isInline
  rw [List.cons_append, List.mem_cons, List.mem_append, List.mem_singleton] at hc
  rcases hc with rfl | hc | rfl
  · exact hquote
  · exact isInline_guarded htext needs hsign c hc
  · exact hquote

theorem isLined_written {style : Style} {text : List Char}
    (htext : ∀ c ∈ text, isInline c = true) : ∀ c ∈ written style text, isLined c = true := by
  cases style with
  | plain => exact fun c hc => isLined_of_isInline (htext c hc)
  | single => exact isLined_quoted htext needsQuote rfl rfl
  | double | literal => exact isLined_quoted htext needsBackslash rfl rfl

theorem Line.isLined_chars {line : Line} (hline : line.Legible) (indent : Nat) :
    ∀ c ∈ line.chars indent, isLined c = true := by
  intro c hc
  simp only [Line.chars, Line.body, List.mem_append, List.mem_replicate, List.mem_cons,
    List.not_mem_nil, or_false] at hc
  rcases hc with ⟨-, rfl⟩ | hkey | rfl | rfl | htext | rfl
  · rfl
  · exact isLined_of_isInline (isInline_of_isWordChar (hline.key.chars c hkey))
  · rfl
  · rfl
  · exact isLined_written hline.inline c htext
  · rfl

theorem Part.isLined_chars {part : Part} (hpart : part.Legible) :
    ∀ c ∈ part.chars, isLined c = true := by
  have hlines (indent : Nat) (c : Char) (hc : c ∈ part.lines.flatMap (Line.chars indent)) :
      isLined c = true := by
    obtain ⟨line, hline, hc⟩ := List.mem_flatMap.mp hc
    exact Line.isLined_chars (hpart.lines line hline) indent c hc
  intro c hc
  cases part with
  | top first lines => exact hlines 0 c hc
  | nested key first lines =>
    rw [Part.chars, List.mem_append, List.mem_cons, List.mem_cons] at hc
    rcases hc with hkey | rfl | rfl | hc
    · have hword := hpart.key key first lines rfl
      exact isLined_of_isInline (isInline_of_isWordChar (hword.chars c hkey))
    · rfl
    · rfl
    · exact hlines step c hc

/-! ## Documents -/

/-- **A document of parts is read as a map**, of the names and values of the parts. -/
theorem readMap?_parts {parts : List Part} (hparts : ∀ part ∈ parts, part.Legible)
    (hne : parts ≠ [])
    (hinner : ∀ part ∈ parts, ((part.lines.map Line.named).map Prod.fst).Nodup)
    (hnames : ((parts.flatMap Part.named).map Prod.fst).Nodup) :
    readMap? (ofChars (parts.flatMap Part.chars)) = some (parts.flatMap Part.named) := by
  have hchars : chars? (ofChars (parts.flatMap Part.chars)) = some (parts.flatMap Part.chars) := by
    refine chars?_ofChars (Scanner.atWord_parts hparts) fun c hc => ?_
    obtain ⟨part, hpart, hc⟩ := List.mem_flatMap.mp hc
    exact Part.isLined_chars (hparts part hpart) c hc
  have hreads : List.Forall₂ Reads (parts.flatMap Part.entries) (parts.flatMap Part.named) := by
    refine List.rel_flatMap (R := fun part other => part = other ∧ part ∈ parts)
      (List.forall₂_same.mpr fun part hpart => ⟨rfl, hpart⟩) ?_
    rintro part _ ⟨rfl, hpart⟩
    exact Part.forall₂_reads (hparts part hpart) (hinner part hpart)
  obtain ⟨m, hm⟩ := yields_mapping hreads hnames 0
  exact readMap?_of_document? hchars (document?_parts hparts hne) hm

end Linewise.Yaml

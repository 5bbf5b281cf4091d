import Linewise.Proofs.Maps
import Linewise.Proofs.Resolve

/-!
# Written documents are read back

What the writer makes of entries is a document of lines and parts. An entry becomes a line:
a text in the style that the writer chooses, which is never a block if the text stands in
one line, and a number in its digits. A text is written plain only if it then stands for
itself. So the line has the value of the entry, and the document those of all its entries.

## Main definitions

* `Yaml.OneLine`: a text that stands in one line
* `Yaml.Item.line`, `Yaml.Section.part?`: the line of an entry, and the part of a section
* `Yaml.Item.Legible`, `Yaml.Section.Legible`: entries and sections that can be read back

## Main results

* `Yaml.OneLine.of_styleOf_eq_plain`: a text that is written plain
* `Yaml.Item.Legible.render`, `Yaml.Item.Legible.line_named`: the text of an entry is that of its
  line, and its value too
* `Yaml.readMap?_render`: a written document is read back
-/

namespace Linewise.Yaml

/-! ## Written texts -/

/-- **A text that stands in one line.** -/
structure OneLine (text : Bytes) : Prop where
  /-- It has no stray bytes. -/
  valid : isValidUtf8 text = true
  /-- Its characters stand in a line as they are. -/
  chars : ∀ c ∈ shownChars text, isInline c = true

namespace OneLine

variable {text : Bytes}

theorem nil : OneLine [] :=
  ⟨rfl, fun _ hc => absurd hc List.not_mem_nil⟩

theorem lineFeed_not_mem (h : OneLine text) : Bytes.lineFeed ∉ text := by
  intro hmem
  rw [← ofChars_shownChars h.valid] at hmem
  obtain ⟨c, hc, hbyte⟩ := List.mem_flatMap.mp hmem
  have hcode := toNat_eq_of_mem_utf8EncodeChar hbyte (by decide)
  obtain rfl : c = '\n' := Char.toNat_inj.mp hcode
  exact absurd (h.chars '\n' hc) (by decide)

/-- A text in one line is written plain where it may be, and else between quotes. -/
theorem styleOf_eq (h : OneLine text) :
    styleOf text
      = if readsAsText text then allowedStyle (Traits.of (shownChars text)) .plain else .double := by
  have hfeed : text.contains Bytes.lineFeed = false := by
    rw [← Bool.not_eq_true, List.contains_iff_mem]
    exact h.lineFeed_not_mem
  rw [styleOf, hfeed]
  rfl

theorem styleOf_ne_literal (h : OneLine text) : styleOf text ≠ .literal := by
  rw [h.styleOf_eq, allowedStyle]
  split_ifs <;> nofun

/-- **A text that is written plain** stands for itself and can stand plain. -/
theorem of_styleOf_eq_plain (h : OneLine text) (hstyle : styleOf text = .plain) :
    resolve text = .text text ∧ Bare (shownChars text) := by
  rw [h.styleOf_eq, allowedStyle] at hstyle
  split_ifs at hstyle with hreads hallowed
  have hkind : (resolve text).kind = .text := by
    simp only [readsAsText, Bool.and_eq_true, decide_eq_true_eq] at hreads
    exact hreads.1.1
  have hne : shownChars text ≠ [] := by
    intro hnil
    have hempty : text = [] := by
      rw [← ofChars_shownChars h.valid, hnil]
      rfl
    rw [hempty] at hkind
    cases hkind
  exact ⟨resolve_eq_text hkind, bare_of_plainAllowed hne hallowed⟩

end OneLine

/-! ## Written entries -/

namespace Item

/-- The key of an entry. -/
def key : Item → Bytes
  | text key _ => key
  | int key _ => key

/-- The value of an entry. -/
def value : Item → Value
  | text _ value => .text value
  | int _ value => .int value

/-- The name and the value of an entry. -/
def named (item : Item) : Bytes × Value :=
  (item.key, item.value)

/-- The line of an entry. -/
def line : Item → Line
  | text key value => ⟨shownChars key, styleOf value, shownChars value⟩
  | int key value => ⟨shownChars key, .plain, Nat.toDigits 10 value.toNat⟩

/-- The value stands in one line: a text that does, or a number of 64 bits without sign. -/
def IsInline : Item → Prop
  | text _ value => OneLine value
  | int _ value => 0 ≤ value ∧ value < Integer.signedBound

/-- **An entry that can be read back.** -/
structure Legible (item : Item) : Prop where
  /-- The key is a word. -/
  key : ∃ word, IsWord word ∧ item.key = ofChars word
  /-- The value stands in one line. -/
  value : item.IsInline

end Item

namespace Item

variable {item : Item}

theorem ofChars_digits (n : Nat) : ofChars (Nat.toDigits 10 n) = Bytes.ofNat n :=
  ofChars_ascii fun c hc => by
    have := toNat_of_mem_toDigits hc
    omega

theorem line_key (item : Item) : item.line.key = shownChars item.key := by
  cases item <;> rfl

theorem Legible.ofChars_key (h : item.Legible) : ofChars item.line.key = item.key := by
  obtain ⟨word, -, hkey⟩ := h.key
  rw [line_key, hkey, shownChars_ofChars]

theorem Legible.line (h : item.Legible) : item.line.Legible where
  key := by
    obtain ⟨word, hword, hkey⟩ := h.key
    rw [line_key, hkey, shownChars_ofChars]
    exact hword
  style := by
    cases item with
    | text key value => exact OneLine.styleOf_ne_literal h.value
    | int key value => nofun
  inline := by
    cases item with
    | text key value => exact OneLine.chars h.value
    | int key value =>
      intro c hc
      have hcode := toNat_of_mem_toDigits hc
      exact isInline_of_toNat (by omega)
  bare := by
    cases item with
    | text key value => exact fun hstyle => (OneLine.of_styleOf_eq_plain h.value hstyle).2
    | int key value => exact fun _ => bare_toDigits _

/-- **The line of an entry has its name and its value.** -/
theorem Legible.line_named (h : item.Legible) : item.line.named = item.named := by
  have hvalue : item.line.value = item.value := by
    cases item with
    | text key value =>
      have hline : OneLine value := h.value
      simp only [Line.value, Item.line, Item.value, ofChars_shownChars hline.valid]
      split_ifs with hstyle
      · exact (hline.of_styleOf_eq_plain hstyle).1
      · rfl
    | int key value =>
      obtain ⟨hpos, hbound⟩ := h.value
      obtain ⟨n, rfl⟩ := Int.eq_ofNat_of_zero_le hpos
      simp only [Line.value, Item.line, Item.value, Int.toNat_natCast, if_pos, ofChars_digits]
      exact resolve_ofNat (Int.ofNat_lt.mp hbound)
  rw [Line.named, named, h.ofChars_key, hvalue]

/-- **The text of an entry** is its line. -/
theorem Legible.render (h : item.Legible) (indent : Nat) :
    item.render indent = ofChars (item.line.chars indent) := by
  have hspaces : ofChars (List.replicate indent ' ') = Bytes.spaces indent := by
    rw [ofChars_ascii (fun c hc => by rw [(List.mem_replicate.mp hc).2]; decide),
      List.map_replicate]
    rfl
  have hcolon (cs : List Char) : ofChars (':' :: ' ' :: cs) = utf8 ": " ++ ofChars cs := rfl
  rw [Line.chars, Line.body, ofChars_append, hspaces, ofChars_append, h.ofChars_key, hcolon]
  cases item with
  | text key value =>
    have hline : OneLine value := h.value
    rw [Item.render, scalarText, if_pos hline.valid,
      styled_eq_ofChars hline.chars _ hline.styleOf_ne_literal]
    simp [Item.key, Item.line]
  | int key value =>
    obtain ⟨n, rfl⟩ := Int.eq_ofNat_of_zero_le h.value.1
    have hdecimal : Bytes.decimal n = ofChars (Nat.toDigits 10 n) := (ofChars_digits n).symm
    have hfeed : ofChars ['\n'] = [Bytes.lineFeed] := rfl
    simp [Item.render, Item.key, Item.line, written, hdecimal, hfeed]

end Item

/-! ## Written documents -/

namespace Section

/-- The entries of a section. -/
def items : Section → List Item
  | nested _ items => items
  | top items => items

/-- The names and values of a section; one without entries has none. -/
def named : Section → List (Bytes × Value)
  | nested key items => if items.isEmpty then [] else [(key, .map (items.map Item.named))]
  | top items => items.map Item.named

/-- The part of a section; one without entries has none. -/
def part? : Section → Option Part
  | nested key (first :: items) => some (.nested (shownChars key) first.line (items.map Item.line))
  | top (first :: items) => some (.top first.line (items.map Item.line))
  | nested _ [] | top [] => none

/-- **A section that can be read back.** -/
structure Legible (sect : Section) : Prop where
  /-- Its entries can. -/
  items : ∀ item ∈ sect.items, item.Legible
  /-- No name stands twice in it. -/
  nodup : (sect.items.map Item.key).Nodup
  /-- Its key is a word. -/
  key : ∀ key items, sect = nested key items → ∃ word, IsWord word ∧ key = ofChars word

variable {sect : Section}

theorem Legible.items_lines (h : sect.Legible) :
    (sect.items.map Item.line).map Line.named = sect.items.map Item.named := by
  rw [List.map_map]
  exact List.map_congr_left fun item hitem => (h.items item hitem).line_named

theorem Legible.items_render (h : sect.Legible) (indent : Nat) :
    sect.items.flatMap (Item.render indent)
      = ofChars ((sect.items.map Item.line).flatMap (Line.chars indent)) := by
  rw [List.flatMap_map, ofChars, List.flatMap_assoc]
  exact List.flatMap_congr fun item hitem => (h.items item hitem).render indent

/-- **The text of a section** is that of its part. -/
theorem Legible.render (h : sect.Legible) :
    sect.render = ofChars (sect.part?.toList.flatMap Part.chars) := by
  match sect, h with
  | nested key [], h => rfl
  | top [], h => rfl
  | top (first :: items), h =>
    rw [part?, Option.toList_some, List.flatMap_singleton]
    exact h.items_render 0
  | nested key (first :: items), h =>
    obtain ⟨word, -, rfl⟩ := h.key key (first :: items) rfl
    have hcolon (cs : List Char) : ofChars (':' :: '\n' :: cs) = utf8 ":\n" ++ ofChars cs := rfl
    have hitems := h.items_render step
    rw [Section.items, List.map_cons] at hitems
    rw [part?, Option.toList_some, List.flatMap_singleton, Part.chars, shownChars_ofChars,
      ofChars_append, hcolon, ← hitems, Section.render, List.isEmpty_cons, List.append_assoc]
    rfl

/-- The part of a section has its names and values. -/
theorem Legible.part_named (h : sect.Legible) :
    sect.part?.toList.flatMap Part.named = sect.named := by
  have hitems := h.items_lines
  match sect, h with
  | nested key [], h => rfl
  | top [], h => rfl
  | top (first :: items), h =>
    rw [part?, Option.toList_some, List.flatMap_singleton]
    exact hitems
  | nested key (first :: items), h =>
    obtain ⟨word, -, rfl⟩ := h.key key (first :: items) rfl
    rw [part?, Option.toList_some, List.flatMap_singleton, Part.named, shownChars_ofChars, named,
      List.isEmpty_cons]
    exact congrArg (fun inside => [(ofChars word, Value.map inside)]) hitems

theorem lines_of_mem_part? {part : Part} (hpart : part ∈ sect.part?) :
    part.lines = sect.items.map Item.line := by
  match sect, hpart with
  | top (first :: items), hpart =>
    obtain rfl := Option.some.inj hpart
    rfl
  | nested key (first :: items), hpart =>
    obtain rfl := Option.some.inj hpart
    rfl

/-- The part of a section can be read back. -/
theorem Legible.part (h : sect.Legible) {part : Part} (hpart : part ∈ sect.part?) :
    part.Legible ∧ ((part.lines.map Line.named).map Prod.fst).Nodup := by
  have hlines := lines_of_mem_part? hpart
  refine ⟨⟨?_, ?_⟩, ?_⟩
  · rw [hlines]
    intro line hline
    obtain ⟨item, hitem, rfl⟩ := List.mem_map.mp hline
    exact (h.items item hitem).line
  · rintro key first lines rfl
    match sect, hpart, h with
    | top (item :: items), hpart, h => cases hpart
    | nested name (item :: items), hpart, h =>
      obtain ⟨word, hword, rfl⟩ := h.key name (item :: items) rfl
      obtain ⟨rfl, -, -⟩ := Part.nested.inj (Option.some.inj hpart)
      rw [shownChars_ofChars]
      exact hword
  · rw [hlines, h.items_lines, List.map_map]
    exact h.nodup

end Section

theorem Part.colon_mem_chars (part : Part) : ':' ∈ part.chars := by
  cases part <;> simp [chars, Line.chars, Line.body]

/-- **A written document is read back**, if it has any entries and all of them can be. -/
theorem readMap?_render {sections : List Section} (h : ∀ sect ∈ sections, sect.Legible)
    (hnames : ((sections.flatMap Section.named).map Prod.fst).Nodup)
    (hne : sections.flatMap Section.named ≠ []) :
    readMap? (render sections) = some (sections.flatMap Section.named) := by
  let parts := sections.flatMap fun sect => sect.part?.toList
  have hparts {part : Part} (hpart : part ∈ parts) :
      part.Legible ∧ ((part.lines.map Line.named).map Prod.fst).Nodup := by
    obtain ⟨sect, hsect, hpart⟩ := List.mem_flatMap.mp hpart
    exact (h sect hsect).part (Option.mem_toList.mp hpart)
  have hnamed : parts.flatMap Part.named = sections.flatMap Section.named := by
    rw [List.flatMap_assoc]
    exact List.flatMap_congr fun sect hsect => (h sect hsect).part_named
  have hchars : sections.flatMap Section.render = ofChars (parts.flatMap Part.chars) := by
    rw [List.flatMap_assoc, ofChars, List.flatMap_assoc]
    exact List.flatMap_congr fun sect hsect => (h sect hsect).render
  obtain ⟨part, rest, hcons⟩ : ∃ part rest, parts = part :: rest := by
    refine List.exists_cons_of_ne_nil ?_
    rintro hnil
    rw [← hnamed, hnil] at hne
    exact hne rfl
  have htext : (sections.flatMap Section.render).isEmpty = false := by
    rw [hchars, List.isEmpty_eq_false_iff_exists_mem]
    exact ⟨ascii ':', List.mem_flatMap.mpr ⟨':', by simp [hcons, part.colon_mem_chars], by decide⟩⟩
  rw [render, htext, hchars, ← hnamed]
  refine readMap?_parts (fun part hpart => (hparts hpart).1) (by rw [hcons]; apply List.cons_ne_nil)
    (fun part hpart => (hparts hpart).2) ?_
  rw [hnamed]
  exact hnames

end Linewise.Yaml

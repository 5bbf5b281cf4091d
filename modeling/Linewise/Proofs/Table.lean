import Linewise.Table
import Linewise.Proofs.Registry
import Linewise.Proofs.Runes

/-!
# Tables in columns

A rectangular table of plain texts comes out in columns. Its text is scanned into just the
cells it was put together from; no row separates others, so all of them are one group; and
from wherever in the group the width of a column is taken, above and below together are all
the rows, so it is the same in every line. The table of transformations is such a table, with
three columns.

## Main definitions

* `Table.Plain text`: valid UTF-8 without a byte that ends a cell or a row
* `Table.span column table`: the width of a column, gap included
* `Table.padded`, `Table.filled`: a cell, and the cells of a row, filled with spaces
* `Table.Entry`, `Table.Entry.line`: an entry of the table of transformations and its line
* `Table.nameWidth infos`: the width of its first column

## Main results

* `Table.rows_rowTexts`: the rows that are scanned
* `Table.columnWidth_eq`: a column has one width
* `Table.align_rowTexts`: a rectangular table, aligned
* `Table.Entry.Fits.marked_iff`, `Table.countP_marked`: where the default is marked
* `transformsTable_aligned`: the table of transformations
-/

namespace Linewise

namespace Table

/-! ## Scanning -/

/-- **A text that can stand in a cell**: valid UTF-8 in which no byte ends a cell or a row. -/
structure Plain (text : Bytes) : Prop where
  valid : isValidUtf8 text = true
  noTab : 0x09 ∉ text
  noLineFeed : Bytes.lineFeed ∉ text
  noVerticalTab : 0x0B ∉ text
  noFormFeed : 0x0C ∉ text

/-- A protected stretch cannot begin: its marker is no part of UTF-8. -/
theorem Plain.ne_marker {text : Bytes} (h : Plain text) {b : UInt8} (hb : b ∈ text) :
    b ≠ marker := by
  rintro rfl
  rw [← ofChars_shownChars h.valid] at hb
  obtain ⟨c, -, hc⟩ := List.mem_flatMap.mp hb
  exact absurd (toNat_lt_of_mem_utf8EncodeChar hc).1 (by decide)

/-- A string without control characters is plain. -/
theorem plain_utf8 {s : String} (h : (utf8 s).all (0x20 ≤ ·) = true) : Plain (utf8 s) := by
  have hnot : ∀ b : UInt8, ¬ 0x20 ≤ b → b ∉ utf8 s := fun b hb hmem =>
    hb (by simpa using List.all_eq_true.mp h b hmem)
  exact ⟨isValidUtf8_ofChars s.toList, hnot _ (by decide), hnot _ (by decide), hnot _ (by decide),
    hnot _ (by decide)⟩

/-- The cell of a text. -/
def Cell.of (text : Bytes) : Cell :=
  ⟨text, (runes text).length⟩

/-- The row of the texts in its cells. -/
def Row.of (cells : List Bytes) : Row :=
  ⟨cells.map Cell.of, true, false⟩

/-- What stands after the last row: nothing. -/
def Row.rest : Row :=
  ⟨[], false, false⟩

namespace Scan

/-- A plain text is taken into the cell. -/
theorem foldl_plain {text : Bytes} (h : Plain text) (done : List Row) (cells : List Cell)
    (cell : Bytes) :
    text.foldl step { rows := done, cells := cells, cell := cell }
      = { rows := done, cells := cells, cell := text.reverse ++ cell } := by
  have hstep : ∀ b ∈ text, ∀ cell, step { rows := done, cells := cells, cell := cell } b
      = { rows := done, cells := cells, cell := b :: cell } := by
    intro b hb cell
    have htab : b ≠ 0x09 := ne_of_mem_of_not_mem hb h.noTab
    have hline : b ≠ 0x0A := ne_of_mem_of_not_mem hb h.noLineFeed
    have hvertical : b ≠ 0x0B := ne_of_mem_of_not_mem hb h.noVerticalTab
    have hform : b ≠ 0x0C := ne_of_mem_of_not_mem hb h.noFormFeed
    simp [step, htab, hline, hvertical, hform, h.ne_marker hb]
  clear h
  induction text generalizing cell with
  | nil => rfl
  | cons b text ih =>
    rw [List.forall_mem_cons] at hstep
    rw [List.foldl_cons, hstep.1, ih (b :: cell) hstep.2]
    simp

/-- A text that ends with its cell. -/
theorem foldl_cell {text : Bytes} (h : Plain text) (done : List Row) (cells : List Cell) :
    (text ++ utf8 "\t").foldl step { rows := done, cells := cells }
      = { rows := done, cells := Cell.of text :: cells } := by
  have htab : utf8 "\t" = [0x09] := by decide
  rw [htab, List.foldl_append, foldl_plain h]
  simp [step, endCell, current, Cell.of]

/-- **The text of a row** is taken as a row of its cells. -/
theorem foldl_rowText {cells : List Bytes} (hne : cells ≠ []) (h : ∀ text ∈ cells, Plain text)
    (done : List Row) :
    (rowText cells).foldl step { rows := done } = { rows := Row.of cells :: done } := by
  suffices hall : ∀ before : List Cell,
      (rowText cells).foldl step { rows := done, cells := before }
        = { rows := ⟨before.reverse ++ cells.map Cell.of, true, false⟩ :: done } from hall []
  induction cells with
  | nil => exact absurd rfl hne
  | cons text cells ih =>
    intro before
    obtain ⟨htext, hcells⟩ := List.forall_mem_cons.mp h
    rcases cells with _ | ⟨next, cells⟩
    · rw [rowText, Bytes.join, List.intercalate_singleton, List.foldl_append, foldl_plain htext]
      simp [step, endRow, current, Bytes.lineFeed, Cell.of]
    · have hsplit : rowText (text :: next :: cells)
          = (text ++ utf8 "\t") ++ rowText (next :: cells) := by
        simp [rowText, Bytes.join, List.intercalate_cons_cons]
      rw [hsplit, List.foldl_append, foldl_cell htext, ih (by simp) hcells]
      simp

end Scan

section Rectangle

variable {table : List (List Bytes)} {k : Nat}

/-- **The rows that are scanned** are those the text was put together from, and an empty rest. -/
theorem rows_rowTexts (hne : ∀ cells ∈ table, cells ≠ [])
    (h : ∀ cells ∈ table, ∀ text ∈ cells, Plain text) :
    rows (table.flatMap rowText) = table.map Row.of ++ [Row.rest] := by
  suffices hall : ∀ done : List Row, (table.flatMap rowText).foldl Scan.step { rows := done }
      = { rows := (table.map Row.of).reverse ++ done } by
    rw [rows, hall]
    simp [Scan.finish, Row.rest]
  induction table with
  | nil => simp
  | cons cells table ih =>
    intro done
    rw [List.forall_mem_cons] at hne h
    rw [List.flatMap_cons, List.foldl_append, Scan.foldl_rowText hne.1 h.1, ih hne.2 h.2]
    simp

/-- Rows of which none separates others are one group. -/
theorem groups_of_not_closes {rows : List Row} (hne : rows ≠ [])
    (h : ∀ row ∈ rows, row.closes = false) : groups rows = [rows] := by
  induction rows with
  | nil => exact absurd rfl hne
  | cons row rest ih =>
    obtain ⟨hrow, hrest⟩ := List.forall_mem_cons.mp h
    rw [groups, if_neg (by simp [hrow])]
    rcases rest with _ | ⟨next, rest⟩
    · rfl
    · rw [ih (by simp) hrest]

/-! ## Widths -/

/-- What a row asks of a column: the characters of its cell, and the gap. -/
def ask (column : Nat) (cells : List Bytes) : Nat :=
  (runes (cells.getD column [])).length + 3

/-- **The width of a column**: the most that a row asks of it. -/
def span (column : Nat) (table : List (List Bytes)) : Nat :=
  (table.map (ask column)).foldr max 0

theorem span_le_iff {column : Nat} {m : Int} :
    (span column table : Int) ≤ m ↔ 0 ≤ m ∧ ∀ cells ∈ table, (ask column cells : Int) ≤ m := by
  induction table with
  | nil => simp [span]
  | cons cells table ih =>
    have hcons : span column (cells :: table) = max (ask column cells) (span column table) := rfl
    rw [hcons, Nat.cast_max, max_le_iff, ih, List.forall_mem_cons]
    tauto

/-- A row reaches every column but its last. -/
theorem reach?_of {column : Nat} {cells : List Bytes} (h : column + 1 < cells.length) :
    (Row.of cells).reach? column = some ((runes (cells.getD column [])).length : Int) := by
  have hlt : column < cells.length := by omega
  simp [Row.reach?, Row.of, h, hlt, Cell.of]

/-- The widest cell of some rows that reach a column, and of those behind them. -/
theorem widest_le_iff {column : Nat} (h : ∀ cells ∈ table, column + 1 < cells.length)
    (rest : List Row) {m : Int} :
    widest column (table.map Row.of ++ rest) ≤ m ↔
      (∀ cells ∈ table, (ask column cells : Int) ≤ m) ∧ widest column rest ≤ m := by
  induction table with
  | nil => simp
  | cons cells table ih =>
    rw [List.forall_mem_cons] at h
    rw [List.map_cons, List.cons_append, widest, reach?_of h.1, List.forall_mem_cons, and_assoc,
      ← ih h.2, ← max_le_iff]
    rfl

/-- **A column has one width**, from whichever row it is taken. -/
theorem columnWidth_eq {column : Nat} {above below : List (List Bytes)}
    (h : ∀ cells ∈ above ++ below, column + 1 < cells.length) :
    columnWidth column (above.map Row.of).reverse (below.map Row.of ++ [Row.rest])
      = span column (above ++ below) := by
  have habove : ∀ cells ∈ above.reverse, column + 1 < cells.length := fun cells hcells =>
    h cells (List.mem_append_left _ (List.mem_reverse.mp hcells))
  have hbelow : ∀ cells ∈ below, column + 1 < cells.length := fun cells hcells =>
    h cells (List.mem_append_right _ hcells)
  apply eq_of_forall_ge_iff
  intro m
  rw [columnWidth, max_le_iff, ← List.map_reverse, ← List.append_nil (above.reverse.map Row.of),
    widest_le_iff habove, widest_le_iff hbelow, span_le_iff, List.forall_mem_append]
  simp only [widest, Row.rest, Row.reach?, List.length_nil, Nat.not_lt_zero, if_false,
    List.mem_reverse]
  tauto

/-! ## Lines -/

/-- A text filled with spaces to a number of characters. -/
def padded (width : Nat) (text : Bytes) : Bytes :=
  text ++ Bytes.spaces (width - (runes text).length)

/-- **The cells of a row from a column on**, all but the last filled to the widths of their
columns. -/
def filled (width : Nat → Nat) : (column : Nat) → List Bytes → Bytes
  | _, [] => []
  | _, [cell] => cell
  | column, cell :: rest => padded (width column) cell ++ filled width (column + 1) rest

theorem fill_of (text : Bytes) (width : Nat) : fill (Cell.of text) width = padded width text := by
  rw [fill, Cell.of, padded, Int.toNat_sub]

/-- The text of a row is given by the widths of its columns. -/
theorem cellTexts_of {above below : List Row} {width : Nat → Nat} {column : Nat}
    {cells : List Bytes} (h : ∀ j, column ≤ j → j + 1 < column + cells.length →
      columnWidth j above below = width j) :
    cellTexts above below column (cells.map Cell.of) = filled width column cells := by
  fun_induction filled width column cells with
  | case1 => rfl
  | case2 column cell => rfl
  | case3 column cell rest hrest ih =>
    obtain ⟨next, rest, rfl⟩ := List.exists_cons_of_ne_nil hrest
    rw [List.map_cons, List.map_cons, cellTexts, h column le_rfl (by simp), fill_of,
      ← List.map_cons, ih]
    · intro j hj hlt
      exact h j (by omega) (by simp at hlt ⊢; omega)
    · simp

variable (hlength : ∀ cells ∈ table, cells.length = k)
include hlength

/-- **The lines of a group**, from any row on. -/
theorem groupText_of (above below : List (List Bytes)) (h : above ++ below = table) :
    groupText (above.map Row.of).reverse (below.map Row.of ++ [Row.rest])
      = below.flatMap fun cells =>
          filled (fun column => span column table) 0 cells ++ [Bytes.lineFeed] := by
  induction below generalizing above with
  | nil => rfl
  | cons cells below ih =>
    have hwidth : ∀ j, 0 ≤ j → j + 1 < 0 + cells.length →
        columnWidth j (above.map Row.of).reverse ((cells :: below).map Row.of ++ [Row.rest])
          = span j table := by
      intro j _ hj
      rw [columnWidth_eq, h]
      intro other hother
      have hcells := hlength cells (h ▸ by simp)
      have hother := hlength other (h ▸ hother)
      omega
    have hrest := ih (above ++ [cells]) (by simp [h])
    rw [List.map_append, List.reverse_append] at hrest
    rw [List.flatMap_cons, ← hrest, ← cellTexts_of hwidth]
    rfl

/-- **A rectangular table, aligned.** -/
theorem align_rowTexts (hk : 2 ≤ k) (h : ∀ cells ∈ table, ∀ text ∈ cells, Plain text) :
    align (table.flatMap rowText)
      = table.flatMap fun cells =>
          filled (fun column => span column table) 0 cells ++ [Bytes.lineFeed] := by
  have hne : ∀ cells ∈ table, cells ≠ [] := by
    rintro cells hcells rfl
    have := hlength [] hcells
    simp at this
    omega
  have hcloses : ∀ row ∈ table.map Row.of ++ [Row.rest], row.closes = false := by
    intro row hrow
    rcases List.mem_append.mp hrow with hrow | hrow
    · obtain ⟨cells, hcells, rfl⟩ := List.mem_map.mp hrow
      have := hlength cells hcells
      simp [Row.closes, Row.of]
      omega
    · obtain rfl := List.mem_singleton.mp hrow
      rfl
  rw [align, rows_rowTexts hne h, groups_of_not_closes (by simp) hcloses, List.flatMap_singleton]
  exact groupText_of hlength [] table rfl

end Rectangle

/-! ## Characters of a line -/

theorem ofChars_spaces (n : Nat) : ofChars (List.replicate n ' ') = Bytes.spaces n := by
  have hascii : ∀ c ∈ List.replicate n ' ', c.toNat < 0x80 := by
    intro c hc
    rw [List.eq_of_mem_replicate hc]
    decide
  rw [ofChars_ascii hascii, List.map_replicate]
  rfl

theorem length_shownChars (text : Bytes) : (shownChars text).length = (runes text).length :=
  List.length_map _

/-- The characters of a padded text. -/
theorem padded_eq {text : Bytes} (h : Plain text) (width : Nat) :
    padded width text = ofChars ((shownChars text).rightpad width ' ') := by
  rw [padded, List.rightpad, ofChars_append, ofChars_spaces, ofChars_shownChars h.valid,
    length_shownChars]

/-- **Padding is exact** if there is room. -/
theorem length_runes_padded {text : Bytes} (h : Plain text) {width : Nat}
    (hwidth : (runes text).length ≤ width) : (runes (padded width text)).length = width := by
  rw [padded_eq h, runes_ofChars, List.length_map, List.rightpad, List.length_append,
    List.length_replicate, length_shownChars]
  omega

theorem lineFeed_not_mem_padded {text : Bytes} (h : Plain text) (width : Nat) :
    Bytes.lineFeed ∉ padded width text := by
  rw [padded, List.mem_append, not_or]
  constructor
  · intro hmem
    exact h.noLineFeed hmem
  · intro hmem
    exact absurd (List.eq_of_mem_replicate hmem) (by decide)

/-! ## The table of transformations -/

/-- **An entry of a table of transformations**: what stands in its three columns. -/
structure Entry where
  /-- The name. -/
  name : Bytes
  /-- What marks the default. -/
  mark : Bytes
  /-- The description. -/
  description : Bytes

namespace Entry

/-- The cells of the row. -/
def cells (entry : Entry) : List Bytes :=
  [entry.name, entry.mark, entry.description]

/-- **The line of an entry**: name and mark, each padded, and the description. -/
def line (width : Nat) (entry : Entry) : Bytes :=
  padded width entry.name ++ padded 10 entry.mark ++ entry.description

/-- Is there an asterisk where the mark of a line begins? -/
def Marked (width : Nat) (entry : Entry) : Prop :=
  (shownChars (entry.line width))[width]? = some '*'

instance (width : Nat) (entry : Entry) : Decidable (entry.Marked width) :=
  inferInstanceAs (Decidable (_ = _))

/-- The head of the table. -/
def head : Entry :=
  ⟨utf8 "NAME", utf8 "DEFAULT", utf8 "DESCRIPTION"⟩

/-- The entry of a transformation: an asterisk marks the default. -/
def of (defaultName : Bytes) (info : Registry.Info) : Entry :=
  ⟨info.name, if info.name = defaultName then utf8 "*" else [], info.description⟩

/-- **Plain texts that leave a gap**, the name in a given width and the mark in ten characters. -/
structure Fits (width : Nat) (entry : Entry) : Prop where
  name : Plain entry.name
  mark : Plain entry.mark
  description : Plain entry.description
  nameRoom : (runes entry.name).length + 3 ≤ width
  markRoom : (runes entry.mark).length + 3 ≤ 10

variable {width : Nat} {entry : Entry}

theorem Fits.lineFeed_not_mem (h : entry.Fits width) : Bytes.lineFeed ∉ entry.line width := by
  rw [line, List.mem_append, List.mem_append, not_or, not_or]
  exact ⟨⟨lineFeed_not_mem_padded h.name _, lineFeed_not_mem_padded h.mark _⟩,
    h.description.noLineFeed⟩

/-- Both columns are filled exactly. -/
theorem Fits.length_runes_padded (h : entry.Fits width) :
    (runes (padded width entry.name)).length = width ∧
      (runes (padded 10 entry.mark)).length = 10 := by
  constructor
  · exact Table.length_runes_padded h.name (le_trans (Nat.le_add_right _ 3) h.nameRoom)
  · exact Table.length_runes_padded h.mark (le_trans (Nat.le_add_right _ 3) h.markRoom)

/-- **A line shows its mark**: an asterisk if the mark begins with one. -/
theorem Fits.marked_iff (h : entry.Fits width) :
    entry.Marked width ↔ (shownChars entry.mark).head? = some '*' := by
  have hwidth : ((shownChars entry.name).rightpad width ' ').length = width := by
    have := h.nameRoom
    rw [List.rightpad, List.length_append, List.length_replicate, length_shownChars]
    omega
  have hline : entry.line width = ofChars ((shownChars entry.name).rightpad width ' '
      ++ ((shownChars entry.mark).rightpad 10 ' ' ++ shownChars entry.description)) := by
    rw [ofChars_append, ofChars_append, ofChars_shownChars h.description.valid, ← padded_eq h.name,
      ← padded_eq h.mark, ← List.append_assoc]
    rfl
  rw [Marked, hline, shownChars_ofChars, List.getElem?_append_right hwidth.le, hwidth,
    Nat.sub_self]
  cases shownChars entry.mark with
  | nil => simp [List.rightpad]
  | cons c cs => simp [List.rightpad]

end Entry

/-- The number of characters in the longest name. -/
def longestName (infos : List Registry.Info) : Nat :=
  (infos.map fun info => (runes info.name).length).foldr max 0

/-- **The width of the first column**: room for the longest name, and for the head of the column,
and a gap. -/
def nameWidth (infos : List Registry.Info) : Nat :=
  max 4 (longestName infos) + 3

/-- **The entries of the table**, the head first. -/
def entries (infos : List Registry.Info) (defaultName : Bytes) : List Entry :=
  .head :: infos.map (.of defaultName)

section Infos

variable {infos : List Registry.Info} {defaultName : Bytes}

/-- The table of transformations is one of cells. -/
theorem transformsTable_eq_align :
    transformsTable infos defaultName
      = align (((entries infos defaultName).map Entry.cells).flatMap rowText) := by
  rw [entries, List.map_cons, List.flatMap_cons, List.map_map, List.flatMap_map]
  rfl

/-- The names ask for the width of the first column. -/
theorem span_name : span 0 ((entries infos defaultName).map Entry.cells) = nameWidth infos := by
  have hhead : ask 0 Entry.head.cells = 7 := by decide
  have hcons : ∀ cells table, span 0 (cells :: table) = max (ask 0 cells) (span 0 table) :=
    fun _ _ => rfl
  rw [entries, List.map_cons, hcons, hhead, nameWidth]
  induction infos with
  | nil => rfl
  | cons info infos ih =>
    have hask : ask 0 (Entry.of defaultName info).cells = (runes info.name).length + 3 := rfl
    have hlongest : longestName (info :: infos)
        = max (runes info.name).length (longestName infos) := rfl
    rw [List.map_cons, List.map_cons, hcons, hask, hlongest]
    omega

section Fits

variable (h : ∀ info ∈ infos, Plain info.name ∧ Plain info.description)
include h

/-- **Every entry fits.** -/
theorem fits_of_mem : ∀ entry ∈ entries infos defaultName, entry.Fits (nameWidth infos) := by
  rw [entries, List.forall_mem_cons, List.forall_mem_map]
  constructor
  · have hfour : (runes Entry.head.name).length = 4 := by decide
    refine ⟨plain_utf8 (by decide), plain_utf8 (by decide), plain_utf8 (by decide), ?_, by decide⟩
    rw [hfour, nameWidth]
    omega
  · intro info hinfo
    have hle : (runes info.name).length ≤ longestName infos :=
      List.le_max_of_le (List.mem_map_of_mem hinfo) le_rfl
    have hmark : Plain (Entry.of defaultName info).mark ∧
        (runes (Entry.of defaultName info).mark).length + 3 ≤ 10 := by
      dsimp only [Entry.of]
      split_ifs
      · exact ⟨plain_utf8 (by decide), by decide⟩
      · exact ⟨plain_utf8 (s := "") (by decide), by decide⟩
    refine ⟨(h info hinfo).1, hmark.1, (h info hinfo).2, ?_, hmark.2⟩
    rw [nameWidth]
    exact Nat.add_le_add_right (hle.trans (le_max_right 4 _)) 3

/-- The head of the marks asks for more than they do. -/
theorem span_mark : span 1 ((entries infos defaultName).map Entry.cells) = 10 := by
  apply le_antisymm
  · have hle : (span 1 ((entries infos defaultName).map Entry.cells) : Int) ≤ 10 := by
      rw [span_le_iff, List.forall_mem_map]
      refine ⟨by decide, fun entry hentry => ?_⟩
      exact_mod_cast (fits_of_mem h entry hentry).markRoom
    exact_mod_cast hle
  · have hhead : ask 1 Entry.head.cells = 10 := by decide
    exact hhead ▸ le_max_left _ _

/-- **The table is aligned** line by line. -/
theorem transformsTable_eq :
    transformsTable infos defaultName
      = (entries infos defaultName).flatMap fun entry =>
          entry.line (nameWidth infos) ++ [Bytes.lineFeed] := by
  have hlength : ∀ cells ∈ (entries infos defaultName).map Entry.cells, cells.length = 3 := by
    rw [List.forall_mem_map]
    exact fun entry _ => rfl
  have hplain : ∀ cells ∈ (entries infos defaultName).map Entry.cells, ∀ text ∈ cells,
      Plain text := by
    rw [List.forall_mem_map]
    intro entry hentry
    have hfits := fits_of_mem h entry hentry
    rw [Entry.cells, List.forall_mem_cons, List.forall_mem_cons, List.forall_mem_singleton]
    exact ⟨hfits.name, hfits.mark, hfits.description⟩
  rw [transformsTable_eq_align, align_rowTexts hlength (by decide) hplain, List.flatMap_map]
  apply List.flatMap_congr
  intro entry _
  simp only [Entry.cells, filled, zero_add, span_name, span_mark h, Entry.line, List.append_assoc]

/-- The head is not marked, and a transformation just if it is the default. -/
theorem countP_marked :
    (entries infos defaultName).countP (Entry.Marked (nameWidth infos) ·)
      = infos.countP (·.name = defaultName) := by
  have hfits : ∀ entry ∈ entries infos defaultName, _ := fits_of_mem h
  rw [entries, List.forall_mem_cons, List.forall_mem_map] at hfits
  obtain ⟨hhead, hinfos⟩ := hfits
  have hunmarked : ¬ Entry.head.Marked (nameWidth infos) := by
    rw [hhead.marked_iff]
    decide
  rw [entries, List.countP_cons_of_neg (by simpa using hunmarked), List.countP_map]
  apply List.countP_congr
  intro info hinfo
  have hmarked : (Entry.of defaultName info).Marked (nameWidth infos) ↔
      info.name = defaultName := by
    rw [(hinfos info hinfo).marked_iff]
    dsimp only [Entry.of]
    split_ifs with hname
    · exact iff_of_true (by decide) hname
    · exact iff_of_false (by decide) hname
  simpa using hmarked

end Fits

end Infos

end Table

open Table in
/-- **The table of transformations** is a line for the head and one for each transformation, in
their order. Names stand in a column as wide as the longest of them, marks in a column of ten
characters, each filled with spaces, and descriptions follow as they are. In a table of all
registered transformations one line is marked if the default is registered, and else none. -/
theorem transformsTable_aligned (infos : List Registry.Info) (defaultName : Bytes)
    (h : ∀ info ∈ infos, Plain info.name ∧ Plain info.description) :
    transformsTable infos defaultName
      = (entries infos defaultName).flatMap
          (fun entry => entry.line (nameWidth infos) ++ [Bytes.lineFeed]) ∧
    (∀ entry ∈ entries infos defaultName,
      Bytes.lineFeed ∉ entry.line (nameWidth infos) ∧
      (runes (padded (nameWidth infos) entry.name)).length = nameWidth infos ∧
      (runes (padded 10 entry.mark)).length = 10) ∧
    ∀ history, infos = (Registry.builtin.after history).list →
      (entries infos defaultName).countP (Entry.Marked (nameWidth infos) ·)
        = if defaultName ∈ (Registry.builtin.after history).names then 1 else 0 := by
  refine ⟨transformsTable_eq h, ?_, ?_⟩
  · intro entry hentry
    have hfits := fits_of_mem h entry hentry
    exact ⟨hfits.lineFeed_not_mem, hfits.length_runes_padded⟩
  · intro history hinfos
    have hnodup := (Registry.sorted_builtin.after history).nodup_names
    rw [countP_marked h, ← hnodup.count, hinfos, List.count_eq_countP, Registry.list,
      Registry.names, List.countP_map, List.countP_map]
    apply List.countP_congr
    intro entry _
    simp

open Table in
/-- Of the transformations the program starts with, the default is marked. -/
theorem transformsTable_aligned_builtin :
    (entries Registry.builtin.list (utf8 "binary")).countP
      (Entry.Marked (nameWidth Registry.builtin.list) ·) = 1 := by
  have hlist : Registry.builtin.list
      = [⟨Transform.binary.name, Transform.binary.description⟩,
        ⟨Transform.squeeze.name, Transform.squeeze.description⟩] := rfl
  have hplain : ∀ info ∈ Registry.builtin.list, Plain info.name ∧ Plain info.description := by
    rw [hlist, List.forall_mem_cons, List.forall_mem_singleton]
    exact ⟨⟨plain_utf8 (by decide), plain_utf8 (by decide)⟩,
      ⟨plain_utf8 (by decide), plain_utf8 (by decide)⟩⟩
  rw [(transformsTable_aligned Registry.builtin.list (utf8 "binary") hplain).2.2 [] rfl]
  decide

end Linewise

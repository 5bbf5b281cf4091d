import Linewise.Proofs.Scanner

/-!
# The tokens of a map of maps

A document of lines, some of them indented under a key, is scanned line by line. Three steps
take a line and two a key over others, never more than there are characters, so the bound
on the number of steps is not met. A block is opened by the first line that is indented
deeper, and closed at the first one that is not.

## Main definitions

* `Yaml.Line`: a key, and a text in a style
* `Yaml.Part`: lines at the top of a document, or under a key

## Main results

* `Yaml.Scanner.Arrived.runs_line`, `Yaml.Scanner.Arrived.runs_lines`: a line, and a block
* `Yaml.Scanner.Arrived.runs_part`, `Yaml.Scanner.Arrived.runs_parts`: a part, and a document
* `Yaml.tokens_parts`: the tokens of a document
-/

namespace Linewise.Yaml

/-! ## Lines and parts -/

/-- **A line of a document**: a key, and a text in a style. -/
structure Line where
  /-- The key. -/
  key : List Char
  /-- How the text is written. -/
  style : Style
  /-- The text. -/
  text : List Char

namespace Line

/-- A line without its indentation. -/
def body (line : Line) : List Char :=
  line.key ++ ':' :: ' ' :: (written line.style line.text ++ ['\n'])

/-- A line at an indentation. -/
def chars (indent : Nat) (line : Line) : List Char :=
  List.replicate indent ' ' ++ line.body

/-- The tokens of a line. -/
def tokens (line : Line) : List Token :=
  [.key, .scalar line.key true, .value, .scalar line.text (line.style = .plain)]

/-- **A line that can be read back.** -/
structure Legible (line : Line) : Prop where
  /-- The key is a word. -/
  key : IsWord line.key
  /-- The text does not begin a block. -/
  style : line.style ≠ .literal
  /-- The text stands in one line. -/
  inline : ∀ c ∈ line.text, isInline c = true
  /-- A plain text can stand plain. -/
  bare : line.style = .plain → Bare line.text

end Line

/-- **A part of a document**: lines at the top, or indented under a key. There is at least one. -/
inductive Part where
  /-- Lines at the top. -/
  | top (first : Line) (lines : List Line)
  /-- Lines under a key. -/
  | nested (key : List Char) (first : Line) (lines : List Line)

namespace Part

/-- The lines of a part. -/
def lines : Part → List Line
  | top first lines => first :: lines
  | nested _ first lines => first :: lines

/-- The text of a part. -/
def chars : Part → List Char
  | top first lines => (first :: lines).flatMap (Line.chars 0)
  | nested key first lines => key ++ ':' :: '\n' :: (first :: lines).flatMap (Line.chars step)

/-- The tokens of a part. -/
def tokens : Part → List Token
  | top first lines => (first :: lines).flatMap Line.tokens
  | nested key first lines =>
    .key :: .scalar key true :: .value :: .mappingStart
      :: ((first :: lines).flatMap Line.tokens ++ [.blockEnd])

/-- **A part that can be read back.** -/
structure Legible (part : Part) : Prop where
  /-- Its lines can. -/
  lines : ∀ line ∈ part.lines, line.Legible
  /-- Its key is a word. -/
  key : ∀ key first lines, part = nested key first lines → IsWord key

end Part

namespace Scanner

/-! ## Lines one after the other -/

section Lines

variable {s : Scanner} {rest : List Char} {column : Nat} {indent : Int} {indents : List Int}
  {tokens : List Token}

/-- **A line is three steps.** -/
theorem Arrived.runs_line {line : Line} {m : Nat} (hline : line.Legible)
    (h : Arrived s (line.body ++ (List.replicate m ' ' ++ rest)) column indent indents tokens)
    (hindent : indent ≤ column) (hm : m ≤ column) (hrest : AtWord rest) :
    ∃ u, Runs 3 s u ∧ Skipped u rest m column (outerAfter indent column indents)
      (line.tokens.reverse ++ opening indent column tokens) := by
  have hbody : line.body ++ (List.replicate m ' ' ++ rest) = line.key ++ ':' :: ' ' ::
      (written line.style line.text ++ '\n' :: (List.replicate m ' ' ++ rest)) := by
    simp [Line.body]
  rw [hbody] at h
  obtain ⟨index, number, hkey⟩ := h.runs_key hline.key rfl hindent
  obtain ⟨u, hnext, htokens, hskipped⟩ := exists_next?_value hline.style hline.inline hline.bare
    (show (column : Int) < (column + line.key.length + 1 : Nat) by omega)
    (show (m : Int) ≤ column by omega) hrest
  exact ⟨u, hkey.trans (runs_of_next? hnext htokens nofun), hskipped⟩

theorem atWord_body {line : Line} (hline : line.Legible) (more : List Char) :
    AtWord (line.body ++ more) := by
  obtain ⟨c, cs, hcs⟩ := List.exists_cons_of_ne_nil hline.key.ne_nil
  intro d hd
  have hhead : (line.body ++ more).head? = some c := by
    rw [Line.body, hcs]
    rfl
  rw [hhead] at hd
  obtain rfl := Option.some.inj hd
  exact hline.key.chars c (hcs ▸ List.mem_cons_self)

/-- **The lines of a block**, from the first to what follows the last. Only the first can open the
block. -/
theorem Arrived.runs_lines {first : Line} {lines : List Line}
    (hlines : ∀ line ∈ first :: lines, line.Legible)
    (h : Arrived s (first.body ++ (lines.flatMap (Line.chars column) ++ rest)) column indent indents
      tokens)
    (hindent : indent ≤ column) (hrest : AtWord rest) :
    ∃ u, Runs (3 * (lines.length + 1)) s u ∧
      Skipped u rest 0 column (outerAfter indent column indents)
        (((first :: lines).flatMap Line.tokens).reverse ++ opening indent column tokens) := by
  induction lines generalizing s first indent indents tokens with
  | nil =>
    obtain ⟨u, hruns, hskipped⟩ := Arrived.runs_line (m := 0)
      (hlines first List.mem_cons_self) h hindent (Nat.zero_le column) hrest
    exact ⟨u, hruns, by simpa using hskipped⟩
  | cons next lines ih =>
    have hnext := hlines next (by simp)
    rw [List.flatMap_cons, List.append_assoc, Line.chars, List.append_assoc] at h
    obtain ⟨t, hruns, hskipped⟩ := Arrived.runs_line (hlines first List.mem_cons_self) h hindent
      le_rfl (atWord_body hnext _)
    obtain ⟨u, hruns', hskipped'⟩ := ih (fun line hline => hlines line (List.mem_cons_of_mem _ hline))
      (hskipped.arrived (Int.le_refl _)) (Int.le_refl _)
    refine ⟨u, ?_, ?_⟩
    · rw [List.length_cons, Nat.mul_add, Nat.add_comm]
      exact hruns.trans hruns'
    · simpa [outerAfter, opening] using hskipped'

theorem three_mul_length_le (k : Nat) (lines : List Line) :
    3 * lines.length ≤ (lines.flatMap (Line.chars k)).length := by
  induction lines with
  | nil => exact Nat.zero_le _
  | cons line lines ih =>
    have hline : 3 ≤ (line.chars k).length := by
      simp [Line.chars, Line.body]
      omega
    rw [List.flatMap_cons, List.length_append, List.length_cons]
    omega

/-- **A part of a document**, from its first line to what follows its last. Lines under a key are a
block of their own, which is closed when the scanner arrives at the next part. -/
theorem Arrived.runs_part {part : Part} (hpart : part.Legible)
    (h : Arrived s (part.chars ++ rest) 0 indent indents tokens) (hindent : indent ≤ 0)
    (hrest : AtWord rest) :
    ∃ n ≤ part.chars.length, ∃ t, Runs n s t ∧
      Arrived t rest 0 0 (outerAfter indent 0 indents)
        (part.tokens.reverse ++ opening indent 0 tokens) := by
  cases part with
  | top first lines =>
    have hchars : (Part.top first lines).chars ++ rest
        = first.body ++ (lines.flatMap (Line.chars 0) ++ rest) := by
      simp [Part.chars, Line.chars]
    rw [hchars] at h
    obtain ⟨t, hruns, hskipped⟩ := h.runs_lines hpart.lines hindent hrest
    exact ⟨_, three_mul_length_le 0 (first :: lines), t, hruns, hskipped.arrived (Int.le_refl 0)⟩
  | nested key first lines =>
    have hkey := hpart.key key first lines rfl
    let block := first.body ++ (lines.flatMap (Line.chars step) ++ rest)
    have hchars : (Part.nested key first lines).chars ++ rest
        = key ++ ':' :: '\n' :: (List.replicate step ' ' ++ block) := by
      simp [Part.chars, Line.chars, block]
    rw [hchars] at h
    obtain ⟨index, line, hruns⟩ := h.runs_key hkey rfl hindent
    have hword : AtWord block := atWord_body (hpart.lines first List.mem_cons_self) _
    have hskipped : Skipped _ block step 0 _ _ :=
      ⟨_, _, skip_newline (s := afterColon key ('\n' :: (List.replicate step ' ' ++ block)) index
        line 0 indent indents tokens) rfl rfl
        fun c hc => isSolid_of_isWordChar (hword c hc)⟩
    obtain ⟨t, hruns', hskipped'⟩ := Arrived.runs_lines hpart.lines
      (hskipped.arrived (by decide)) (by decide) hrest
    have hlength : 2 + 3 * (lines.length + 1) ≤ (Part.nested key first lines).chars.length := by
      have := three_mul_length_le step (first :: lines)
      simp only [Part.chars, List.length_append, List.length_cons] at this ⊢
      omega
    refine ⟨_, hlength, t, hruns.trans hruns', ?_⟩
    simpa [Part.tokens, opening, afterColon, step] using
      hskipped'.arrived_closing (by decide) (by decide)

theorem atWord_part {part : Part} (hpart : part.Legible) (more : List Char) :
    AtWord (part.chars ++ more) := by
  cases part with
  | top first lines =>
    have hfirst := atWord_body (hpart.lines first List.mem_cons_self)
      (lines.flatMap (Line.chars 0) ++ more)
    simpa [Part.chars, Line.chars] using hfirst
  | nested key first lines =>
    have hkey := hpart.key key first lines rfl
    obtain ⟨c, cs, rfl⟩ := List.exists_cons_of_ne_nil hkey.ne_nil
    rintro d ⟨⟩
    exact hkey.chars c List.mem_cons_self

theorem atWord_parts {parts : List Part} (hparts : ∀ part ∈ parts, part.Legible) :
    AtWord (parts.flatMap Part.chars) := by
  cases parts with
  | nil => exact fun _ => nofun
  | cons part parts =>
    rw [List.flatMap_cons]
    exact atWord_part (hparts part List.mem_cons_self) _

/-- **All parts of a document**, once its block is open. -/
theorem Arrived.runs_parts {parts : List Part} (hparts : ∀ part ∈ parts, part.Legible)
    (h : Arrived s (parts.flatMap Part.chars) 0 0 indents tokens) :
    ∃ n ≤ (parts.flatMap Part.chars).length, ∃ t, Runs n s t ∧
      Arrived t [] 0 0 indents ((parts.flatMap Part.tokens).reverse ++ tokens) := by
  induction parts generalizing s tokens with
  | nil => exact ⟨0, le_rfl, s, fun _ => rfl, h⟩
  | cons part parts ih =>
    have hrest : ∀ part ∈ parts, part.Legible := fun part hpart =>
      hparts part (List.mem_cons_of_mem _ hpart)
    rw [List.flatMap_cons] at h
    obtain ⟨m, hm, t, hruns, harrived⟩ := h.runs_part (hparts part List.mem_cons_self)
      (Int.le_refl 0) (atWord_parts hrest)
    obtain ⟨n, hn, u, hruns', harrived'⟩ := ih hrest harrived
    refine ⟨m + n, ?_, u, hruns.trans hruns', ?_⟩
    · rw [List.flatMap_cons, List.length_append]
      omega
    · simpa [opening, outerAfter] using harrived'

/-- **The end of the text** closes the last block. -/
theorem Arrived.run_end (h : Arrived s [] 0 0 [-1] tokens) (fuel : Nat) :
    run (fuel + 1) s = (.streamEnd :: .blockEnd :: tokens).reverse := by
  obtain ⟨index, line, harrive⟩ := h
  have hnext : s.next? = some
      { rest := [], index, line, indent := -1, keyAllowed := false
        tokens := .streamEnd :: .blockEnd :: tokens } := by
    rw [next?_eq, harrive]
    rfl
  rw [run, hnext]

end Lines

end Scanner

/-! ## Documents -/

/-- **The tokens of a document** of one or more parts. -/
theorem tokens_parts {parts : List Part} (hparts : ∀ part ∈ parts, part.Legible)
    (hne : parts ≠ []) :
    tokens (parts.flatMap Part.chars)
      = .mappingStart :: parts.flatMap Part.tokens ++ [.blockEnd, .streamEnd] := by
  obtain ⟨part, rest, rfl⟩ := List.exists_cons_of_ne_nil hne
  have hrest : ∀ part ∈ rest, part.Legible := fun part hpart =>
    hparts part (List.mem_cons_of_mem _ hpart)
  let start : Scanner := { rest := (part :: rest).flatMap Part.chars }
  have hstart : Scanner.Arrived start (part.chars ++ rest.flatMap Part.chars) 0 (-1) [] [] := by
    refine Scanner.Skipped.arrived ⟨0, 0, ?_⟩ (by decide)
    exact Scanner.skip_solid fun c hc =>
      Scanner.isSolid_of_isWordChar (Scanner.atWord_part (hparts part List.mem_cons_self) _ c hc)
  obtain ⟨m, hm, s, hruns, harrived⟩ := hstart.runs_part (hparts part List.mem_cons_self)
    (by decide) (Scanner.atWord_parts hrest)
  obtain ⟨n, hn, t, hruns', harrived'⟩ := Scanner.Arrived.runs_parts hrest harrived
  -- no step costs more than the characters it takes, so the fuel lasts to the end
  let length := ((part :: rest).flatMap Part.chars).length
  have hlength : length + 1 = (length - (m + n)) + 1 + (m + n) := by
    have : length = part.chars.length + (rest.flatMap Part.chars).length := by
      simp [length]
    omega
  calc tokens ((part :: rest).flatMap Part.chars)
      = Scanner.run ((length - (m + n)) + 1 + (m + n)) start := by rw [tokens, ← hlength]
    _ = Scanner.run ((length - (m + n)) + 1) t := (hruns.trans hruns') _
    _ = _ := by
      rw [harrived'.run_end]
      simp [Scanner.opening]

end Linewise.Yaml

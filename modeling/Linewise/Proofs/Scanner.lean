import Mathlib.Data.Bool.AllAny
import Linewise.Proofs.Scalars
import Linewise.Yaml.Token

/-!
# The steps of the scanner

How the scanner goes through a map whose keys are words and whose values stand in one line.
A key is two steps: the word is a plain scalar whose place is remembered, and the colon
puts the tokens of the key before it, after the one that opens a block if the key is
indented deeper than the block around it. A value is one step. Whether it is plain, and so
has taken the end of its line, or quoted, the scanner then stands at the next line: it has
gone over blanks and line ends, and a key may begin.

## Main definitions

* `Yaml.IsWord`: what a key consists of
* `Yaml.Scanner.Skipped`, `Yaml.Scanner.Arrived`: where the scanner stands between two lines,
  before and after it closes the blocks that end there
* `Yaml.Scanner.Runs`: steps that do not reach the end

## Main results

* `Yaml.Scanner.tokenAt_plain`: where a plain scalar begins
* `Yaml.Scanner.Arrived.runs_key`: a key and its colon
* `Yaml.Scanner.exists_next?_value`: a value in any style
-/

namespace Linewise.Yaml

/-- **A word**: what a key consists of, short enough for its colon to be found. -/
structure IsWord (key : List Char) : Prop where
  /-- There is something to read. -/
  ne_nil : key ≠ []
  /-- The colon is in reach. -/
  length_le : key.length ≤ Scanner.keyReach
  /-- Its characters. -/
  chars : ∀ c ∈ key, isWordChar c = true

/-- The place is at the end of the text or before a word. -/
def AtWord (text : List Char) : Prop :=
  ∀ c ∈ text.head?, isWordChar c = true

namespace Scanner

/-! ## Taking characters -/

theorem advanceBy_add (m n : Nat) (s : Scanner) :
    s.advanceBy (m + n) = (s.advanceBy m).advanceBy n := by
  induction m generalizing s with
  | zero => rw [Nat.zero_add, advanceBy]
  | succ m ih => rw [Nat.add_right_comm, advanceBy, advanceBy, ih]

theorem advanceBy_unbroken {s : Scanner} {text rest : List Char} (hs : s.rest = text ++ rest)
    (htext : ∀ c ∈ text, isBreak c = false) :
    s.advanceBy text.length
      = { s with rest, index := s.index + text.length, column := s.column + text.length } := by
  induction text generalizing s with
  | nil =>
    rw [List.nil_append] at hs
    subst hs
    rfl
  | cons c text ih =>
    have hc := htext c List.mem_cons_self
    have hadvance : s.advance
        = { s with rest := text ++ rest, index := s.index + 1, column := s.column + 1 } := by
      rw [advance, hs]
      simp [hc]
    rw [List.length_cons, advanceBy, hadvance,
      ih rfl fun d hd => htext d (List.mem_cons_of_mem c hd)]
    simp [Nat.add_assoc, Nat.add_comm 1]

theorem advance_newline {s : Scanner} {rest : List Char} (hs : s.rest = '\n' :: rest) :
    s.advance = { s with rest, index := s.index + 1, line := s.line + 1, column := 0 } := by
  rw [advance, hs]
  rfl

/-- Over the rest of a line, its end and the indentation of the next. -/
theorem advanceBy_line {s : Scanner} {text rest : List Char} {m : Nat}
    (hs : s.rest = text ++ '\n' :: (List.replicate m ' ' ++ rest))
    (htext : ∀ c ∈ text, isBreak c = false) :
    s.advanceBy (text.length + 1 + m)
      = { s with
          rest, index := s.index + text.length + 1 + m, line := s.line + 1, column := m } := by
  have hspaces : ∀ c ∈ List.replicate m ' ', isBreak c = false := by
    intro c hc
    rw [List.eq_of_mem_replicate hc]
    rfl
  have hindentation {t : Scanner} (ht : t.rest = List.replicate m ' ' ++ rest) :
      t.advanceBy m = { t with rest, index := t.index + m, column := t.column + m } := by
    simpa using advanceBy_unbroken ht hspaces
  rw [advanceBy_add, advanceBy_add, advanceBy_unbroken hs htext, advanceBy, advanceBy,
    advance_newline rfl, hindentation rfl]
  simp

/-! ## Going to the next token -/

/-- A character that begins a token. -/
def isSolid (c : Char) : Bool :=
  !(c = '\ufeff' || isBlank c || isBreak c || c = '#')

theorem skipLoop_solid (fuel : Nat) {s : Scanner} (h : ∀ c ∈ s.rest.head?, isSolid c = true) :
    skipLoop fuel s = s := by
  cases fuel with
  | zero => rfl
  | succ fuel =>
    rw [skipLoop]
    cases hrest : s.rest with
    | nil => rfl
    | cons c rest =>
      rw [hrest] at h
      have hc := h c rfl
      simp only [isSolid, isBlank, Bool.not_eq_true', Bool.or_eq_false_iff,
        decide_eq_false_iff_not] at hc
      obtain ⟨⟨⟨hmark, hspace, htab⟩, hbreak⟩, hcomment⟩ := hc
      simp [hmark, hspace, htab, hbreak, hcomment]

theorem skipLoop_spaces (fuel : Nat) {m : Nat} {s : Scanner} {rest : List Char}
    (hs : s.rest = List.replicate m ' ' ++ rest) :
    skipLoop (fuel + m) s
      = skipLoop fuel { s with rest, index := s.index + m, column := s.column + m } := by
  induction m generalizing s with
  | zero =>
    rw [List.replicate_zero, List.nil_append] at hs
    subst hs
    rfl
  | succ m ih =>
    rw [List.replicate_succ, List.cons_append] at hs
    have hadvance : s.advance = { s with
        rest := List.replicate m ' ' ++ rest, index := s.index + 1, column := s.column + 1 } := by
      rw [advance, hs]
      rfl
    rw [← Nat.add_assoc, skipLoop, hs]
    simp only [hadvance]
    rw [ih rfl]
    simp [Nat.add_assoc, Nat.add_comm 1]

theorem skip_solid {s : Scanner} (h : ∀ c ∈ s.rest.head?, isSolid c = true) : s.skip = s :=
  skipLoop_solid _ h

/-- One space before a token. -/
theorem skip_space {s : Scanner} {rest : List Char} (hs : s.rest = ' ' :: rest)
    (h : ∀ c ∈ rest.head?, isSolid c = true) :
    s.skip = { s with rest, index := s.index + 1, column := s.column + 1 } := by
  rw [skip, hs, List.length_cons, skipLoop_spaces rest.length (m := 1) hs]
  exact skipLoop_solid _ h

/-- The end of a line, and the indentation of the next. After it a key may begin. -/
theorem skip_newline {s : Scanner} {m : Nat} {rest : List Char}
    (hs : s.rest = '\n' :: (List.replicate m ' ' ++ rest)) (houter : s.outer = [])
    (h : ∀ c ∈ rest.head?, isSolid c = true) :
    s.skip = { s with
      rest, index := s.index + 1 + m, line := s.line + 1, column := m, keyAllowed := true } := by
  have hallowed : (s.keyAllowed || !s.inFlow) = true := by simp [inFlow, houter]
  have hfuel : s.rest.length = rest.length + m + 1 := by
    rw [hs]
    simp [Nat.add_comm m]
  rw [skip, hfuel, skipLoop, hs]
  simp only [advance_newline hs, hallowed]
  refine (skipLoop_spaces rest.length rfl).trans ((skipLoop_solid _ h).trans ?_)
  simp

/-! ## Blocks -/

/-- The scanner before its next token: blocks that are indented too deep are closed. -/
def arrive (s : Scanner) : Scanner :=
  s.skip.unroll s.skip.column

theorem next?_eq (s : Scanner) :
    s.next? = match s.arrive.rest with
      | [] => s.arrive.streamEnd
      | c :: rest => s.arrive.tokenAt c rest :=
  rfl

theorem next?_of_arrive {s : Scanner} {c : Char} {rest : List Char}
    (h : s.arrive.rest = c :: rest) : s.next? = s.arrive.tokenAt c rest := by
  rw [next?_eq, h]

theorem unroll_of_le {s : Scanner} {column : Int} (h : s.indent ≤ column) :
    s.unroll column = s := by
  have hdeep : ¬ column < s.indent := by omega
  rw [unroll, unrollLoop, if_neg hdeep, ite_self]

/-- The innermost block is closed, and the one around it is not. -/
theorem unroll_of_lt {s : Scanner} {column outer : Int} {indents : List Int}
    (houter : s.outer = []) (hindents : s.indents = outer :: indents) (hdeep : column < s.indent)
    (hshallow : outer ≤ column) :
    s.unroll column
      = { s with indent := outer, indents, tokens := .blockEnd :: s.tokens } := by
  have hflow : s.inFlow = false := by simp [inFlow, houter]
  have hshallow' : ¬ column < outer := by omega
  rw [unroll, hflow, unrollLoop, if_pos hdeep, hindents, List.length_cons, unrollLoop]
  simp [push, hshallow']

/-- **Where the scanner stands between two lines**: before some text at a column, with the blocks
that are open and the tokens so far. A key may begin here. -/
def Skipped (s : Scanner) (rest : List Char) (column : Nat) (indent : Int) (indents : List Int)
    (tokens : List Token) : Prop :=
  ∃ index line, s.skip = { rest, index, line, column, indent, indents, tokens }

/-- The same, once the blocks that end here are closed. -/
def Arrived (s : Scanner) (rest : List Char) (column : Nat) (indent : Int) (indents : List Int)
    (tokens : List Token) : Prop :=
  ∃ index line, s.arrive = { rest, index, line, column, indent, indents, tokens }

section Arrived

variable {s : Scanner} {rest : List Char} {column : Nat} {indent outer : Int} {indents : List Int}
  {tokens : List Token}

theorem Skipped.arrived (h : Skipped s rest column indent indents tokens)
    (hindent : indent ≤ column) : Arrived s rest column indent indents tokens := by
  obtain ⟨index, line, hskip⟩ := h
  refine ⟨index, line, ?_⟩
  rw [arrive, hskip]
  exact unroll_of_le hindent

theorem Skipped.arrived_closing (h : Skipped s rest column indent (outer :: indents) tokens)
    (hdeep : column < indent) (hshallow : outer ≤ column) :
    Arrived s rest column outer indents (.blockEnd :: tokens) := by
  obtain ⟨index, line, hskip⟩ := h
  refine ⟨index, line, ?_⟩
  rw [arrive, hskip]
  exact unroll_of_lt rfl rfl hdeep hshallow

end Arrived

/-! ## Runs -/

/-- So many steps lead from one state to the other, none of them to the end. -/
def Runs (n : Nat) (s t : Scanner) : Prop :=
  ∀ fuel, run (fuel + n) s = run fuel t

theorem Runs.trans {m n : Nat} {s t u : Scanner} (h : Runs m s t) (h' : Runs n t u) :
    Runs (m + n) s u := by
  intro fuel
  rw [Nat.add_comm m, ← Nat.add_assoc, h, h']

theorem runs_of_next? {s t : Scanner} {token : Token} {tokens : List Token}
    (h : s.next? = some t) (htokens : t.tokens = token :: tokens) (htoken : token ≠ .streamEnd) :
    Runs 1 s t := by
  intro fuel
  rw [run, h]
  simp only [htokens]
  split
  · next hend => exact absurd (List.cons.inj hend).1 htoken
  · rfl

/-! ## Plain scalars -/

theorem atTriple_of_ne {c mark : Char} (h : c ≠ mark) (rest : List Char) :
    atTriple mark (c :: rest) = false := by
  rw [atTriple.eq_def]
  split
  · next a b d tail heq =>
    obtain ⟨rfl, -⟩ := List.cons.inj heq
    simp [h]
  · rfl

theorem isIndicator_cases (c : Char) (h : isIndicator c = true) :
    c = '-' ∨ c = '?' ∨ c = ':' ∨ isForbiddenStart c = true := by
  rw [isIndicator, List.contains_iff_mem] at h
  revert c
  exact List.all_iff_forall_prop.mp (by decide)

/-- **A plain scalar begins** with a character that is no sign, or with one of the three signs that
are none unless a gap follows. -/
theorem tokenAt_plain {c : Char} {rest : List Char} {s : Scanner} (hflow : s.inFlow = false)
    (hstart : isForbiddenStart c = false) (hsolid : isSolid c = true)
    (hgap : c = '-' ∨ c = '?' ∨ c = ':' → atGap rest = false)
    (hmarker : s.column = 0 → atMarker (c :: rest) = false) :
    s.tokenAt c rest = s.plainScalar := by
  have hne {d : Char} (hd : isForbiddenStart d = true) : c ≠ d := by
    rintro rfl
    rw [hstart] at hd
    cases hd
  simp only [isSolid, Bool.not_eq_true', Bool.or_eq_false_iff] at hsolid
  have hstarts : startsPlain s.inFlow c rest = true := by
    by_cases hindicator : isIndicator c = true
    · have hhead : atGap rest = false → rest.head?.any isBlank = false := by
        cases rest with
        | nil => simp
        | cons d rest => simp +contextual [atGap]
      rcases isIndicator_cases c hindicator with rfl | rfl | rfl | hforbidden
      · simp [startsPlain, hhead (hgap (.inl rfl))]
      · simp [startsPlain, hflow, hgap (.inr (.inl rfl))]
      · simp [startsPlain, hflow, hgap (.inr (.inr rfl))]
      · rw [hstart] at hforbidden
        cases hforbidden
    · simp [startsPlain, hsolid, hindicator]
  have hmarks : s.column = 0 → atTriple '-' (c :: rest) = false ∧
      atTriple '.' (c :: rest) = false := fun h => Bool.or_eq_false_iff.mp (hmarker h)
  -- what comes before plain scalars in the order of tokens is ruled out one by one
  have hdash : (c = '-' && atGap rest) = false := by
    by_cases hc : c = '-' <;> simp [hc, hgap]
  have hquestion : (c = '?' && (s.inFlow || atGap rest)) = false := by
    by_cases hc : c = '?' <;> simp [hc, hgap, hflow]
  have hcolon : (c = ':' && (s.inFlow || atGap rest)) = false := by
    by_cases hc : c = ':' <;> simp [hc, hgap, hflow]
  have htriple (mark : Char) (h : s.column = 0 → atTriple mark (c :: rest) = false) :
      (decide (s.column = 0) && atTriple mark (c :: rest)) = false := by
    by_cases hcolumn : s.column = 0 <;> simp [hcolumn, h]
  simp only [tokenAt, htriple '-' fun h => (hmarks h).1, htriple '.' fun h => (hmarks h).2, hdash,
    hquestion, hcolon, hstarts]
  simp [hne (d := '%') rfl, hne (d := '[') rfl, hne (d := '{') rfl, hne (d := ']') rfl,
    hne (d := '}') rfl, hne (d := ',') rfl, hne (d := '*') rfl, hne (d := '&') rfl,
    hne (d := '!') rfl, hne (d := '|') rfl, hne (d := '>') rfl, hne (d := '\'') rfl,
    hne (d := '"') rfl]

theorem plainScalar_eq {s t : Scanner} {read : Read} (hsave : s.saveCandidate = some t)
    (hread : plain? t.inFlow (t.indent + 1) t.column t.rest = some read) :
    s.plainScalar = some { (t.advanceBy read.length).push (.scalar read.text true) with
      keyAllowed := read.folded } := by
  simp [plainScalar, hsave, hread]

theorem quotedScalar_eq {s t : Scanner} {read : Nat → List Char → Option Read} {found : Read}
    (hsave : s.saveCandidate = some t)
    (hread : read (t.column + 1) (t.rest.drop 1) = some found) :
    s.quotedScalar read = some { (t.advanceBy (found.length + 1)).push (.scalar found.text false) with
      keyAllowed := false } := by
  simp only [quotedScalar, hsave, Option.bind_eq_bind, Option.bind_some, hread]

/-! ## Keys -/

theorem isSolid_of_isWordChar {c : Char} (h : isWordChar c = true) : isSolid c = true := by
  simp [isSolid, isBlank_of_isWordChar h, isBreak_of_isWordChar h,
    ne_of_isWordChar h (d := '\ufeff') rfl, ne_of_isWordChar h (d := '#') rfl]

theorem isWordChar_of_isForbiddenStart (c : Char) (h : isForbiddenStart c = true) :
    isWordChar c = false := by
  rw [isForbiddenStart, List.contains_iff_mem] at h
  revert c
  exact List.all_iff_forall_prop.mp (by decide)

/-- A letter begins a plain scalar. -/
theorem tokenAt_of_isWordChar {c : Char} (h : isWordChar c = true) (rest : List Char)
    {s : Scanner} (hflow : s.inFlow = false) : s.tokenAt c rest = s.plainScalar := by
  have hne {d : Char} : isWordChar d = false → c ≠ d := ne_of_isWordChar h
  have hstart : isForbiddenStart c = false := by
    rw [← Bool.not_eq_true]
    exact fun hforbidden => hne (isWordChar_of_isForbiddenStart c hforbidden) rfl
  refine tokenAt_plain hflow hstart (isSolid_of_isWordChar h) ?_ fun _ => ?_
  · rintro (rfl | rfl | rfl) <;> cases h
  · rw [atMarker, atTriple_of_ne (hne rfl), atTriple_of_ne (hne rfl)]
    rfl

/-- The indentations around a block that may have to be opened at a column. -/
def outerAfter (indent : Int) (column : Nat) (indents : List Int) : List Int :=
  if indent < column then indent :: indents else indents

/-- The tokens so far, with the one that opens a block at a column if it has to be opened. -/
def opening (indent : Int) (column : Nat) (tokens : List Token) : List Token :=
  if indent < column then .mappingStart :: tokens else tokens

/-- A token goes between those after its place and those before it. -/
theorem insertAt_length {s : Scanner} (above below : List Token) (h : s.tokens = above ++ below)
    (token : Token) :
    s.insertAt below.length token = { s with tokens := above ++ token :: below } := by
  have hplace : s.tokens.length - below.length = above.length := by
    rw [h, List.length_append, Nat.add_sub_cancel]
  rw [insertAt]
  simp only [hplace]
  rw [h, List.take_left, List.drop_left]

section Key

variable {s : Scanner} {key after : List Char} {column : Nat} {indent : Int} {indents : List Int}
  {tokens : List Token}

/-- The state between a key and its colon: the place before the key is remembered. -/
def beforeColon (key after : List Char) (index line column : Nat) (indent : Int)
    (indents : List Int) (tokens : List Token) : Scanner :=
  { rest := ':' :: after
    index := index + key.length
    line
    column := column + key.length
    indent
    indents
    keyAllowed := false
    candidate := some ⟨indent = column, tokens.length, index, line, column⟩
    tokens := .scalar key true :: tokens }

/-- The state after the colon of a key. -/
def afterColon (key after : List Char) (index line column : Nat) (indent : Int)
    (indents : List Int) (tokens : List Token) : Scanner :=
  { rest := after
    index := index + key.length + 1
    line
    column := column + key.length + 1
    indent := column
    indents := outerAfter indent column indents
    keyAllowed := false
    tokens := .value :: .scalar key true :: .key :: opening indent column tokens }

theorem Arrived.next?_key (h : Arrived s (key ++ ':' :: after) column indent indents tokens)
    (hkey : IsWord key) (hafter : atGap after = true) :
    ∃ index line,
      s.next? = some (beforeColon key after index line column indent indents tokens) := by
  obtain ⟨index, line, harrive⟩ := h
  refine ⟨index, line, ?_⟩
  obtain ⟨c, cs, hcs⟩ := List.exists_cons_of_ne_nil hkey.ne_nil
  have hc := hkey.chars c (hcs ▸ List.mem_cons_self)
  have hunbroken : ∀ d ∈ key, isBreak d = false := fun d hd =>
    isBreak_of_isWordChar (hkey.chars d hd)
  have hrest : s.arrive.rest = c :: (cs ++ ':' :: after) := by
    rw [harrive, hcs]
    rfl
  let saved : Scanner :=
    { rest := key ++ ':' :: after
      index
      line
      column
      indent
      indents
      candidate := some ⟨indent = column, tokens.length, index, line, column⟩
      tokens }
  rw [next?_of_arrive hrest, harrive, tokenAt_of_isWordChar hc _ rfl,
    plainScalar_eq (t := saved) rfl (plain?_of_word hkey.chars hafter),
    advanceBy_unbroken (s := saved) rfl hunbroken]
  rfl

/-- **A colon after a key**: the tokens of the key go before it, and a block is opened where it is
indented deeper than the one around it. -/
theorem next?_beforeColon (hkey : IsWord key) (hafter : atGap after = true)
    (hindent : indent ≤ column) (index line : Nat) :
    (beforeColon key after index line column indent indents tokens).next?
      = some (afterColon key after index line column indent indents tokens) := by
  have hnear : ¬ index + keyReach < index + key.length := by
    have := hkey.length_le
    omega
  have hpos := List.length_pos_iff.mpr hkey.ne_nil
  have harrive : (beforeColon key after index line column indent indents tokens).arrive
      = beforeColon key after index line column indent indents tokens := by
    rw [arrive, skip_solid (by rintro c ⟨⟩; rfl)]
    exact unroll_of_le (by simp only [beforeColon]; omega)
  rw [next?_of_arrive (by rw [harrive]; rfl), harrive]
  have hmark (s : Scanner) : s.tokenAt ':' after = s.valueMark := by
    simp [tokenAt, atTriple_of_ne (show ':' ≠ '-' by decide),
      atTriple_of_ne (show ':' ≠ '.' by decide), hafter]
  rw [hmark, valueMark]
  have hvalid : validCandidate (beforeColon key after index line column indent indents tokens)
      = some (some ⟨indent = column, tokens.length, index, line, column⟩) := by
    simp [validCandidate, beforeColon, hnear]
  rw [hvalid]
  have hkeyed : (beforeColon key after index line column indent indents tokens).insertAt
      tokens.length .key = { beforeColon key after index line column indent indents tokens with
        tokens := .scalar key true :: .key :: tokens } :=
    insertAt_length [.scalar key true] tokens rfl .key
  simp only [openKey, hkeyed, roll]
  by_cases hdeeper : indent < column
  · rw [if_pos (by simp [beforeColon, inFlow, hdeeper]),
      insertAt_length [.scalar key true, .key] tokens rfl]
    simp [beforeColon, afterColon, push, advance, hdeeper, outerAfter, opening, isBreak]
  · rw [if_neg (by simp [beforeColon, inFlow, hdeeper])]
    simp [beforeColon, afterColon, push, advance, hdeeper, outerAfter, opening, isBreak]
    omega

/-- **A key is two steps.** -/
theorem Arrived.runs_key (h : Arrived s (key ++ ':' :: after) column indent indents tokens)
    (hkey : IsWord key) (hafter : atGap after = true) (hindent : indent ≤ column) :
    ∃ index line, Runs 2 s (afterColon key after index line column indent indents tokens) := by
  obtain ⟨index, line, hnext⟩ := h.next?_key hkey hafter
  refine ⟨index, line, ?_⟩
  have hfirst := runs_of_next? hnext rfl nofun
  exact hfirst.trans (runs_of_next? (next?_beforeColon hkey hafter hindent index line) rfl nofun)

end Key

/-! ## Values -/

section Value

variable {style : Style} {text rest : List Char} {m index line column : Nat} {indent : Int}
  {indents : List Int} {tokens : List Token}

/-- The state before a value, after the space that separates it from its colon. -/
def beforeValue (rest : List Char) (index line column : Nat) (indent : Int) (indents : List Int)
    (tokens : List Token) : Scanner :=
  { rest, index, line, column, indent, indents, keyAllowed := false, tokens }

theorem isForbiddenStart_of_bare {c : Char} (hbare : Bare (c :: text)) :
    isForbiddenStart c = false := by
  have hmark : isIndicatorAt none c text = false := hbare.unmarked.1
  simp only [isIndicatorAt, Bool.or_eq_false_iff] at hmark
  exact hmark.1

theorem isSolid_of_bare {c : Char} (hbare : Bare (c :: text))
    (hinline : ∀ d ∈ c :: text, isInline d = true) : isSolid c = true := by
  have hspace : c ≠ ' ' := fun h => hbare.head (congrArg some h)
  have hc := hinline c List.mem_cons_self
  have hcomment : c ≠ '#' := by
    rintro rfl
    exact absurd (isForbiddenStart_of_bare hbare) (by decide)
  simp [isSolid, isBlank_of_isInline hc, isBreak_of_isInline hc, hspace, hcomment,
    ne_of_isInline hc (d := '\ufeff') rfl]

/-- A bare text begins a plain scalar, away from the start of a line. -/
theorem tokenAt_of_bare {c : Char} {s : Scanner} (hbare : Bare (c :: text))
    (hinline : ∀ d ∈ c :: text, isInline d = true) (hflow : s.inFlow = false)
    (hcolumn : s.column ≠ 0) (more : List Char) :
    s.tokenAt c (text ++ '\n' :: more) = s.plainScalar := by
  refine tokenAt_plain hflow (isForbiddenStart_of_bare hbare) (isSolid_of_bare hbare hinline) ?_
    fun h => absurd h hcolumn
  intro hsign
  have hmark : isIndicatorAt none c text = false := hbare.unmarked.1
  simp only [isIndicatorAt, Bool.or_eq_false_iff] at hmark
  have hfollows := hmark.2
  rw [atGap_append_newline fun d hd => hinline d (List.mem_cons_of_mem c hd)]
  rcases hsign with rfl | rfl | rfl <;> simpa [isIndicatorAt.gapFollows] using hfollows

theorem next?_space {c : Char} {tail : List Char} (hsolid : isSolid c = true)
    (hindent : indent < column) :
    (beforeValue (' ' :: c :: tail) index line column indent indents tokens).next?
      = (beforeValue (c :: tail) (index + 1) line (column + 1) indent indents tokens).tokenAt c
          tail := by
  have harrive : (beforeValue (' ' :: c :: tail) index line column indent indents tokens).arrive
      = beforeValue (c :: tail) (index + 1) line (column + 1) indent indents tokens := by
    rw [arrive, skip_space rfl (by rintro d ⟨⟩; exact hsolid)]
    exact unroll_of_le (by simp only [beforeValue]; omega)
  rw [next?_of_arrive (by rw [harrive]; rfl), harrive]

/-- **A plain value** takes the end of its line along. -/
theorem exists_plainScalar (hbare : Bare text) (hinline : ∀ c ∈ text, isInline c = true)
    (hindent : indent < column) (hm : (m : Int) ≤ indent) (hrest : AtWord rest) :
    ∃ u, (beforeValue (text ++ '\n' :: (List.replicate m ' ' ++ rest)) index line column indent
        indents tokens).plainScalar = some u ∧
      u.tokens = .scalar text true :: tokens ∧
      Skipped u rest m indent indents (.scalar text true :: tokens) := by
  have hread : plain? false (indent + 1) column
      (text ++ '\n' :: (List.replicate m ' ' ++ rest)) = some ⟨text, text.length + 1 + m, true⟩ :=
    plain?_of_bare hbare hinline (by omega) (by omega) (by omega) fun c hc =>
      ⟨isBlank_of_isWordChar (hrest c hc), isBreak_of_isWordChar (hrest c hc)⟩
  refine ⟨_, plainScalar_eq rfl hread, ?_⟩
  rw [advanceBy_line rfl fun c hc => isBreak_of_isInline (hinline c hc)]
  exact ⟨rfl, _, _, skip_solid fun c hc => isSolid_of_isWordChar (hrest c hc)⟩

/-- **A quoted value** ends before the end of its line. -/
theorem exists_quotedScalar {read : Nat → List Char → Option Read} {quote : Char}
    {inside : List Char} (hquote : isBreak quote = false)
    (hinside : ∀ c ∈ inside, isBreak c = false)
    (hread : read (column + 1) (inside ++ quote :: '\n' :: (List.replicate m ' ' ++ rest))
      = some { text, length := inside.length + 1 })
    (hrest : AtWord rest) :
    ∃ u, (beforeValue (quote :: (inside ++ quote :: '\n' :: (List.replicate m ' ' ++ rest))) index
        line column indent indents tokens).quotedScalar read = some u ∧
      u.tokens = .scalar text false :: tokens ∧
      Skipped u rest m indent indents (.scalar text false :: tokens) := by
  let s := beforeValue (quote :: (inside ++ quote :: '\n' :: (List.replicate m ' ' ++ rest))) index
    line column indent indents tokens
  let whole := quote :: (inside ++ [quote])
  have hwhole : ∀ c ∈ whole, isBreak c = false := by
    simp only [whole, List.mem_cons, List.mem_append, List.not_mem_nil, or_false]
    rintro c (rfl | hc | rfl)
    · exact hquote
    · exact hinside c hc
    · exact hquote
  have hs : s.rest = whole ++ '\n' :: (List.replicate m ' ' ++ rest) := by
    simp [s, beforeValue, whole]
  have hlength : inside.length + 1 + 1 = whole.length := by simp [whole]
  refine ⟨_, quotedScalar_eq (t := s) rfl hread, ?_⟩
  rw [hlength, advanceBy_unbroken hs hwhole]
  exact ⟨rfl, _, _, skip_newline rfl rfl fun c hc => isSolid_of_isWordChar (hrest c hc)⟩

/-- **A value is one step**, in whatever style it is written. -/
theorem exists_next?_value (hstyle : style ≠ .literal) (hinline : ∀ c ∈ text, isInline c = true)
    (hbare : style = .plain → Bare text) (hindent : indent < column) (hm : (m : Int) ≤ indent)
    (hrest : AtWord rest) :
    ∃ u, (beforeValue (' ' :: (written style text ++ '\n' :: (List.replicate m ' ' ++ rest))) index
        line column indent indents tokens).next? = some u ∧
      u.tokens = .scalar text (style = .plain) :: tokens ∧
      Skipped u rest m indent indents (.scalar text (style = .plain) :: tokens) := by
  cases style with
  | plain =>
    have hbare := hbare rfl
    obtain ⟨c, cs, rfl⟩ := List.exists_cons_of_ne_nil hbare.ne_nil
    obtain ⟨u, hscalar, htokens, hskipped⟩ := exists_plainScalar hbare hinline
      (show indent < (column + 1 : Nat) by omega) hm hrest
    refine ⟨u, ?_, htokens, hskipped⟩
    rw [written, List.cons_append, next?_space (isSolid_of_bare hbare hinline) hindent,
      tokenAt_of_bare hbare hinline rfl (Nat.succ_ne_zero column)]
    exact hscalar
  | single =>
    have hguarded := isInline_guarded hinline needsQuote (show isInline '\'' = true from rfl)
    obtain ⟨u, hscalar, htokens, hskipped⟩ := exists_quotedScalar rfl
      (fun c hc => isBreak_of_isInline (hguarded c hc))
      (singleQuoted?_guarded hinline (Nat.succ_pos _) _) hrest
    refine ⟨u, ?_, htokens, hskipped⟩
    rw [written, List.cons_append, List.cons_append, List.append_assoc, next?_space rfl hindent]
    exact hscalar
  | double =>
    have hguarded := isInline_guarded hinline needsBackslash (show isInline '\\' = true from rfl)
    obtain ⟨u, hscalar, htokens, hskipped⟩ := exists_quotedScalar rfl
      (fun c hc => isBreak_of_isInline (hguarded c hc))
      (doubleQuoted?_guarded hinline (Nat.succ_pos _) _) hrest
    refine ⟨u, ?_, htokens, hskipped⟩
    rw [written, List.cons_append, List.cons_append, List.append_assoc, next?_space rfl hindent]
    exact hscalar
  | literal => exact absurd rfl hstyle

end Value

end Scanner

end Linewise.Yaml

import Linewise.Proofs.Runes
import Linewise.Yaml.Scalar
import Linewise.Yaml.Writer

/-!
# Scalars that stand in one line

A text whose characters can all stand in a line of a document is written plain or between
quotes, and is read back from either. Between quotes nothing depends on the text: blanks
wait until the next character comes, and a guarded character loses its guard. Plain, the
traits of the text do the work: no colon before a gap, no number sign after a blank, no
blank at either end. A plain scalar also takes the end of its line and the indentation of
the next one, which is how it learns that it is over.

## Main definitions

* `Yaml.isInline`: the characters that stand in a line as they are
* `Yaml.written`: a text in a style, as characters
* `Yaml.Bare`: a text that can stand plain

## Main results

* `Yaml.styled_eq_ofChars`: what the writer makes of a text
* `Yaml.bare_of_plainAllowed`: the traits of a text that may be written plain
* `Yaml.plain?_of_bare`, `Yaml.singleQuoted?_guarded`, `Yaml.doubleQuoted?_guarded`: reading
-/

namespace Linewise.Yaml

/-! ## Characters -/

/-- **A character that stands in a line as it is.** -/
def isInline (c : Char) : Bool :=
  isPrintable c && !isWrittenBreak c

section Inline

variable {c : Char}

theorem ne_of_isInline (h : isInline c = true) {d : Char} (hd : isInline d = false) : c ≠ d := by
  rintro rfl
  rw [h] at hd
  cases hd

theorem isBreak_of_isInline (h : isInline c = true) : isBreak c = false := by
  simp [isBreak, ne_of_isInline h (d := '\n') rfl, ne_of_isInline h (d := '\u2028') rfl,
    ne_of_isInline h (d := '\u2029') rfl]

theorem isBlank_of_isInline (h : isInline c = true) : isBlank c = decide (c = ' ') := by
  simp [isBlank, ne_of_isInline h (d := '\t') rfl]

theorem isAllowed_of_isInline (h : isInline c = true) : isAllowed c = true := by
  simp only [isInline, isPrintable, Bool.and_eq_true, Bool.or_eq_true, decide_eq_true_eq] at h
  simp only [isAllowed, Bool.and_eq_true, Bool.or_eq_true, decide_eq_true_eq]
  omega

theorem isWrittenBreak_of_isInline (h : isInline c = true) : isWrittenBreak c = false := by
  simpa using (Bool.and_eq_true_iff.mp h).2

/-- The printable ASCII characters stand in a line. -/
theorem isInline_of_toNat (h : 0x20 ≤ c.toNat ∧ c.toNat ≤ 0x7E) : isInline c = true := by
  have hne (d : Char) (hd : d.toNat < 0x20 ∨ 0x7E < d.toNat) : c ≠ d := by
    rintro rfl
    omega
  simp [isInline, isPrintable, isWrittenBreak, h, hne '\r' (by decide), hne '\n' (by decide),
    hne '\u0085' (by decide), hne '\u2028' (by decide), hne '\u2029' (by decide)]

end Inline

/-! ## Writing -/

/-- A text with a sign before each character that needs one. -/
def guarded (needs : Char → Bool) (sign : Char) (text : List Char) : List Char :=
  text.flatMap fun c => if needs c then [sign, c] else [c]

theorem guarded_cons (needs : Char → Bool) (sign c : Char) (text : List Char) :
    guarded needs sign (c :: text)
      = (if needs c then [sign, c] else [c]) ++ guarded needs sign text :=
  List.flatMap_cons

/-- A single quote is written twice between single quotes. -/
def needsQuote (c : Char) : Bool :=
  c = '\''

/-- A double quote and a backslash are escaped between double quotes. -/
def needsBackslash (c : Char) : Bool :=
  c = '"' || c = '\\'

/-- **A text in a style**, as characters. -/
def written : Style → List Char → List Char
  | .plain, text => text
  | .single, text => '\'' :: guarded needsQuote '\'' text ++ ['\'']
  | .double, text | .literal, text => '"' :: guarded needsBackslash '\\' text ++ ['"']

section Writing

variable {text : List Char} (htext : ∀ c ∈ text, isInline c = true)

include htext

theorem isInline_guarded (needs : Char → Bool) {sign : Char} (hsign : isInline sign = true) :
    ∀ c ∈ guarded needs sign text, isInline c = true := by
  intro c hc
  obtain ⟨d, hd, hmem⟩ := List.mem_flatMap.mp hc
  split_ifs at hmem
  · simp only [List.mem_cons, List.not_mem_nil, or_false] at hmem
    rcases hmem with rfl | rfl
    · exact hsign
    · exact htext c hd
  · rw [List.mem_singleton.mp hmem]
    exact htext d hd

theorem singleInside_eq_ofChars (indent : Nat) :
    singleInside indent false text = ofChars (guarded needsQuote '\'' text) := by
  induction text with
  | nil => rfl
  | cons c rest ih =>
    have hbreak := isWrittenBreak_of_isInline (htext c List.mem_cons_self)
    have hrest := ih fun d hd => htext d (List.mem_cons_of_mem c hd)
    rw [singleInside, hbreak, hrest, guarded_cons, ofChars_append]
    by_cases hc : c = '\''
    · subst hc
      rfl
    · simp [hc, needsQuote, ofChars]

omit htext in
theorem escapeChar_eq_ofChars {c : Char} (hc : isInline c = true) :
    escapeChar c = ofChars (if needsBackslash c then ['\\', c] else [c]) := by
  by_cases hneeds : needsBackslash c = true
  · rcases (by simpa [needsBackslash] using hneeds : c = '"' ∨ c = '\\') with rfl | rfl <;> rfl
  · have hneeds' : c ≠ '"' ∧ c ≠ '\\' := by simpa [needsBackslash] using hneeds
    have hne {d : Char} : isInline d = false → c ≠ d := ne_of_isInline hc
    have hletter : escapeLetter? c = none := by
      simp [escapeLetter?, hneeds', hne (d := '\x00') rfl, hne (d := '\x07') rfl,
        hne (d := '\x08') rfl, hne (d := '\t') rfl, hne (d := '\n') rfl, hne (d := '\x0b') rfl,
        hne (d := '\x0c') rfl, hne (d := '\r') rfl, hne (d := '\x1b') rfl,
        hne (d := '\u0085') rfl, hne (d := '\u2028') rfl, hne (d := '\u2029') rfl]
    have hprintable : isPrintable c = true := (Bool.and_eq_true_iff.mp hc).1
    simp [escapeChar, hletter, hprintable, hneeds, ofChars]

/-- **What the writer makes of a text** that stands in one line. -/
theorem styled_eq_ofChars (indent : Nat) {style : Style} (hstyle : style ≠ .literal) :
    styled indent style text = ofChars (written style text ++ ['\n']) := by
  have hends : endsLine style text = false := by simp [endsLine, hstyle]
  rw [ofChars_append]
  simp only [styled, hends]
  cases style with
  | plain => rfl
  | single =>
    simp only [singleInside_eq_ofChars htext, written, ofChars_append]
    rfl
  | double =>
    have hinside : text.flatMap escapeChar = ofChars (guarded needsBackslash '\\' text) := by
      rw [ofChars, guarded, List.flatMap_assoc]
      exact List.flatMap_congr fun c hc => escapeChar_eq_ofChars (htext c hc)
    simp only [hinside, written, ofChars_append]
    rfl
  | literal => exact absurd rfl hstyle

end Writing

/-! ## Between quotes -/

section Quoted

variable {c : Char} (hc : isInline c = true) {column : Nat} (hcolumn : 0 < column)
  (done blanks : List Char) (length : Nat) (rest : List Char)

/-! What each reader does with one character: a blank waits, another character takes the blanks
before it along. -/

theorem singleLoop_blank :
    singleLoop column done (.blanks blanks) length (' ' :: rest)
      = singleLoop (column + 1) done (.blanks (' ' :: blanks)) (length + 1) rest := by
  rw [singleLoop.eq_def]
  rfl

include hcolumn in
theorem singleLoop_quote :
    singleLoop column done (.blanks blanks) length ('\'' :: '\'' :: rest)
      = singleLoop (column + 2) ('\'' :: (blanks ++ done)) (.blanks []) (length + 2) rest := by
  rw [singleLoop.eq_def]
  simp [isBlank, isBreak, hcolumn.ne', Pending.joined, Pending.nothing]

include hc hcolumn in
theorem singleLoop_char (hblank : c ≠ ' ') (hquote : c ≠ '\'') :
    singleLoop column done (.blanks blanks) length (c :: rest)
      = singleLoop (column + 1) (c :: (blanks ++ done)) (.blanks []) (length + 1) rest := by
  rw [singleLoop.eq_def]
  simp [isBlank_of_isInline hc, isBreak_of_isInline hc, hblank, hquote, hcolumn.ne',
    Pending.joined, Pending.nothing]

include hcolumn in
theorem singleLoop_end :
    singleLoop column done (.blanks blanks) length ('\'' :: '\n' :: rest)
      = some { text := (blanks ++ done).reverse, length := length + 1 } := by
  rw [singleLoop.eq_def]
  simp [isBlank, isBreak, hcolumn.ne', Pending.joined]

theorem doubleLoop_blank :
    doubleLoop 0 column done (.blanks blanks) length (' ' :: rest)
      = doubleLoop 0 (column + 1) done (.blanks (' ' :: blanks)) (length + 1) rest := by
  rw [doubleLoop.eq_def]
  rfl

include hcolumn in
theorem doubleLoop_escape (hneeds : needsBackslash c = true) :
    doubleLoop 0 column done (.blanks blanks) length ('\\' :: c :: rest)
      = doubleLoop 0 (column + 2) (c :: (blanks ++ done)) (.blanks []) (length + 2) rest := by
  have hsign : isBlank '\\' = false ∧ isBreak '\\' = false := ⟨rfl, rfl⟩
  have hescape : isBreak c = false ∧ escape? c rest = some (c, 0) := by
    rcases (by simpa [needsBackslash] using hneeds : c = '"' ∨ c = '\\') with rfl | rfl <;>
      exact ⟨rfl, rfl⟩
  rw [doubleLoop.eq_def]
  simp [hsign.1, hsign.2, hcolumn.ne', hescape.1, hescape.2, Pending.joined, Pending.nothing]

include hc hcolumn in
theorem doubleLoop_char (hblank : c ≠ ' ') (hneeds : needsBackslash c = false) :
    doubleLoop 0 column done (.blanks blanks) length (c :: rest)
      = doubleLoop 0 (column + 1) (c :: (blanks ++ done)) (.blanks []) (length + 1) rest := by
  have hplain : c ≠ '"' ∧ c ≠ '\\' := by simpa [needsBackslash] using hneeds
  rw [doubleLoop.eq_def]
  simp [isBlank_of_isInline hc, isBreak_of_isInline hc, hblank, hplain.1, hplain.2, hcolumn.ne',
    Pending.joined, Pending.nothing]

include hcolumn in
theorem doubleLoop_end :
    doubleLoop 0 column done (.blanks blanks) length ('"' :: rest)
      = some { text := (blanks ++ done).reverse, length := length + 1 } := by
  rw [doubleLoop.eq_def]
  simp [isBlank, isBreak, hcolumn.ne', Pending.joined]

end Quoted

section Guarded

variable {text : List Char} (htext : ∀ c ∈ text, isInline c = true) {column : Nat}
  (hcolumn : 0 < column)

include htext hcolumn

theorem singleLoop_guarded (done blanks : List Char) (length : Nat) (more : List Char) :
    singleLoop column done (.blanks blanks) length
        (guarded needsQuote '\'' text ++ '\'' :: '\n' :: more)
      = some { text := (blanks ++ done).reverse ++ text
               length := length + (guarded needsQuote '\'' text).length + 1 } := by
  -- the blanks that wait are part of what was read, so they are generalized along with it
  induction text generalizing column done blanks length with
  | nil =>
    rw [guarded, List.flatMap_nil, List.nil_append, singleLoop_end hcolumn, List.append_nil]
    rfl
  | cons c rest ih =>
    have hc := htext c List.mem_cons_self
    have hrest : ∀ d ∈ rest, isInline d = true := fun d hd => htext d (List.mem_cons_of_mem c hd)
    rw [guarded_cons]
    -- a quote is read as a pair, a blank waits, and any other character is taken as it is
    by_cases hquote : needsQuote c = true
    · obtain rfl : c = '\'' := by simpa [needsQuote] using hquote
      rw [if_pos hquote, List.append_assoc, List.cons_append, List.cons_append, List.nil_append,
        singleLoop_quote hcolumn, ih hrest (by omega)]
      simp
      omega
    · rw [if_neg hquote, List.append_assoc, List.cons_append, List.nil_append]
      by_cases hblank : c = ' '
      · rw [hblank, singleLoop_blank, ih hrest (by omega)]
        simp
        omega
      · rw [singleLoop_char hc hcolumn _ _ _ _ hblank (by simpa [needsQuote] using hquote),
          ih hrest (by omega)]
        simp
        omega

/-- **A text between single quotes is read back.** -/
theorem singleQuoted?_guarded (more : List Char) :
    singleQuoted? column (guarded needsQuote '\'' text ++ '\'' :: '\n' :: more)
      = some { text, length := (guarded needsQuote '\'' text).length + 1 } := by
  rw [singleQuoted?, Pending.nothing, singleLoop_guarded htext hcolumn, Nat.zero_add]
  rfl

theorem doubleLoop_guarded (done blanks : List Char) (length : Nat) (more : List Char) :
    doubleLoop 0 column done (.blanks blanks) length
        (guarded needsBackslash '\\' text ++ '"' :: more)
      = some { text := (blanks ++ done).reverse ++ text
               length := length + (guarded needsBackslash '\\' text).length + 1 } := by
  induction text generalizing column done blanks length with
  | nil =>
    rw [guarded, List.flatMap_nil, List.nil_append, doubleLoop_end hcolumn, List.append_nil]
    rfl
  | cons c rest ih =>
    have hc := htext c List.mem_cons_self
    have hrest : ∀ d ∈ rest, isInline d = true := fun d hd => htext d (List.mem_cons_of_mem c hd)
    rw [guarded_cons]
    by_cases hneeds : needsBackslash c = true
    · rw [if_pos hneeds, List.append_assoc, List.cons_append, List.cons_append, List.nil_append,
        doubleLoop_escape hcolumn _ _ _ _ hneeds, ih hrest (by omega)]
      simp
      omega
    · rw [if_neg hneeds, List.append_assoc, List.cons_append, List.nil_append]
      by_cases hblank : c = ' '
      · rw [hblank, doubleLoop_blank, ih hrest (by omega)]
        simp
        omega
      · rw [doubleLoop_char hc hcolumn _ _ _ _ hblank (by simpa using hneeds),
          ih hrest (by omega)]
        simp
        omega

/-- **A text between double quotes is read back.** -/
theorem doubleQuoted?_guarded (more : List Char) :
    doubleQuoted? column (guarded needsBackslash '\\' text ++ '"' :: more)
      = some { text, length := (guarded needsBackslash '\\' text).length + 1 } := by
  rw [doubleQuoted?, Pending.nothing, doubleLoop_guarded htext hcolumn, Nat.zero_add]
  rfl

end Guarded

/-! ## Plain texts -/

/-- No character of the text is a sign where it stands, given the one before it. -/
def Unmarked : (before : Option Char) → List Char → Prop
  | _, [] => True
  | before, c :: rest => isIndicatorAt before c rest = false ∧ Unmarked (some c) rest

/-- **A text that can stand plain.** -/
structure Bare (text : List Char) : Prop where
  /-- There is something to read. -/
  ne_nil : text ≠ []
  /-- Nothing in it is taken for something else. -/
  unmarked : Unmarked none text
  /-- It does not begin with a space. -/
  head : text.head? ≠ some ' '
  /-- It does not end with one. -/
  last : text.getLast? ≠ some ' '

theorem unmarked_of_traitsLoop {before : Option Char} {traits : Traits} {text : List Char}
    (h : (traitsLoop before traits text).indicators = false) :
    traits.indicators = false ∧ Unmarked before text := by
  fun_induction traitsLoop before traits text with
  | case1 before traits => exact ⟨h, trivial⟩
  | case2 before traits c rest isEdge ih =>
    obtain ⟨hhere, hrest⟩ := ih h
    rw [Bool.or_eq_false_iff] at hhere
    exact ⟨hhere.1, hhere.2, hrest⟩

theorem ends_of_traitsLoop {before : Option Char} {traits : Traits} {text : List Char}
    (h : (traitsLoop before traits text).edge = false) :
    traits.edge = false ∧ (before = none → text.head? ≠ some ' ') ∧
      text.getLast? ≠ some ' ' := by
  fun_induction traitsLoop before traits text with
  | case1 before traits => exact ⟨h, fun _ => nofun, nofun⟩
  | case2 before traits c rest isEdge ih =>
    obtain ⟨hhere, -, hlast⟩ := ih h
    have hedge : isEdge = true → c ≠ ' ' := by
      rintro hedge rfl
      simp [hedge] at hhere
    rw [Bool.or_eq_false_iff] at hhere
    refine ⟨hhere.1, ?_, ?_⟩
    · rintro rfl hhead
      exact hedge rfl (Option.some.inj hhead)
    · cases rest with
      | nil => exact fun hc => hedge (by simp [isEdge]) (Option.some.inj hc)
      | cons d rest => rwa [List.getLast?_cons_cons]

/-- **A text with the traits of a plain one can stand plain.** -/
theorem bare_of_plainAllowed {text : List Char} (hne : text ≠ [])
    (h : (Traits.of text).plainAllowed = true) : Bare text := by
  simp only [Traits.plainAllowed, Bool.not_eq_true', Bool.or_eq_false_iff] at h
  obtain ⟨-, hhead, hlast⟩ := ends_of_traitsLoop h.1.1.1.1.1.1
  exact ⟨hne, (unmarked_of_traitsLoop h.2).2, hhead rfl, hlast⟩

section Plain

variable {c : Char} {indent : Int} {column : Nat} (done blanks : List Char) (length : Nat)
  (rest : List Char)

theorem plainLoop_blank :
    plainLoop false indent column done (.blanks blanks) length (' ' :: rest)
      = plainLoop false indent (column + 1) done (.blanks (' ' :: blanks)) (length + 1) rest := by
  rw [plainLoop]
  rfl

theorem plainLoop_char (hblank : isBlank c = false) (hbreak : isBreak c = false)
    (hends : endsPlain false indent column (.blanks blanks) c rest = false) :
    plainLoop false indent column done (.blanks blanks) length (c :: rest)
      = plainLoop false indent (column + 1) (c :: (blanks ++ done)) (.blanks []) (length + 1)
          rest := by
  rw [plainLoop, hblank, hbreak, hends]
  rfl

theorem plainLoop_newline :
    plainLoop false indent column done (.blanks blanks) length ('\n' :: rest)
      = plainLoop false indent 0 done (.breaks (some '\n') []) (length + 1) rest := by
  rw [plainLoop]
  rfl

/-- **The end of a plain scalar**: the indentation of a line that is not indented deep enough. -/
theorem plainLoop_indentation {m : Nat} {first : Option Char} (hindent : (column + m : Nat) < indent)
    (hrest : ∀ c ∈ rest.head?, isBlank c = false ∧ isBreak c = false) :
    plainLoop false indent column done (.breaks first []) length (List.replicate m ' ' ++ rest)
      = some ⟨done.reverse, length + m, true⟩ := by
  induction m generalizing column length with
  | zero =>
    cases rest with
    | nil => rfl
    | cons c rest =>
      obtain ⟨hblank, hbreak⟩ := hrest c rfl
      have hends : endsPlain false indent column (.breaks first []) c rest = true := by
        have hcolumn : (column : Int) < indent := by simpa using hindent
        simp [endsPlain, Pending.isOpen, hcolumn]
      rw [List.replicate_zero, List.nil_append, plainLoop, hblank, hbreak, hends]
      rfl
  | succ m ih =>
    rw [List.replicate_succ, List.cons_append, plainLoop]
    have htail : plainLoop false indent (column + 1) done (.breaks first []) (length + 1)
        (List.replicate m ' ' ++ rest) = some ⟨done.reverse, length + 1 + m, true⟩ :=
      ih (length + 1) (by omega)
    simp only [isBlank, Pending.isFolded, Pending.blank]
    simpa [Nat.add_assoc, Nat.add_comm 1] using htail

end Plain

/-- A gap in a line: nothing follows, or a blank does. -/
theorem atGap_append_newline {text : List Char} (htext : ∀ c ∈ text, isInline c = true)
    (more : List Char) :
    atGap (text ++ '\n' :: more) = (text.isEmpty || text.head?.any isBlank) := by
  cases text with
  | nil => rfl
  | cons c rest => simp [atGap, isBreak_of_isInline (htext c List.mem_cons_self)]

/-- **A plain scalar does not end in an unmarked text**: blanks are open only after a blank, where
no number sign stands, and no colon stands before a gap. -/
theorem endsPlain_of_unmarked {indent : Int} {column : Nat} {blanks text : List Char}
    {before : Option Char} {c : Char} (hcolumn : 0 < column) (hindent : indent ≤ column)
    (htext : ∀ d ∈ text, isInline d = true) (hblanks : blanks ≠ [] → before = some ' ')
    (hmark : isIndicatorAt before c text = false) (more : List Char) :
    endsPlain false indent column (.blanks blanks) c (text ++ '\n' :: more) = false := by
  have hshallow : ¬ (column : Int) < indent := by omega
  have hgap : (c = ':' && (text.isEmpty || text.head?.any isBlank)) = false := by
    by_contra hcolon
    rw [Bool.not_eq_false, Bool.and_eq_true, decide_eq_true_eq] at hcolon
    obtain ⟨rfl, hfollows⟩ := hcolon
    cases before <;> simp_all [isIndicatorAt, isIndicatorAt.gapFollows]
  have hopen : (Pending.blanks blanks).isOpen = true → c ≠ '#' := by
    intro hopen hc
    rw [hblanks (by simpa [Pending.isOpen] using hopen)] at hmark
    simp [isIndicatorAt, hc, isBlank] at hmark
  simp only [endsPlain, atGap_append_newline htext, hgap]
  cases hopened : (Pending.blanks blanks).isOpen with
  | false => simp
  | true => simp [hshallow, hopen hopened, hcolumn.ne']

theorem plainLoop_unmarked {indent : Int} {column : Nat} {blanks text : List Char}
    {before : Option Char} (hcolumn : 0 < column) (hindent : indent ≤ column)
    (htext : ∀ d ∈ text, isInline d = true) (hblanks : blanks ≠ [] → before = some ' ')
    (hmark : Unmarked before text) (hlast : (text.reverse ++ blanks).head? ≠ some ' ')
    (hspaces : ∀ b ∈ blanks, b = ' ') (done : List Char) (length : Nat) (more : List Char) :
    plainLoop false indent column done (.blanks blanks) length (text ++ '\n' :: more)
      = plainLoop false indent 0 (text.reverse ++ blanks ++ done) (.breaks (some '\n') [])
          (length + text.length + 1) more := by
  induction text generalizing column blanks before done length with
  | nil =>
    have hnil : blanks = [] := by
      cases blanks with
      | nil => rfl
      | cons b rest => exact absurd (congrArg some (hspaces b List.mem_cons_self)) hlast
    subst hnil
    exact plainLoop_newline done [] length more
  | cons c rest ih =>
    have hc := htext c List.mem_cons_self
    have hrest : ∀ d ∈ rest, isInline d = true := fun d hd => htext d (List.mem_cons_of_mem c hd)
    rw [List.reverse_cons, List.append_assoc, List.singleton_append] at hlast
    by_cases hblank : c = ' '
    · subst hblank
      rw [List.cons_append, plainLoop_blank, ih (by omega) (by omega) hrest (fun _ => rfl) hmark.2
        hlast (by simpa using hspaces)]
      simp [Nat.add_assoc, Nat.add_comm 1]
    · have hends := endsPlain_of_unmarked hcolumn hindent hrest hblanks hmark.1 more
      have hlast' : (rest.reverse ++ []).head? ≠ some ' ' := by
        rw [List.append_nil]
        cases hreverse : rest.reverse with
        | nil => nofun
        | cons d before => rwa [hreverse] at hlast
      rw [List.cons_append,
        plainLoop_char _ _ _ _ (by simpa [isBlank_of_isInline hc] using hblank)
          (isBreak_of_isInline hc) hends,
        ih (by omega) (by omega) hrest (fun h => absurd rfl h) hmark.2 hlast' (fun _ => nofun)]
      simp [Nat.add_assoc, Nat.add_comm 1]

/-- **A plain text is read back**, with the end of its line and the indentation of the next. -/
theorem plain?_of_bare {indent : Int} {column m : Nat} {text rest : List Char} (hbare : Bare text)
    (htext : ∀ d ∈ text, isInline d = true) (hcolumn : 0 < column) (hindent : indent ≤ column)
    (hm : (m : Int) < indent)
    (hrest : ∀ c ∈ rest.head?, isBlank c = false ∧ isBreak c = false) :
    plain? false indent column (text ++ '\n' :: (List.replicate m ' ' ++ rest))
      = some ⟨text, text.length + 1 + m, true⟩ := by
  have hlast : (text.reverse ++ []).head? ≠ some ' ' := by
    rw [List.append_nil, List.head?_reverse]
    exact hbare.last
  rw [plain?, Pending.nothing, plainLoop_unmarked hcolumn hindent htext (fun h => absurd rfl h)
    hbare.unmarked hlast (fun _ => nofun), plainLoop_indentation _ _ _ (by simpa using hm) hrest]
  simp

/-! ## Words -/

/-- A character of a word. -/
def isWordChar (c : Char) : Bool :=
  c.isAlpha || c = '_'

theorem ne_of_isWordChar {c d : Char} (h : isWordChar c = true) (hd : isWordChar d = false) :
    c ≠ d := by
  rintro rfl
  rw [h] at hd
  cases hd

theorem toNat_of_isWordChar {c : Char} (h : isWordChar c = true) :
    0x20 ≤ c.toNat ∧ c.toNat ≤ 0x7E := by
  have hcases : (decide ('A'.val ≤ c.val ∧ c.val ≤ 'Z'.val)
      || (decide ('a'.val ≤ c.val) && decide (c.val ≤ 'z'.val)) || decide (c = '_')) = true := h
  simp only [Bool.or_eq_true, Bool.and_eq_true, decide_eq_true_eq, UInt32.le_iff_toNat_le]
    at hcases
  have htoNat : c.toNat = c.val.toNat := rfl
  rcases hcases with (hupper | hlower) | rfl
  · simp at hupper
    omega
  · simp at hlower
    omega
  · exact ⟨by decide, by decide⟩

theorem isInline_of_isWordChar {c : Char} (h : isWordChar c = true) : isInline c = true :=
  isInline_of_toNat (toNat_of_isWordChar h)

theorem isBlank_of_isWordChar {c : Char} (h : isWordChar c = true) : isBlank c = false := by
  rw [isBlank_of_isInline (isInline_of_isWordChar h)]
  exact decide_eq_false (ne_of_isWordChar h rfl)

theorem isBreak_of_isWordChar {c : Char} (h : isWordChar c = true) : isBreak c = false :=
  isBreak_of_isInline (isInline_of_isWordChar h)

theorem plainLoop_word {indent : Int} {column : Nat} {key after : List Char}
    (hkey : ∀ c ∈ key, isWordChar c = true) (hafter : atGap after = true) (done : List Char)
    (length : Nat) :
    plainLoop false indent column done (.blanks []) length (key ++ ':' :: after)
      = some ⟨done.reverse ++ key, length + key.length, false⟩ := by
  induction key generalizing column done length with
  | nil =>
    have hends : endsPlain false indent column (.blanks []) ':' after = true := by
      simp [endsPlain, hafter]
    rw [List.nil_append, plainLoop, hends]
    simp [isBlank, isBreak, Pending.isFolded]
  | cons c rest ih =>
    have hc := hkey c List.mem_cons_self
    have hends : endsPlain false indent column (.blanks []) c (rest ++ ':' :: after) = false := by
      simp [endsPlain, Pending.isOpen, ne_of_isWordChar hc (d := ':') rfl]
    rw [List.cons_append, plainLoop_char _ _ _ _ (isBlank_of_isWordChar hc)
      (isBreak_of_isWordChar hc) hends, ih fun d hd => hkey d (List.mem_cons_of_mem c hd)]
    simp [Nat.add_assoc, Nat.add_comm 1]

/-- **A word is read as a key** up to its colon. -/
theorem plain?_of_word {indent : Int} {column : Nat} {key after : List Char}
    (hkey : ∀ c ∈ key, isWordChar c = true) (hafter : atGap after = true) :
    plain? false indent column (key ++ ':' :: after) = some ⟨key, key.length, false⟩ := by
  rw [plain?, Pending.nothing, plainLoop_word hkey hafter]
  simp

end Linewise.Yaml

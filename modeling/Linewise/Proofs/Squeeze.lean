import Mathlib.Data.List.Chain
import Linewise.Proofs.Runes

/-!
# Squeezed lines

A squeezed line has the fields of the line it was made of, and is determined by them. The
point is that taking blanks out of a text and putting spaces between what is left does not
change how the bytes around them are read. A character is read from its own bytes. A stray
byte might become the start of a character, by what follows it, but neither by less nor by
an ASCII byte. So the runes of a squeezed line are those of the fields with single spaces
between them.

## Main definitions

* `Readable rs`: the runes are read back from their spellings
* `Separated rs runs`: the maximal runs of a row of runes that are not blank
* `Squeezed line`: the canonical form, in which blanks are single spaces between fields

## Main results

* `runes_append_ascii`: runes do not reach past an ASCII byte
* `Readable.of_append`, `Readable.append_space`: parts of a text, and parts with a space between
* `Separated.runsOf_eq`, `exists_separated`: the fields of a line are its maximal runs
* `fields_squeeze`, `squeezed_squeeze`: the fields of a squeezed line, and its form
* `squeeze_canonical`: all of it
-/

namespace Linewise

/-! ## Parts of a text -/

namespace Rune

variable {b : UInt8} {rest more : Bytes}

theorem first_append_of_char {c : Char} (h : first b rest = char c) (more : Bytes) :
    first b (rest ++ more) = char c := by
  obtain ⟨tail, htail⟩ := exists_of_first_eq_char h
  obtain ⟨b', tail', hspelt, hfirst⟩ := first_utf8EncodeChar c (tail ++ more)
  rw [hspelt, List.cons_append, List.cons.injEq] at htail
  obtain ⟨rfl, rfl⟩ := htail
  rwa [List.append_assoc]

/-- A stray byte stays one when less follows it. -/
theorem first_of_append_stray (h : first b (rest ++ more) = stray b) :
    first b rest = stray b := by
  rcases first_eq_char_or_stray b rest with ⟨c, hc⟩ | hstray
  · rw [first_append_of_char hc] at h
    cases h
  · exact hstray

theorem first_ne_of_stray (h : first b rest = stray b) (c : Char) (part : Bytes) :
    b :: rest ≠ String.utf8EncodeChar c ++ part := by
  intro hspelt
  obtain ⟨b', tail, htail, hfirst⟩ := first_utf8EncodeChar c part
  rw [htail, List.cons_append, List.cons.injEq] at hspelt
  obtain ⟨rfl, rfl⟩ := hspelt
  rw [hfirst] at h
  cases h

/-- A stray byte stays one when an ASCII byte comes after all that follows it. -/
theorem first_append_of_stray (h : first b rest = stray b) (hmore : ∀ a ∈ more.head?, a < 0x80) :
    first b (rest ++ more) = stray b := by
  rcases first_eq_char_or_stray b (rest ++ more) with ⟨c, hc⟩ | hstray
  swap
  · exact hstray
  obtain ⟨tail, htail⟩ := exists_of_first_eq_char hc
  rw [← List.cons_append] at htail
  rcases List.append_eq_append_iff.mp htail with ⟨part, hpart, hmore'⟩ | ⟨part, hpart, -⟩
  swap
  · exact absurd hpart (first_ne_of_stray h c part)
  cases part with
  | nil =>
    rw [List.append_nil] at hpart
    exact absurd (hpart.symm.trans (List.append_nil _).symm) (first_ne_of_stray h c [])
  | cons a part =>
    have ha : a < 0x80 := hmore a (by rw [hmore']; rfl)
    have hlow : a.toNat < 0x80 := UInt8.lt_iff_toNat_lt.mp ha
    have hcode : c.toNat = a.toNat := toNat_eq_of_mem_utf8EncodeChar (by simp [hpart]) hlow
    rw [utf8EncodeChar_ascii (by omega)] at hpart
    have hlength := congrArg List.length hpart
    simp at hlength

end Rune

/-- A text is read rune by rune. -/
theorem runesLoop_done (done : List Rune) (skip : Nat) (text : Bytes) :
    runesLoop done skip text = done.reverse ++ runesLoop [] skip text := by
  induction text generalizing done skip with
  | nil => simp [runesLoop]
  | cons b rest ih =>
    cases skip with
    | succ skip => exact ih done skip
    | zero =>
      rw [runesLoop, runesLoop, ih (Rune.first b rest :: done), ih [Rune.first b rest]]
      simp

theorem runes_char_append (c : Char) (text : Bytes) :
    runes ((Rune.char c).bytes ++ text) = .char c :: runes text := by
  obtain ⟨b, tail, hspelt, hfirst⟩ := Rune.first_utf8EncodeChar c text
  have hlength : (Rune.char c).bytes.length - 1 = tail.length := by
    rw [Rune.bytes, hspelt, List.length_cons, Nat.add_sub_cancel]
  rw [Rune.bytes, hspelt, List.cons_append, runes, runesLoop, hfirst, hlength, runesLoop_skip,
    runesLoop_done]
  rfl

theorem runes_stray_append {b : UInt8} {text : Bytes} (h : Rune.first b text = .stray b) :
    runes (b :: text) = .stray b :: runes text := by
  rw [runes, runesLoop, h, runesLoop_done]
  rfl

/-- **Induction along the runes of a text.** -/
theorem runes_induction {motive : Bytes → Prop} (nil : motive [])
    (char : ∀ c text, motive text → motive ((Rune.char c).bytes ++ text))
    (stray : ∀ b text, Rune.first b text = .stray b → motive text → motive (b :: text))
    (text : Bytes) : motive text := by
  induction hlength : text.length using Nat.strongRecOn generalizing text with
  | _ n ih =>
    cases text with
    | nil => exact nil
    | cons b rest =>
      rcases Rune.first_eq_char_or_stray b rest with ⟨c, hc⟩ | hstray
      · obtain ⟨tail, htail⟩ := Rune.exists_of_first_eq_char hc
        have hpos : 0 < (String.utf8EncodeChar c).length := by
          rw [String.length_utf8EncodeChar]
          exact Char.utf8Size_pos c
        have hshorter : tail.length < n := by
          rw [← hlength, htail, List.length_append]
          omega
        rw [htail]
        exact char c tail (ih _ hshorter tail rfl)
      · have hshorter : rest.length < n := hlength ▸ Nat.lt_succ_self rest.length
        exact stray b rest hstray (ih _ hshorter rest rfl)

/-- **Runes do not reach past an ASCII byte**, whatever stands before it. -/
theorem runes_append_ascii (text : Bytes) {more : Bytes} (hmore : ∀ a ∈ more.head?, a < 0x80) :
    runes (text ++ more) = runes text ++ runes more := by
  induction text using runes_induction with
  | nil => rfl
  | char c text ih =>
    rw [List.append_assoc, runes_char_append, runes_char_append, ih, List.cons_append]
  | stray b text hstray ih =>
    rw [List.cons_append, runes_stray_append (Rune.first_append_of_stray hstray hmore),
      runes_stray_append hstray, ih, List.cons_append]

/-- The runes are read back from their spellings. -/
def Readable (rs : List Rune) : Prop :=
  runes (ofRunes rs) = rs

theorem readable_runes (text : Bytes) : Readable (runes text) := by
  unfold Readable
  rw [ofRunes_runes]

@[simp] theorem ofRunes_append (rs more : List Rune) :
    ofRunes (rs ++ more) = ofRunes rs ++ ofRunes more :=
  List.flatMap_append

/-- **Parts of what is readable are readable**: what is taken off the end could only have made a
character of a stray byte, and what is taken off the front has no say. -/
theorem Readable.of_append {rs more : List Rune} (h : Readable (rs ++ more)) :
    Readable rs ∧ Readable more := by
  induction rs with
  | nil => exact ⟨rfl, h⟩
  | cons r rs ih =>
    cases r with
    | char c =>
      have hrest : Readable (rs ++ more) := by
        have hall :
            runes ((Rune.char c).bytes ++ ofRunes (rs ++ more)) = .char c :: (rs ++ more) := h
        rw [runes_char_append] at hall
        exact (List.cons.inj hall).2
      obtain ⟨hrs, hmore⟩ := ih hrest
      refine ⟨?_, hmore⟩
      change runes ((Rune.char c).bytes ++ ofRunes rs) = .char c :: rs
      rw [runes_char_append, hrs]
    | stray b =>
      have hall : runes (b :: ofRunes (rs ++ more)) = .stray b :: (rs ++ more) := h
      have hstray : Rune.first b (ofRunes (rs ++ more)) = .stray b := by
        rw [runes, runesLoop, runesLoop_done] at hall
        exact (List.cons.inj hall).1
      have hrest : Readable (rs ++ more) := by
        rw [runes_stray_append hstray] at hall
        exact (List.cons.inj hall).2
      obtain ⟨hrs, hmore⟩ := ih hrest
      refine ⟨?_, hmore⟩
      change runes (b :: ofRunes rs) = .stray b :: rs
      rw [ofRunes_append] at hstray
      rw [runes_stray_append (Rune.first_of_append_stray hstray), hrs]

/-- The rune of a space. -/
def Rune.space : Rune := .char ' '

theorem Readable.append_space {rs more : List Rune} (h : Readable rs) (hmore : Readable more) :
    Readable (rs ++ Rune.space :: more) := by
  have hspelt : ofRunes (rs ++ Rune.space :: more)
      = ofRunes rs ++ (Rune.space.bytes ++ ofRunes more) := ofRunes_append rs (Rune.space :: more)
  have hascii : ∀ a ∈ (Rune.space.bytes ++ ofRunes more).head?, a < 0x80 := by
    rintro a ⟨⟩
    decide
  unfold Readable
  rw [hspelt, runes_append_ascii _ hascii, Rune.space, runes_char_append, h, hmore]

/-! ## Runs -/

/-- The runs of runes that are not blank, in a row of runes. -/
def runsOf (rs : List Rune) : List (List Rune) :=
  (rs.splitOnP Rune.isBlank).filter fun run => !run.isEmpty

theorem fields_eq (line : Bytes) : fields line = (runsOf (runes line)).map ofRunes :=
  rfl

/-- **Runs are split at a blank.** -/
theorem runsOf_append_blank {r : Rune} (hr : r.isBlank = true) (rs more : List Rune) :
    runsOf (rs ++ r :: more) = runsOf rs ++ runsOf more := by
  unfold runsOf
  rw [List.splitOnP_append_cons rs more hr, List.filter_append]

/-- **The maximal runs of runes that are not blank**: blanks stand before and after each of them,
unless the row begins or ends there. -/
inductive Separated : List Rune → List (List Rune) → Prop where
  /-- All runes are blank. -/
  | blank (gap : List Rune) : (∀ r ∈ gap, r.isBlank = true) → Separated gap []
  /-- After a gap, which may be empty, comes a run, and then a blank or nothing. -/
  | run (gap run rest : List Rune) (runs : List (List Rune)) :
    (∀ r ∈ gap, r.isBlank = true) → run ≠ [] → (∀ r ∈ run, r.isBlank = false) →
    (∀ r ∈ rest.head?, r.isBlank = true) → Separated rest runs →
    Separated (gap ++ run ++ rest) (run :: runs)

theorem runsOf_gap {gap : List Rune} (h : ∀ r ∈ gap, r.isBlank = true) (rs : List Rune) :
    runsOf (gap ++ rs) = runsOf rs := by
  induction gap with
  | nil => rfl
  | cons r gap ih =>
    obtain ⟨hr, hgap⟩ := List.forall_mem_cons.mp h
    have hfirst : runsOf (r :: (gap ++ rs)) = runsOf [] ++ runsOf (gap ++ rs) :=
      runsOf_append_blank hr [] (gap ++ rs)
    rw [List.cons_append, hfirst, ih hgap]
    rfl

theorem runsOf_run {run : List Rune} (hne : run ≠ []) (h : ∀ r ∈ run, r.isBlank = false) :
    runsOf run = [run] := by
  unfold runsOf
  rw [List.splitOnP_eq_singleton fun r hr => by simp [h r hr]]
  simp [hne]

/-- **A row of runes has one list of maximal runs.** -/
theorem Separated.runsOf_eq {rs : List Rune} {runs : List (List Rune)} (h : Separated rs runs) :
    runsOf rs = runs := by
  induction h with
  | blank gap hgap => simpa [runsOf] using runsOf_gap hgap []
  | run gap run rest runs hgap hne hrun hrest _ ih =>
    rw [List.append_assoc, runsOf_gap hgap]
    cases rest with
    | nil => rw [List.append_nil, runsOf_run hne hrun, ← ih]; rfl
    | cons r rest =>
      have hr : r.isBlank = true := hrest r rfl
      rw [runsOf_append_blank hr, runsOf_run hne hrun, ← ih]
      exact congrArg (run :: ·) (runsOf_append_blank hr [] rest).symm

theorem Separated.cons_blank {r : Rune} {rs : List Rune} {runs : List (List Rune)}
    (h : Separated rs runs) (hr : r.isBlank = true) : Separated (r :: rs) runs := by
  cases h with
  | blank gap hgap => exact .blank (r :: rs) (List.forall_mem_cons.mpr ⟨hr, hgap⟩)
  | run gap run rest runs hgap hne hrun hrest h =>
    exact .run (r :: gap) run rest runs (List.forall_mem_cons.mpr ⟨hr, hgap⟩) hne hrun hrest h

/-- **Every row of runes has its maximal runs.** -/
theorem exists_separated (rs : List Rune) : ∃ runs, Separated rs runs := by
  induction rs with
  | nil => exact ⟨[], .blank [] (by simp)⟩
  | cons r rs ih =>
    obtain ⟨runs, h⟩ := ih
    by_cases hr : r.isBlank = true
    · exact ⟨runs, h.cons_blank hr⟩
    have hsolid : r.isBlank = false := by simpa using hr
    have halone : ∀ s ∈ [r], s.isBlank = false := by simpa using hsolid
    cases h with
    | blank gap hgap =>
      refine ⟨[[r]], .run [] [r] rs [] (by simp) (by simp) halone ?_ (.blank rs hgap)⟩
      exact fun s hs => hgap s (List.mem_of_mem_head? hs)
    | run gap run rest runs hgap hne hrun hrest h =>
      cases gap with
      | nil =>
        refine ⟨(r :: run) :: runs, .run [] (r :: run) rest runs (by simp) (by simp) ?_ hrest h⟩
        exact List.forall_mem_cons.mpr ⟨hsolid, hrun⟩
      | cons s gap =>
        refine ⟨[r] :: run :: runs, .run [] [r] _ _ (by simp) (by simp) halone ?_
          (.run (s :: gap) run rest runs hgap hne hrun hrest h)⟩
        rintro _ ⟨⟩
        exact hgap s List.mem_cons_self

theorem Separated.solid {rs : List Rune} {runs : List (List Rune)} (h : Separated rs runs) :
    ∀ run ∈ runs, run ≠ [] ∧ ∀ r ∈ run, r.isBlank = false := by
  induction h with
  | blank gap hgap => simp
  | run gap run rest runs _ hne hrun _ _ ih => exact List.forall_mem_cons.mpr ⟨⟨hne, hrun⟩, ih⟩

theorem Separated.readable {rs : List Rune} {runs : List (List Rune)} (h : Separated rs runs)
    (hrs : Readable rs) : ∀ run ∈ runs, Readable run := by
  induction h with
  | blank gap hgap => simp
  | run gap run rest runs _ _ _ _ _ ih =>
    obtain ⟨hfront, hrest⟩ := hrs.of_append
    exact List.forall_mem_cons.mpr ⟨hfront.of_append.2, ih hrest⟩

/-! ## Runs with spaces between them -/

/-- The runs with one space between them. -/
def spaced (runs : List (List Rune)) : List Rune :=
  [Rune.space].intercalate runs

@[simp] theorem spaced_singleton (run : List Rune) : spaced [run] = run :=
  List.intercalate_singleton

theorem spaced_cons_cons (run next : List Rune) (runs : List (List Rune)) :
    spaced (run :: next :: runs) = run ++ Rune.space :: spaced (next :: runs) := by
  unfold spaced
  rw [List.intercalate_cons_cons]
  simp

theorem ofRunes_spaced (runs : List (List Rune)) :
    ofRunes (spaced runs) = Bytes.join [Bytes.space] (runs.map ofRunes) := by
  induction runs with
  | nil => rfl
  | cons run runs ih =>
    cases runs with
    | nil => simp [Bytes.join]
    | cons next runs =>
      rw [spaced_cons_cons, ofRunes_append, List.map_cons, List.map_cons, Bytes.join,
        List.intercalate_cons_cons, List.append_assoc]
      exact congrArg (fun more => ofRunes run ++ Bytes.space :: more) ih

section Spaced

variable {runs : List (List Rune)}

theorem readable_spaced (h : ∀ run ∈ runs, Readable run) : Readable (spaced runs) := by
  induction runs with
  | nil => rfl
  | cons run runs ih =>
    obtain ⟨hrun, hruns⟩ := List.forall_mem_cons.mp h
    cases runs with
    | nil => rwa [spaced_singleton]
    | cons next runs =>
      rw [spaced_cons_cons]
      exact hrun.append_space (ih hruns)

variable (h : ∀ run ∈ runs, run ≠ [] ∧ ∀ r ∈ run, r.isBlank = false)

include h

theorem separated_spaced : Separated (spaced runs) runs := by
  induction runs with
  | nil => exact .blank [] (by simp)
  | cons run runs ih =>
    obtain ⟨⟨hne, hrun⟩, hruns⟩ := List.forall_mem_cons.mp h
    cases runs with
    | nil =>
      have hlast := Separated.run [] run [] [] (by simp) hne hrun (by simp) (.blank [] (by simp))
      simpa using hlast
    | cons next runs =>
      rw [spaced_cons_cons]
      refine .run [] run (Rune.space :: spaced (next :: runs)) (next :: runs) (by simp) hne hrun ?_
        ((ih hruns).cons_blank rfl)
      rintro _ ⟨⟩
      rfl

theorem head?_spaced : ∀ r ∈ (spaced runs).head?, r.isBlank = false := by
  cases runs with
  | nil => nofun
  | cons run runs =>
    obtain ⟨⟨hne, hrun⟩, -⟩ := List.forall_mem_cons.mp h
    obtain ⟨r, run, rfl⟩ := List.exists_cons_of_ne_nil hne
    have hhead : (spaced ((r :: run) :: runs)).head? = some r := by
      cases runs with
      | nil => rw [spaced_singleton, List.head?_cons]
      | cons next runs => rw [spaced_cons_cons, List.cons_append, List.head?_cons]
    rw [hhead]
    rintro _ ⟨⟩
    exact hrun r List.mem_cons_self

theorem getLast?_spaced : ∀ r ∈ (spaced runs).getLast?, r.isBlank = false := by
  induction runs with
  | nil => nofun
  | cons run runs ih =>
    obtain ⟨⟨hne, hrun⟩, hruns⟩ := List.forall_mem_cons.mp h
    cases runs with
    | nil =>
      rw [spaced_singleton]
      exact fun r hr => hrun r (List.mem_of_getLast? hr)
    | cons next runs =>
      have hrest : spaced (next :: runs) ≠ [] := by
        intro hnil
        have hruns' := (separated_spaced hruns).runsOf_eq
        rw [hnil] at hruns'
        cases hruns'
      rw [spaced_cons_cons, List.getLast?_append_cons, List.getLast?_cons_of_ne_nil hrest]
      exact ih hruns

theorem isChain_spaced :
    (spaced runs).IsChain fun r s => r.isBlank = false ∨ s.isBlank = false := by
  induction runs with
  | nil => exact .nil
  | cons run runs ih =>
    obtain ⟨⟨hne, hrun⟩, hruns⟩ := List.forall_mem_cons.mp h
    have hsolid : run.IsChain fun r s => r.isBlank = false ∨ s.isBlank = false :=
      (List.pairwise_of_forall_mem_list fun r hr _ _ => .inl (hrun r hr)).isChain
    cases runs with
    | nil => rwa [spaced_singleton]
    | cons next runs =>
      rw [spaced_cons_cons, List.isChain_append, List.isChain_cons]
      refine ⟨hsolid, ⟨fun s hs => .inr (head?_spaced hruns s hs), ih hruns⟩, ?_⟩
      exact fun r hr _ _ => .inl (hrun r (List.mem_of_getLast? hr))

theorem mem_spaced {r : Rune} (hr : r ∈ spaced runs) : r.isBlank = true → r = Rune.space := by
  induction runs with
  | nil => cases hr
  | cons run runs ih =>
    obtain ⟨⟨-, hrun⟩, hruns⟩ := List.forall_mem_cons.mp h
    have hnot (hmem : r ∈ run) (hblank : r.isBlank = true) : r = Rune.space := by
      rw [hrun r hmem] at hblank
      cases hblank
    cases runs with
    | nil => exact hnot (by rwa [spaced_singleton] at hr)
    | cons next runs =>
      rw [spaced_cons_cons, List.mem_append, List.mem_cons] at hr
      rcases hr with hmem | rfl | hmem
      · exact hnot hmem
      · exact fun _ => rfl
      · exact ih hruns hmem

end Spaced

/-! ## Squeezed lines -/

/-- **A line in canonical form**: no blank at its ends, no two blanks in a row, and none but
spaces. -/
structure Squeezed (line : Bytes) : Prop where
  head : ∀ r ∈ (runes line).head?, r.isBlank = false
  last : ∀ r ∈ (runes line).getLast?, r.isBlank = false
  apart : (runes line).IsChain fun r s => r.isBlank = false ∨ s.isBlank = false
  space : ∀ r ∈ runes line, r.isBlank = true → r = Rune.space

theorem squeeze_of_separated {line : Bytes} {runs : List (List Rune)}
    (h : Separated (runes line) runs) : squeeze line = ofRunes (spaced runs) := by
  rw [ofRunes_spaced, ← h.runsOf_eq]
  rfl

/-- **The runes of a squeezed line** are the runs of the line, with one space between them. -/
theorem runes_squeeze {line : Bytes} {runs : List (List Rune)} (h : Separated (runes line) runs) :
    runes (squeeze line) = spaced runs := by
  rw [squeeze_of_separated h]
  exact readable_spaced (h.readable (readable_runes line))

/-- **Squeezing keeps the fields**, byte for byte. -/
theorem fields_squeeze (line : Bytes) : fields (squeeze line) = fields line := by
  obtain ⟨runs, h⟩ := exists_separated (runes line)
  rw [fields_eq, fields_eq, runes_squeeze h, (separated_spaced h.solid).runsOf_eq, h.runsOf_eq]

theorem squeezed_squeeze (line : Bytes) : Squeezed (squeeze line) := by
  obtain ⟨runs, h⟩ := exists_separated (runes line)
  have hrunes := runes_squeeze h
  constructor
  · rw [hrunes]
    exact head?_spaced h.solid
  · rw [hrunes]
    exact getLast?_spaced h.solid
  · rw [hrunes]
    exact isChain_spaced h.solid
  · rw [hrunes]
    exact fun r hr => mem_spaced h.solid hr

/-- **Squeezing computes a canonical form**, of any bytes. The fields of a line are its maximal runs
of runes that are not blank. The line that is squeezed has the same fields and is in canonical
form, squeezing it again changes nothing, and lines are squeezed alike just if they have the same
fields. -/
theorem squeeze_canonical (line : Bytes) :
    Transform.squeeze.apply line = .ok (squeeze line) ∧
      (∃ runs, Separated (runes line) runs ∧ fields line = runs.map ofRunes) ∧
      fields (squeeze line) = fields line ∧
      Squeezed (squeeze line) ∧
      squeeze (squeeze line) = squeeze line ∧
      ∀ other, squeeze line = squeeze other ↔ fields line = fields other := by
  refine ⟨rfl, ?_, fields_squeeze line, squeezed_squeeze line, ?_, fun other => ⟨?_, ?_⟩⟩
  · obtain ⟨runs, h⟩ := exists_separated (runes line)
    exact ⟨runs, h, by rw [fields_eq, h.runsOf_eq]⟩
  · rw [squeeze, fields_squeeze, ← squeeze]
  · intro h
    rw [← fields_squeeze line, h, fields_squeeze other]
  · intro h
    rw [squeeze, h, ← squeeze]

end Linewise

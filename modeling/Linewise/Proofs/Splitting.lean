import Linewise.Proofs.LineBuffer
import Linewise.Proofs.Window

/-!
# Lines split off one at a time

A scanner shows its splitter the bytes at hand, takes the token that comes back and moves on,
again and again. It relies on the splitter: an answer must not reach past the bytes at hand,
every token must use some of them up, and what was answered before more bytes arrived must
stay the answer. Cutting off a line does all this. The one byte that is looked at behind a
line is the line feed after a carriage return, and where that byte is still to come nothing
is answered yet, unless nothing can come any more.

A scanner does not trust its splitter: it checks how far each answer moves on, and counts the
tokens after the end that use nothing up. With lines this watch never finds anything, so what
is scanned under it is what draining finds.

## Main definitions

* `Split`, `Splitter`: what a splitter answers to the bytes at hand
* `splitLine`: the splitter that cuts off a line
* `watchedLoop split`: draining a text by any splitter, under the watch of the scanner

## Main results

* `line_of_cut?`, `isPrefix_line_of_cut?`: the line of a cut is the longest without breaks
* `cut?_eq_none_iff`: when nothing is decided yet
* `splitLine_append`: an answer stays when more arrives
* `watchedLoop_of_idle`, `watchedLoop_splitLine`: the watch gives up a splitter that stalls, and
  never finds anything over lines
* `splitLine_exact`: all of it
-/

namespace Linewise

/-! ## Cuts -/

section Cut

variable {ended : Bool} {text : Bytes} {cut : Cut}

/-- The bytes of a cut, which are used up, are its line and its terminator. -/
theorem take_advance (h : cut? ended text = some cut) :
    text.take cut.advance = cut.line ++ cut.terminator.bytes := by
  conv_lhs => rw [(eq_of_cut? h).1]
  rw [← List.append_assoc]
  exact List.take_left' (by simp [Cut.advance])

theorem advance_le_length (h : cut? ended text = some cut) : cut.advance ≤ text.length := by
  rw [← advance_add_length_rest h]
  exact Nat.le_add_right _ _

/-- **The line of a cut** is what stands before the first break. -/
theorem line_of_cut? (h : cut? ended text = some cut) :
    cut.line = text.takeWhile fun b => !isBreak b := by
  have hplain : ∀ b ∈ cut.line, (!isBreak b) = true := fun b hb => by
    simp [unbroken_of_cut? h b hb]
  have hbehind : (cut.terminator.bytes ++ cut.rest).takeWhile (fun b => !isBreak b) = [] := by
    cases hend : cut.terminator with
    | endOfText => simp [Terminator.bytes, ((ends_of_cut? h).1 hend).2]
    | lineFeed | returnFeed | carriageReturn => simp [Terminator.bytes]
  conv_rhs => rw [(eq_of_cut? h).1, List.takeWhile_append_of_pos hplain, hbehind]
  exact (List.append_nil _).symm

/-- No unbroken line at the front of a text is longer than its first cut. -/
theorem isPrefix_line_of_cut? (h : cut? ended text = some cut) {line : Bytes}
    (hline : line <+: text) (hl : Unbroken line) : line <+: cut.line := by
  obtain ⟨rest, rfl⟩ := hline
  have hplain : ∀ b ∈ line, (!isBreak b) = true := fun b hb => by simp [hl b hb]
  rw [line_of_cut? h, List.takeWhile_append_of_pos hplain]
  exact List.prefix_append _ _

theorem Unbroken.not_mem {line : Bytes} (hl : Unbroken line) {b : UInt8} (hb : isBreak b = true) :
    b ∉ line := by
  intro hmem
  rw [hl b hmem] at hb
  cases hb

/-- **Nothing is decided yet** just if there is no line feed, and no carriage return with a byte
after it. -/
theorem cut?_eq_none_iff :
    cut? false text = none ↔
      Bytes.lineFeed ∉ text ∧ Bytes.carriageReturn ∉ text.dropLast := by
  cases opening text with
  | unbroken _ hl =>
    have hreturn : Bytes.carriageReturn ∉ text.dropLast := fun hmem =>
      hl.not_mem isBreak_carriageReturn (List.dropLast_subset _ hmem)
    simp [cut?_unbroken hl, hl.not_mem isBreak_lineFeed, hreturn]
  | lastReturn line hl =>
    simp [cut?_lastReturn hl, hl.not_mem isBreak_lineFeed, hl.not_mem isBreak_carriageReturn,
      carriageReturn_ne_lineFeed.symm]
  | feed line rest hl => simp [cut?_feed hl]
  | returnFeed line rest hl => simp [cut?_returnFeed hl]
  | loneReturn line c rest hl hc =>
    simp [cut?_loneReturn hl hc, List.dropLast_append_of_ne_nil]

end Cut

/-! ## Splitters -/

/-- **What a splitter answers** to the bytes at hand. -/
structure Split where
  /-- How many of the bytes are used up. -/
  advance : Nat
  /-- The token, if one is decided. -/
  token? : Option Bytes
  /-- Why the bytes cannot be split, if they cannot. -/
  failure : Option Fault
deriving DecidableEq, Repr

/-- A splitter is shown the bytes at hand; with `ended` no others can follow. -/
abbrev Splitter := (ended : Bool) → Bytes → Split

/-- **The splitter that cuts off a line.** -/
def splitLine : Splitter := fun ended text =>
  match cut? ended text with
  | some cut => ⟨cut.advance, some cut.line, none⟩
  | none => ⟨0, none, none⟩

section SplitLine

variable {ended : Bool} {text : Bytes}

theorem splitLine_of_some {cut : Cut} (h : cut? ended text = some cut) :
    splitLine ended text = ⟨cut.advance, some cut.line, none⟩ := by
  rw [splitLine, h]

theorem splitLine_of_none (h : cut? ended text = none) :
    splitLine ended text = ⟨0, none, none⟩ := by
  rw [splitLine, h]

/-- A line is found where there is a cut. -/
theorem token?_splitLine : (splitLine ended text).token? = (cut? ended text).map Cut.line := by
  cases h : cut? ended text with
  | none => rw [splitLine_of_none h]; rfl
  | some cut => rw [splitLine_of_some h]; rfl

/-- **An answer stays when more arrives**, whether the text is then complete or not. -/
theorem splitLine_append (h : (splitLine false text).token?.isSome) (ended : Bool)
    (more : Bytes) : splitLine ended (text ++ more) = splitLine false text := by
  rw [token?_splitLine, Option.isSome_map] at h
  obtain ⟨cut, hcut⟩ := Option.isSome_iff_exists.mp h
  rw [splitLine_of_some hcut, splitLine_of_some (cut?_append hcut ended more)]
  rfl

end SplitLine

/-! ## The watch of a scanner -/

/-- **Why a scanner gives its splitter up.** -/
inductive Misstep where
  /-- The splitter failed. -/
  | failed (fault : Fault)
  /-- It moved on past the bytes at hand. -/
  | tooFar
  /-- It found token after token without moving on. -/
  | stalled
deriving DecidableEq, Repr

/-- How many tokens in a row, after the end, may use nothing up. -/
def patience : Nat := 100

/-- **Drains a text by a splitter, under the watch of the scanner.** `idle` counts the last tokens
after the end that used nothing up; before the end nothing is counted. -/
def watchedLoop (split : Splitter) (limit : Limit) (ended : Bool) :
    (rounds idle : Nat) → (found : List Bytes) → Bytes → Except Misstep Drained
  | 0, _, found, text => .ok ⟨found, text, false⟩
  | rounds + 1, idle, found, text =>
    let complete := ended && limit.admits text
    let answer := split complete (limit.fit text)
    let rest := text.drop answer.advance
    match answer.failure with
    | some fault => .error (.failed fault)
    | none =>
      if (limit.fit text).length < answer.advance then .error .tooFar
      else
        match answer.token? with
        | none => .ok ⟨found, rest, limit.isFull rest⟩
        | some token =>
          if !complete || 0 < answer.advance then
            watchedLoop split limit ended rounds 0 (token :: found) rest
          else if patience ≤ idle then .error .stalled
          else watchedLoop split limit ended rounds (idle + 1) (token :: found) rest

/-- **A splitter that stalls is given up**: a token after the end that uses nothing up comes back
in every round, until the patience is spent. -/
theorem watchedLoop_of_idle {split : Splitter} {text token : Bytes}
    (h : split true text = ⟨0, some token, none⟩) {rounds idle : Nat}
    (hrounds : patience < rounds + idle) (hidle : idle ≤ patience) (found : List Bytes) :
    watchedLoop split none true rounds idle found text = .error .stalled := by
  induction rounds generalizing idle found with
  | zero => omega
  | succ rounds ih =>
    simp only [watchedLoop, Limit.admits, Limit.fit, Bool.and_true, h]
    by_cases hspent : patience ≤ idle
    · simp [hspent]
    · simpa [hspent] using ih (by omega) (by omega) (token :: found)

/-- **The watch over lines never finds anything**: in any number of rounds, what is scanned under
it is what is drained without it. -/
theorem watchedLoop_splitLine (limit : Limit) (ended : Bool) (rounds : Nat) (found : List Bytes)
    (text : Bytes) :
    watchedLoop splitLine limit ended rounds 0 found text
      = .ok (drainLoop limit ended rounds found text) := by
  induction rounds generalizing found text with
  | zero => rfl
  | succ rounds ih =>
    simp only [watchedLoop, drainLoop]
    cases hcut : cut? (ended && limit.admits text) (limit.fit text) with
    | none => simp [splitLine_of_none hcut]
    | some cut =>
      have hwithin : ¬ (limit.fit text).length < cut.advance :=
        Nat.not_lt.mpr (advance_le_length hcut)
      have hmoves : 0 < cut.advance := (eq_of_cut? hcut).2
      simp [splitLine_of_some hcut, hwithin, hmoves, ih]

/-- **Lines are split off soundly, and nothing that was answered changes.** Whatever the bytes at
hand are, the splitter does not fail, stays within them, and has a token just if it moves on. A
token is the longest line without breaks at the front, and what is used up behind it is a
terminator, which is the end only of a text that is complete, and a carriage return alone only
where no line feed comes next. At the end there is a token unless nothing is left. A token found
before the end stays when more arrives, with how far it moves on; none is found there just if the
bytes hold no line feed, and no carriage return but as the last of them. So a scanner that watches
the splitter never gives it up, and finds what draining finds, however many rounds it is given. -/
theorem splitLine_exact :
    (∀ (ended : Bool) (text : Bytes),
      (splitLine ended text).failure = none ∧
      (splitLine ended text).advance ≤ text.length ∧
      ((splitLine ended text).token?.isSome ↔ 0 < (splitLine ended text).advance) ∧
      (ended = true → text ≠ [] → (splitLine ended text).token?.isSome) ∧
      ∀ token, (splitLine ended text).token? = some token →
        (token <+: text ∧ Unbroken token ∧
          ∀ line, line <+: text → Unbroken line → line.length ≤ token.length) ∧
        ∃ terminator : Terminator,
          (text.take (splitLine ended text).advance).drop token.length = terminator.bytes ∧
          (terminator = .endOfText →
            ended = true ∧ (splitLine ended text).advance = text.length) ∧
          (terminator = .carriageReturn →
            (text.drop (splitLine ended text).advance).head? ≠ some Bytes.lineFeed)) ∧
    (∀ text : Bytes, (splitLine false text).token?.isSome →
      ∀ (more : Bytes) (ended : Bool), splitLine ended (text ++ more) = splitLine false text) ∧
    (∀ text : Bytes, (splitLine false text).token? = none ↔
      Bytes.lineFeed ∉ text ∧ Bytes.carriageReturn ∉ text.dropLast) ∧
    ∀ (limit : Limit) (ended : Bool) (text : Bytes) (rounds : Nat), text.length < rounds →
      watchedLoop splitLine limit ended rounds 0 [] text = .ok (drain limit ended text) := by
  refine ⟨?_, ?_, ?_, ?_⟩
  · intro ended text
    cases hcut : cut? ended text with
    | none =>
      rw [splitLine_of_none hcut]
      refine ⟨rfl, Nat.zero_le _, by simp, ?_, nofun⟩
      rintro rfl hne
      exact absurd (eq_nil_of_cut? hcut) hne
    | some cut =>
      rw [splitLine_of_some hcut]
      have hmoves : 0 < cut.advance := (eq_of_cut? hcut).2
      refine ⟨rfl, advance_le_length hcut, by simpa using hmoves, fun _ _ => rfl, ?_⟩
      rintro token ⟨⟩
      refine ⟨⟨?_, unbroken_of_cut? hcut, fun line hline hl => ?_⟩, cut.terminator, ?_, ?_, ?_⟩
      · exact ⟨_, (eq_of_cut? hcut).1.symm⟩
      · exact (isPrefix_line_of_cut? hcut hline hl).length_le
      · rw [take_advance hcut, List.drop_left]
      · intro hend
        obtain ⟨hended, hrest⟩ := (ends_of_cut? hcut).1 hend
        have hlength := advance_add_length_rest hcut
        rw [hrest, List.length_nil, Nat.add_zero] at hlength
        exact ⟨hended, hlength⟩
      · rw [drop_advance hcut]
        exact (ends_of_cut? hcut).2
  · intro text h more ended
    exact splitLine_append h ended more
  · intro text
    rw [token?_splitLine, Option.map_eq_none_iff]
    exact cut?_eq_none_iff
  · intro limit ended text rounds hrounds
    rw [watchedLoop_splitLine, drainLoop_fuel hrounds]
    rfl

/-- A carriage return at the end of what has arrived waits for the next byte, unless none can come.
A pair is one terminator, and what follows it does not change that, also where it is another
pair. -/
theorem splitLine_exact_pair :
    (splitLine false (utf8 "a\x0d")).token? = none ∧
    (splitLine true (utf8 "a\x0d")).token?.isSome ∧
    splitLine false (utf8 "a\x0d\x0a") = ⟨3, some (utf8 "a"), none⟩ ∧
    (∀ line, line <+: utf8 "a\x0d\x0a" → Unbroken line → line.length ≤ 1) ∧
    splitLine true (utf8 "a\x0d\x0a" ++ utf8 "\x0d\x0a") = ⟨3, some (utf8 "a"), none⟩ ∧
    watchedLoop splitLine (some 3) true 1000 0 [] (utf8 "a\x0d\x0a\x0d\x0a")
      = .ok (drain (some 3) true (utf8 "a\x0d\x0a\x0d\x0a")) := by
  obtain ⟨hsound, hstable, hnone, hwatch⟩ := splitLine_exact
  have hpair : splitLine false (utf8 "a\x0d\x0a") = ⟨3, some (utf8 "a"), none⟩ := by decide
  refine ⟨(hnone _).mpr (by decide), ?_, hpair, ?_, ?_, hwatch _ _ _ _ (by decide)⟩
  · exact (hsound true (utf8 "a\x0d")).2.2.2.1 rfl (by decide)
  · exact ((hsound false (utf8 "a\x0d\x0a")).2.2.2.2 (utf8 "a") (by rw [hpair])).1.2.2
  · rw [hstable (utf8 "a\x0d\x0a") (by rw [hpair]; rfl)]
    exact hpair

end Linewise

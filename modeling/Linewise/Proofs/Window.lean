import Linewise.LineBuffer
import Linewise.Proofs.Newlines

/-!
# A buffer that is used again

Lines are looked for in a block of bytes that is used for one line after the other. The
bytes that wait stand anywhere in it, behind those that are used up. They are shifted to the
front when they have come far enough, and a block that is full is replaced by a larger one,
up to a bound. None of this matters for what is found. A block is full only when the bytes
that wait fill it from the front, and it is given up only at the bound. So a line is too long
just if the bytes that decide it are more than the bound, wherever it begins, however large
the block was at first and whatever portions the bytes came in.

## Main definitions

* `Cut.reach cut`: how many bytes the buffer has to hold for the cut
* `Window m`: a block of at most `m` bytes with the bytes that wait in it
* `Window.scan most`: looks for the lines of a text that comes in portions
* `bounded m text`: the lines before the first that is out of reach

## Main results

* `cut?_take_of_reach_le`, `cut?_take_of_lt_reach`: one line, within its reach and short of it
* `Window.scan_eq`: the lines found in a window are those before the first out of reach
-/

namespace Linewise

/-! ## One line -/

/-- **How many bytes the buffer has to hold** before it is decided where a line ends. -/
def Cut.reach (cut : Cut) : Nat :=
  match cut.terminator with
  | .lineFeed | .endOfText => cut.line.length + 1
  | .returnFeed | .carriageReturn => cut.line.length + 2

section Reach

variable {line more : Bytes} {m : Nat}

theorem Unbroken.take (hl : Unbroken line) (m : Nat) : Unbroken (line.take m) :=
  fun b hb => hl b (List.mem_of_mem_take hb)

/-- No part of an unbroken line is decided. -/
theorem cut?_take_line (hl : Unbroken line) (hm : m ≤ line.length) :
    cut? false ((line ++ more).take m) = none := by
  rw [List.take_append_of_le_length hm, cut?_unbroken (hl.take m)]
  rfl

/-- Neither is the line with its carriage return. -/
theorem cut?_take_return (hl : Unbroken line) (hm : m ≤ line.length + 1) :
    cut? false ((line ++ Bytes.carriageReturn :: more).take m) = none := by
  rcases Nat.lt_or_ge line.length m with hlt | hle
  · obtain rfl : m = line.length + 1 := by omega
    rw [List.take_length_add_append, List.take_succ_cons, List.take_zero, cut?_lastReturn hl]
    rfl
  · exact cut?_take_line hl hle

variable {text : Bytes} {cut : Cut}

/-- **A buffer short of the reach of a line** is full before it is decided where the line
ends. -/
theorem cut?_take_of_lt_reach (h : cut? true text = some cut) (hm : m < cut.reach) :
    cut? false (text.take m) = none ∧ m ≤ text.length := by
  cases opening text with
  | unbroken _ hl =>
    rw [cut?_unbroken hl] at h
    split_ifs at h
    obtain rfl := Option.some.inj h
    have hm : m ≤ text.length := Nat.le_of_lt_succ hm
    rw [cut?_unbroken (hl.take m)]
    exact ⟨rfl, hm⟩
  | feed line rest hl =>
    obtain rfl := Option.some.inj ((cut?_feed hl).symm.trans h)
    have hm : m ≤ line.length := Nat.le_of_lt_succ hm
    exact ⟨cut?_take_line hl hm, by rw [List.length_append]; omega⟩
  | lastReturn line hl =>
    obtain rfl := Option.some.inj ((cut?_lastReturn hl).symm.trans h)
    have hm : m ≤ line.length + 1 := Nat.le_of_lt_succ hm
    exact ⟨cut?_take_return hl hm, by rwa [List.length_append]⟩
  | returnFeed line rest hl =>
    obtain rfl := Option.some.inj ((cut?_returnFeed hl).symm.trans h)
    have hm : m ≤ line.length + 1 := Nat.le_of_lt_succ hm
    exact ⟨cut?_take_return hl hm, by rw [List.length_append, List.length_cons]; omega⟩
  | loneReturn line c rest hl hc =>
    obtain rfl := Option.some.inj ((cut?_loneReturn hl hc).symm.trans h)
    have hm : m ≤ line.length + 1 := Nat.le_of_lt_succ hm
    exact ⟨cut?_take_return hl hm, by rw [List.length_append, List.length_cons]; omega⟩

/-- **A buffer within the reach of a line** decides it, whether or not the text is known to be
complete. The exception is a line that is decided by the end of the text alone: it leaves room in
the buffer. -/
theorem cut?_take_of_reach_le (h : cut? true text = some cut) (hm : cut.reach ≤ m) :
    (∃ rest, ∀ ended, cut? ended (text.take m) = some { cut with rest }) ∨
      cut.rest = [] ∧ cut? false text = none ∧ text.length < m := by
  cases opening text with
  | unbroken _ hl =>
    right
    rw [cut?_unbroken hl] at h
    split_ifs at h
    obtain rfl := Option.some.inj h
    exact ⟨rfl, by rw [cut?_unbroken hl]; rfl, hm⟩
  | lastReturn line hl =>
    right
    obtain rfl := Option.some.inj ((cut?_lastReturn hl).symm.trans h)
    exact ⟨rfl, by rw [cut?_lastReturn hl]; rfl, by rw [List.length_append]; exact hm⟩
  | feed line rest hl =>
    left
    obtain rfl := Option.some.inj ((cut?_feed hl).symm.trans h)
    obtain ⟨n, rfl⟩ : ∃ n, m = line.length + (n + 1) := ⟨m - line.length - 1, by
      have hm : line.length + 1 ≤ m := hm
      omega⟩
    refine ⟨rest.take n, fun ended => ?_⟩
    rw [List.take_length_add_append, List.take_succ_cons]
    exact cut?_feed hl
  | returnFeed line rest hl =>
    left
    obtain rfl := Option.some.inj ((cut?_returnFeed hl).symm.trans h)
    obtain ⟨n, rfl⟩ : ∃ n, m = line.length + (n + 2) := ⟨m - line.length - 2, by
      have hm : line.length + 2 ≤ m := hm
      omega⟩
    refine ⟨rest.take n, fun ended => ?_⟩
    rw [List.take_length_add_append, List.take_succ_cons, List.take_succ_cons]
    exact cut?_returnFeed hl
  | loneReturn line c rest hl hc =>
    left
    obtain rfl := Option.some.inj ((cut?_loneReturn hl hc).symm.trans h)
    obtain ⟨n, rfl⟩ : ∃ n, m = line.length + (n + 2) := ⟨m - line.length - 2, by
      have hm : line.length + 2 ≤ m := hm
      omega⟩
    refine ⟨c :: rest.take n, fun ended => ?_⟩
    rw [List.take_length_add_append, List.take_succ_cons, List.take_succ_cons]
    exact cut?_loneReturn hl hc

end Reach

theorem advance_add_length_rest {ended : Bool} {text : Bytes} {cut : Cut}
    (h : cut? ended text = some cut) : cut.advance + cut.rest.length = text.length := by
  have hlength := congrArg List.length (eq_of_cut? h).1
  rw [List.length_append, List.length_append, ← Nat.add_assoc] at hlength
  exact hlength.symm

/-! ## Windows -/

/-- **A block of at most `m` bytes.** The bytes that wait in it stand behind `start` others, which
are used up. -/
structure Window (m : Nat) where
  held : Bytes
  start : Nat
  size : Nat
  size_pos : 0 < size
  size_le : size ≤ m
  fits : start + held.length ≤ size

namespace Window

variable {m : Nat}

/-- Where the bytes that wait end. -/
def stop (w : Window m) : Nat :=
  w.start + w.held.length

/-- Shifts the bytes that wait to the front, if they reach the end of the block or begin in its
second half. -/
def shift (w : Window m) : Window m :=
  if 0 < w.start ∧ (w.stop = w.size ∨ w.size / 2 < w.start) then
    { w with
      start := 0
      fits := le_trans (Nat.add_le_add_right (Nat.zero_le _) _) w.fits }
  else w

/-- Replaces a block that is full by one of twice its size, within the bound; `none` for a block
that has reached the bound. -/
def grow? (w : Window m) : Option { w : Window m // w.stop < w.size } :=
  if hfull : w.stop = w.size then
    if hbound : m ≤ w.size then none
    else
      have hlength : w.held.length < min (2 * w.size) m := by
        have := w.fits
        have := w.size_pos
        omega
      some ⟨{ w with
        start := 0
        size := min (2 * w.size) m
        size_pos := by omega
        size_le := Nat.min_le_right _ _
        fits := by omega }, by simpa only [stop, Nat.zero_add] using hlength⟩
  else some ⟨w, lt_of_le_of_ne w.fits hfull⟩

/-- Takes a line off the bytes that wait. -/
def advance (w : Window m) {ended : Bool} {cut : Cut} (h : cut? ended w.held = some cut) :
    Window m :=
  { w with
    held := cut.rest
    start := w.start + cut.advance
    fits := by
      have := w.fits
      have := advance_add_length_rest h
      omega }

theorem stop_advance (w : Window m) {ended : Bool} {cut : Cut} (h : cut? ended w.held = some cut) :
    (w.advance h).stop = w.stop := by
  have := advance_add_length_rest h
  simp only [stop, advance]
  omega

/-- Puts the next `n` bytes of a text behind those that wait. -/
def read (w : Window m) (n : Nat) (text : Bytes) (h : w.stop + n ≤ w.size) : Window m :=
  { w with
    held := w.held ++ text.take n
    fits := by
      rw [List.length_append, List.length_take]
      rw [stop] at h
      omega }

@[simp] theorem held_shift (w : Window m) : w.shift.held = w.held := by
  unfold shift
  split <;> rfl

theorem held_of_grow? {w w' : Window m} {hroom : w'.stop < w'.size}
    (h : w.grow? = some ⟨w', hroom⟩) : w'.held = w.held := by
  unfold grow? at h
  split_ifs at h
  · cases h
    rfl
  · cases h
    rfl

theorem held_of_shift_grow? {w w' : Window m} {hroom : w'.stop < w'.size}
    (h : w.shift.grow? = some ⟨w', hroom⟩) : w'.held = w.held :=
  (held_of_grow? h).trans w.held_shift

/-- **A window is given up only when the bytes that wait are as many as the bound allows.** -/
theorem length_held_of_shift_grow? {w : Window m} (h : w.shift.grow? = none) :
    w.held.length = m := by
  unfold grow? at h
  split_ifs at h with hfull hbound
  have hsize : w.shift.size = m := le_antisymm w.shift.size_le hbound
  have hstart : w.shift.start = 0 := by
    unfold shift at hfull ⊢
    split_ifs at hfull ⊢ with hshift
    · rfl
    · omega
  rw [stop, hstart, Nat.zero_add, held_shift] at hfull
  rw [hfull, hsize]

/-- **Looks for the lines of a text in a window.** `most` says how many bytes a read delivers at
most, by the number of those that are left; it delivers one at least, and as many as there is room
for at most. The end of the text is found by a read of its own. -/
def scan (most : Nat → Nat) (w : Window m) (ended : Bool) (text : Bytes) : Scanned :=
  match hcut : cut? ended w.held with
  | some cut =>
    let others := scan most (w.advance hcut) ended text
    ⟨cut.line :: others.lines, others.failure⟩
  | none =>
    if ended then ⟨[], none⟩
    else
      match hgrow : w.shift.grow? with
      | none => ⟨[], some .lineTooLong⟩
      | some ⟨w', hroom⟩ =>
        if text = [] then scan most w' true []
        else
          let n := min (max 1 (most text.length)) (w'.size - w'.stop)
          scan most (w'.read n text (by omega)) false (text.drop n)
termination_by 2 * text.length + w.held.length + if ended then 0 else 1
decreasing_by
  -- a line is taken off what waits, the end is found, or bytes that were left are now waiting
  · have := advance_add_length_rest hcut
    have := (eq_of_cut? hcut).2
    simp only [advance]
    omega
  · have hheld := held_of_shift_grow? hgrow
    simp_all
  · rename_i hended htext
    have hheld := held_of_shift_grow? hgrow
    have hleft := List.length_pos_of_ne_nil htext
    simp only [read, List.length_append, List.length_take, List.length_drop, hheld, hended,
      Bool.false_eq_true, if_false]
    omega

end Window

/-! ## The lines in front of the first that is too long -/

/-- **The lines of a text before the first that is out of reach**, which is a failure. -/
def bounded (m : Nat) (text : Bytes) : Scanned where
  lines := ((cuts text).takeWhile fun cut => cut.reach ≤ m).map Cut.line
  failure := if ∀ cut ∈ cuts text, cut.reach ≤ m then none else some .lineTooLong

section Bounded

variable {text : Bytes} {cut : Cut} {m : Nat}

theorem bounded_nil : bounded m [] = ⟨[], none⟩ := by
  simp [bounded]

theorem bounded_of_le (h : cut? true text = some cut) (hm : cut.reach ≤ m) :
    bounded m text = ⟨cut.line :: (bounded m cut.rest).lines, (bounded m cut.rest).failure⟩ := by
  simp [bounded, cuts_of_some h, hm]

theorem bounded_of_lt (h : cut? true text = some cut) (hm : m < cut.reach) :
    bounded m text = ⟨[], some .lineTooLong⟩ := by
  simp [bounded, cuts_of_some h, Nat.not_le.mpr hm]

/-- Bytes that decide a line reach as far as is needed for it. -/
theorem reach_le_length (h : cut? false text = some cut) : cut.reach ≤ text.length := by
  by_contra hreach
  have hcut := cut?_append h true []
  rw [List.append_nil, List.append_nil] at hcut
  have hnone := (cut?_take_of_lt_reach hcut (Nat.lt_of_not_le hreach)).1
  rw [List.take_length, h] at hnone
  cases hnone

/-- With the end of the text the last line needs room for one byte more. -/
theorem reach_le_length_succ (h : cut? true text = some cut) : cut.reach ≤ text.length + 1 := by
  by_contra hreach
  have := (cut?_take_of_lt_reach h (Nat.lt_of_not_le hreach)).2
  omega

/-- Bytes that do not decide a line, as many as the bound allows, are the start of one that is out
of reach. -/
theorem bounded_of_waiting {held : Bytes} (hm : 0 < m) (hlength : held.length = m)
    (h : cut? false held = none) : bounded m (held ++ text) = ⟨[], some .lineTooLong⟩ := by
  rcases hcut : cut? true (held ++ text) with _ | cut
  · have := congrArg List.length (eq_nil_of_cut? hcut)
    simp only [List.length_append, List.length_nil] at this
    omega
  · refine bounded_of_lt hcut ?_
    by_contra hreach
    have htake : (held ++ text).take m = held := List.take_left' hlength
    rcases cut?_take_of_reach_le hcut (Nat.le_of_not_lt hreach) with ⟨rest, hdecided⟩ | ⟨-, -, hlt⟩
    · have hdecided := hdecided false
      rw [htake, h] at hdecided
      cases hdecided
    · rw [List.length_append] at hlt
      omega

end Bounded

/-- **The lines found in a window** are those of the text before the first that is out of reach of
the bound. Neither the place of a line in the block nor the size of the block is mentioned. -/
theorem Window.scan_eq {m : Nat} (most : Nat → Nat) (w : Window m) (ended : Bool) (text : Bytes)
    (hended : ended = true → text = [] ∧ w.stop < w.size) :
    w.scan most ended text = bounded m (w.held ++ text) := by
  fun_induction w.scan most ended text with
  | case1 w ended text cut hcut others ih =>
    have hall : cut? true (w.held ++ text) = some { cut with rest := cut.rest ++ text } := by
      cases ended with
      | false => exact cut?_append hcut true text
      | true =>
        obtain ⟨rfl, -⟩ := hended rfl
        simpa using hcut
    have hreach : cut.reach ≤ m := by
      have hsize := w.size_le
      have hfits := w.fits
      cases ended with
      | false =>
        have := reach_le_length hcut
        omega
      | true =>
        have := reach_le_length_succ hcut
        have hroom := (hended rfl).2
        rw [stop] at hroom
        omega
    have hothers : others = bounded m (cut.rest ++ text) := by
      apply ih
      intro hend
      obtain ⟨htext, hroom⟩ := hended hend
      exact ⟨htext, (w.stop_advance hcut).trans_lt hroom⟩
    rw [bounded_of_le hall hreach, hothers]
  | case2 w text hcut =>
    obtain ⟨rfl, -⟩ := hended rfl
    rw [eq_nil_of_cut? hcut, List.append_nil, bounded_nil]
  | case3 w ended text hcut hend hgrow =>
    have hfalse : ended = false := by simpa using hend
    rw [hfalse] at hcut
    have hlength := length_held_of_shift_grow? hgrow
    exact (bounded_of_waiting (lt_of_lt_of_le w.size_pos w.size_le) hlength hcut).symm
  | case4 w ended hcut hend w' hroom hgrow ih =>
    rw [ih fun _ => ⟨rfl, hroom⟩, held_of_shift_grow? hgrow]
  | case5 w ended text hcut hend w' hroom hgrow htext n ih =>
    rw [ih nofun, ← held_of_shift_grow? hgrow]
    simp only [read]
    rw [List.append_assoc, List.take_append_drop]

end Linewise

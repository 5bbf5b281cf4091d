import Linewise.Proofs.Reference

/-!
# Runs that are called off

Whether a run is called off is looked up once for each line, after the line has been cut
off the input and before it is counted. So a run that is called off after `n` lines goes
along with the run that nobody calls off as long as that one has read at most `n` lines.
If there is one line more, the run ends where the other one stood after its first `n`
lines: what these came to has been written and counted, and the line that was cut off
leaves no trace.

## Main definitions

* `Options.never`, `Options.offAfter n c`: nobody calls the run off, or somebody does after
  `n` lines, with the failure `c`

## Main results

* `Run.step_offAfter_of_lt`, `Run.step_offAfter_of_le`: one line
* `Run.exists_overLines_take`: a run that reads more than `n` lines has a state after the first `n`
* `Run.overLines_offAfter_of_le`, `Run.overLines_offAfter_of_reached`: all lines
* `run_calledOff_exact`: a whole run
-/

namespace Linewise

/-- The options of a run that nobody calls off. -/
def Options.never (options : Options) : Options :=
  { options with cancellation := none }

/-- The options of a run that is called off after `n` lines. -/
def Options.offAfter (n : Nat) (c : Fault) (options : Options) : Options :=
  { options with cancellation := some ⟨n, c⟩ }

namespace Run

variable {transform : Transform} {options : Options} {state : State} {line : Bytes}
  {ls : List Bytes} {n : Nat} {c : Fault}

/-! ## One line -/

theorem step_offAfter_of_lt (h : state.stats.linesRead < n) :
    step transform (options.offAfter n c) state line
      = step transform options.never state line := by
  have hoff : calledOff? (options.offAfter n c) state.stats = none := if_pos h
  have hnever : calledOff? options.never state.stats = none := rfl
  simp only [step, hoff, hnever]
  rfl

theorem step_offAfter_of_le (h : n ≤ state.stats.linesRead) :
    step transform (options.offAfter n c) state line = (state, some c) := by
  have hoff : calledOff? (options.offAfter n c) state.stats = some c :=
    if_neg (Int.not_lt.mpr h)
  simp only [step, hoff]

theorem linesRead_emit (state : State) (result : Bytes) :
    (state.emit result).1.stats.linesRead = state.stats.linesRead := by
  unfold State.emit
  dsimp only
  split <;> rfl

/-- **A line is counted** whatever becomes of it, if nobody calls the run off. -/
theorem linesRead_of_step {next : State} {failure : Option Fault}
    (h : step transform options.never state line = (next, failure)) :
    next.stats.linesRead = state.stats.linesRead + 1 := by
  have hnext : next = (step transform options.never state line).1 := by rw [h]
  rw [hnext, step_eq_carryOut]
  cases haction : action transform options.never state.stats line with
  | callOff fault =>
    have hnever : calledOff? options.never state.stats = none := rfl
    simp only [action, hnever] at haction
    repeat' split at haction
    all_goals cases haction
  | stop fault => rfl
  | leaveOut warning => rfl
  | emit result warnings => exact linesRead_emit _ result

/-! ## All lines -/

theorem linesRead_le_overLines (transform : Transform) (options : Options) (state : State)
    (ls : List Bytes) :
    state.stats.linesRead
      ≤ (overLines transform options.never state ls).1.stats.linesRead := by
  induction ls generalizing state with
  | nil => exact Int.le_refl _
  | cons line ls ih =>
    rcases hstep : step transform options.never state line with ⟨next, _ | fault⟩
    all_goals
      have hread := linesRead_of_step hstep
      simp only [overLines, hstep]
    · have hrest := ih next
      omega
    · omega

/-- **A run that reads more than `k` lines** has a state after the first `k` of them, and one more
line to take. -/
theorem exists_overLines_take {k : Nat} (h : state.stats.linesRead + k
      < (overLines transform options.never state ls).1.stats.linesRead) :
    ∃ middle line rest, ls = ls.take k ++ line :: rest ∧
      overLines transform options.never state (ls.take k) = (middle, none) ∧
      middle.stats.linesRead = state.stats.linesRead + k := by
  induction k generalizing state ls with
  | zero =>
    cases ls with
    | nil =>
      simp only [overLines] at h
      omega
    | cons line rest => exact ⟨state, line, rest, rfl, rfl, (Int.add_zero _).symm⟩
  | succ k ih =>
    cases ls with
    | nil =>
      simp only [overLines] at h
      omega
    | cons line ls =>
      rcases hstep : step transform options.never state line with ⟨next, _ | fault⟩
      all_goals
        have hread := linesRead_of_step hstep
        simp only [overLines, hstep] at h
      · have hnext : next.stats.linesRead + k
            < (overLines transform options.never next ls).1.stats.linesRead := by omega
        obtain ⟨middle, line', rest, hls, hover, hmiddle⟩ := ih hnext
        refine ⟨middle, line', rest, ?_, ?_, by omega⟩
        · rw [List.take_succ_cons, List.cons_append, ← hls]
        · simp only [List.take_succ_cons, overLines, hstep, hover]
      · omega

/-- **As long as at most `n` lines are read**, it does not show that the run would be called off
after them. -/
theorem overLines_offAfter_of_le
    (h : (overLines transform options.never state ls).1.stats.linesRead ≤ n) :
    overLines transform (options.offAfter n c) state ls
      = overLines transform options.never state ls := by
  induction ls generalizing state with
  | nil => rfl
  | cons line ls ih =>
    rcases hstep : step transform options.never state line with ⟨next, _ | fault⟩
    all_goals
      have hread := linesRead_of_step hstep
      simp only [overLines, hstep] at h
    · have hrest := linesRead_le_overLines transform options next ls
      have hlt : state.stats.linesRead < n := by omega
      simp only [overLines, step_offAfter_of_lt hlt, hstep]
      exact ih h
    · have hlt : state.stats.linesRead < n := by omega
      simp only [overLines, step_offAfter_of_lt hlt, hstep]

/-- **Once `n` lines are read**, the next line is not taken. -/
theorem overLines_offAfter_of_reached {middle : State}
    (h : overLines transform options.never state ls = (middle, none))
    (hmiddle : middle.stats.linesRead = n) (line : Bytes) (rest : List Bytes) :
    overLines transform (options.offAfter n c) state (ls ++ line :: rest) = (middle, some c) := by
  have hfirst : overLines transform (options.offAfter n c) state ls = (middle, none) := by
    rw [← h]
    apply overLines_offAfter_of_le
    rw [h]
    exact Int.le_of_eq hmiddle
  rw [overLines_append, hfirst]
  simp only [overLines, step_offAfter_of_le (Int.le_of_eq hmiddle.symm)]

/-- A run sees no more of a transformation than its name and what it makes of the lines. -/
theorem overLines_eq_of_apply {transform' : Transform} (hname : transform'.name = transform.name)
    (happly : ∀ line ∈ ls, transform'.apply line = transform.apply line) (state : State) :
    overLines transform' options state ls = overLines transform options state ls := by
  induction ls generalizing state with
  | nil => rfl
  | cons line ls ih =>
    obtain ⟨hline, hls⟩ := List.forall_mem_cons.mp happly
    have hstep : step transform' options state line = step transform options state line := by
      simp only [step, hline, hname]
    simp only [overLines, hstep, ih hls]

/-! ## Whole runs -/

variable {sink : Sink} {scanned : Scanned}

theorem stats_overScanned (transform : Transform) (options : Options) (sink : Sink)
    (scanned : Scanned) :
    (overScanned transform options sink scanned).stats
      = (overLines transform options (begin transform sink) scanned.lines).1.stats := by
  unfold overScanned
  rcases overLines transform options (begin transform sink) scanned.lines with ⟨state, _ | fault⟩
  · dsimp only
    split <;> rfl
  · rfl

/-- **A run that reads at most `n` lines** ends the same when it would be called off after
them. -/
theorem overScanned_offAfter_of_le
    (h : (overScanned transform options.never sink scanned).stats.linesRead ≤ n) :
    overScanned transform (options.offAfter n c) sink scanned
      = overScanned transform options.never sink scanned := by
  rw [stats_overScanned] at h
  simp only [overScanned, overLines_offAfter_of_le h]

/-- **A run that has read `n` lines when there is one more** ends there, and nothing after these
lines matters. -/
theorem overScanned_offAfter_of_reached {middle : State}
    (h : overLines transform options.never (begin transform sink) ls = (middle, none))
    (hmiddle : middle.stats.linesRead = n) (line : Bytes) (rest : List Bytes)
    (failure : Option Fault) :
    overScanned transform (options.offAfter n c) sink ⟨ls ++ line :: rest, failure⟩
      = finish middle (some c) := by
  simp only [overScanned, overLines_offAfter_of_reached h hmiddle]

end Run

/-- **Calling off cuts between two lines**, whatever the source and the way it ends, the size of
its reads, the transformation, the policy and the bound on lines, for a sink that does not fail.
If the run that nobody calls off reads at most `n` lines, the run that is called off after `n`
lines ends the same. If not, it fails with just the given failure, in the state of the other run
after its first `n` lines: what they come to is written and counted. The line after them is not
counted, and is not even handed to the transformation, which could make anything of it. -/
theorem run_calledOff_exact (transform : Transform) (onEmpty held : Bytes) (limit : Int)
    (source : Source) (full c : Fault) (n : Nat) :
    let options : Options := { onEmpty := Policy.ofWord onEmpty, maxLineBytes := limit }
    let sink : Sink := { accepted := held, failure := full }
    let never := run transform options.never source sink
    let off := run transform (options.offAfter n c) source sink
    let first := (source.decode.scan options.limit).lines.take n
    (never.stats.linesRead ≤ n → off = never) ∧
      (n < never.stats.linesRead →
        off.failure = some c ∧ off.stats.linesRead = n ∧
        (∃ state, Run.overLines transform options.never (Run.begin transform sink) first
            = (state, none) ∧ off = Run.finish state (some c)) ∧
        off.sink.accepted = held ++ Reference.emitted transform onEmpty first ∧
        off.stats = Reference.tally transform onEmpty first ∧
        ∀ transform' : Transform, transform'.name = transform.name →
          (∀ line ∈ first, transform'.apply line = transform.apply line) →
          run transform' (options.offAfter n c) source sink = off) := by
  intro options sink never off first
  constructor
  · intro hle
    exact Run.overScanned_offAfter_of_le hle
  intro hlt
  rcases hscan : source.decode.scan options.limit with ⟨ls, failure⟩
  have hfirst : first = ls.take n := by
    change (source.decode.scan options.limit).lines.take n = _
    rw [hscan]
  obtain ⟨state, line, rest, hls, hover, hstate⟩ : ∃ state line rest,
      ls = ls.take n ++ line :: rest ∧
      Run.overLines transform options.never (Run.begin transform sink) (ls.take n)
        = (state, none) ∧ state.stats.linesRead = n := by
    have hread : never.stats
        = (Run.overLines transform options.never (Run.begin transform sink) ls).1.stats := by
      change (Run.overScanned transform options.never sink
        (source.decode.scan options.limit)).stats = _
      rw [hscan, Run.stats_overScanned]
    have hmore : (Run.begin transform sink).stats.linesRead + n < (Run.overLines transform
        options.never (Run.begin transform sink) ls).1.stats.linesRead := by
      rw [← hread]
      exact lt_of_eq_of_lt (Int.zero_add n) hlt
    obtain ⟨state, line, rest, hls, hover, hstate⟩ := Run.exists_overLines_take hmore
    exact ⟨state, line, rest, hls, hover, hstate.trans (Int.zero_add n)⟩
  have hoff : ∀ transform' : Transform, transform'.name = transform.name →
      (∀ line ∈ first, transform'.apply line = transform.apply line) →
      run transform' (options.offAfter n c) source sink = Run.finish state (some c) := by
    intro transform' hname happly
    change Run.overScanned transform' (options.offAfter n c) sink
      (source.decode.scan options.limit) = _
    rw [hscan, hls]
    apply Run.overScanned_offAfter_of_reached _ hstate
    rw [← hover, ← hfirst, Run.overLines_eq_of_apply hname happly, Run.begin, Run.begin, hname]
  have hself : off = Run.finish state (some c) := hoff transform rfl fun _ _ => rfl
  obtain ⟨-, hagrees⟩ :=
    Reference.Agrees.of_overLines rfl rfl (Reference.agrees_begin rfl) hover
  obtain ⟨haccepted, hfailure⟩ := Reference.finish_of_steady hagrees.steady (some c)
  rw [List.nil_append, ← hfirst] at hagrees
  rw [hself]
  refine ⟨hfailure, hstate, ⟨state, hfirst ▸ hover, rfl⟩, ?_, hagrees.stats, hoff⟩
  exact haccepted.trans hagrees.contents

/-- Called off after two lines of four, one of which is left out: only the first result is written,
and the line that could not be decoded is counted. -/
theorem run_calledOff_exact_skip :
    let source : Source := { data := utf8 "1\nnone\r\n10\n11", chunk := 2 }
    let off := run Transform.binary
      (Options.offAfter 2 .canceled { onEmpty := Policy.ofWord (utf8 "skip") }) source {}
    off.failure = some .canceled ∧ off.sink.accepted = utf8 "1\n" ∧
      off.stats = ⟨utf8 "binary", 2, 1, 1, 2, 0⟩ := by
  intro source
  have hscan : source.decode.scan (Options.limit { onEmpty := Policy.ofWord (utf8 "skip") })
      = ⟨[utf8 "1", utf8 "none", utf8 "10", utf8 "11"], none⟩ := by
    have hlines : lines (decodeText source.data)
        = [utf8 "1", utf8 "none", utf8 "10", utf8 "11"] := by decide
    rw [Options.limit_of_nonpos (Int.le_refl 0), Source.scan_decode, hlines]
  have hoff :=
    (run_calledOff_exact Transform.binary (utf8 "skip") [] 0 source .unstated .canceled 2).2
  have hnever : ((2 : Nat) : Int) < (run Transform.binary
      (Options.never { onEmpty := Policy.ofWord (utf8 "skip") }) source {}).stats.linesRead := by
    have hkept := Reference.kept_of_forall Transform.binary (utf8 "skip")
      [utf8 "1", utf8 "none", utf8 "10", utf8 "11"] (by decide)
    have hstats := (Reference.overScanned_of_kept
      (Options.never { onEmpty := Policy.ofWord (utf8 "skip") }) {} ⟨_, none⟩ rfl rfl rfl hkept).2.1
    rw [run, Options.never, hscan]
    rw [Options.never] at hstats
    rw [hstats]
    decide
  rw [hscan] at hoff
  obtain ⟨hfailure, -, -, haccepted, hstats, -⟩ := hoff hnever
  exact ⟨hfailure, haccepted.trans (by decide), hstats.trans (by decide)⟩

end Linewise

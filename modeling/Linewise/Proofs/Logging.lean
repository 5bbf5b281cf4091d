import Linewise.Proofs.Cancellation

/-!
# The log of a run

A run reports on its lines and never looks at what it has reported. So it makes no
difference to its output, its counters and its failure who hears the reports, and whether
anybody does. What is reported is decided line by line: a line without digits that the
policy tolerates has a warning, and a line whose result was written has a note. Each
carries the number of its line. A line at which the run ends can still have a warning, if
its result could not be written.

## Main definitions

* `Log.heard logger`: what a logger keeps, if there is one
* `runTo logger`: a run that reports to a logger
* `Reference.warning?`, `Reference.note?`: what is reported on a line with a given number
* `Reference.warnings`, `Reference.notes`, `Reference.reports`: the same for lines in a row
* `Reference.Stands`: a state has dealt with some lines, and perhaps counted one more

## Main results

* `Run.carryOut_reporting`, `Run.overLinesTo_reporting`, `runTo_eq`: logging has no side effects
* `Reference.Stands.step`, `Reference.Stands.overLines`: what is logged for one line, and for all
* `Reference.keep_log_of_lt_warning` and its neighbours: what is heard of a log at a level
* `run_log_exact`: the log of a whole run, level by level
-/

namespace Linewise

/-! ## Runs that report to a logger -/

/-- Does a logger keep the entry? Nobody does if there is none. -/
def Log.heard (logger : Option Level) (entry : Entry) : Bool :=
  logger.any fun level => keeps level entry

namespace Run

/-- The state with what a logger keeps of the log. -/
def State.reporting (logger : Option Log.Level) (state : State) : State :=
  { state with logged := state.logged.filter (Log.heard logger) }

/-- **Takes lines and reports to a logger**, which drops what it does not keep after each line. -/
def overLinesTo (logger : Option Log.Level) (transform : Transform) (options : Options) :
    State → List Bytes → State × Option Fault
  | state, [] => (state, none)
  | state, line :: rest =>
    match step transform options state line with
    | (state, some fault) => (state.reporting logger, some fault)
    | (state, none) => overLinesTo logger transform options (state.reporting logger) rest

/-- Runs a transformation over scanned lines and reports to a logger. -/
def overScannedTo (logger : Option Log.Level) (transform : Transform) (options : Options)
    (sink : Sink) (scanned : Scanned) : Outcome :=
  match overLinesTo logger transform options (begin transform sink) scanned.lines with
  | (state, some fault) => finish state (some fault)
  | (state, none) =>
    match scanned.failure with
    | some fault => finish state (some (.io Fault.reading [] fault))
    | none =>
      let state := { state with logged := endEntry state.stats :: state.logged }
      finish (state.reporting logger) none

end Run

/-- **A whole run that reports to a logger.** -/
def runTo (logger : Option Log.Level) (transform : Transform) (options : Options)
    (source : Source) (sink : Sink) : Run.Outcome :=
  Run.overScannedTo logger transform options sink (source.decode.scan options.limit)

namespace Run

variable (logger : Option Log.Level)

theorem filter_append_heard (entries logged : List Log.Entry) :
    (entries ++ logged.filter (Log.heard logger)).filter (Log.heard logger)
      = (entries ++ logged).filter (Log.heard logger) := by
  simp [List.filter_append, List.filter_filter]

/-- **An action does not look at the log**: what a logger has dropped before could as well be
dropped now. -/
theorem carryOut_reporting (action : Action) (state : State) :
    (action.carryOut (state.reporting logger)).1.reporting logger
        = (action.carryOut state).1.reporting logger ∧
      (action.carryOut (state.reporting logger)).2 = (action.carryOut state).2 := by
  have hfilter := filter_append_heard logger
  cases action with
  | callOff fault =>
    refine ⟨?_, rfl⟩
    simp [Action.carryOut, State.reporting]
  | stop fault =>
    refine ⟨?_, rfl⟩
    simp [Action.carryOut, State.reporting, State.counted]
  | leaveOut warning =>
    refine ⟨?_, rfl⟩
    have hwarning := hfilter [warning] state.logged
    simp only [List.singleton_append] at hwarning
    simp only [Action.carryOut, State.reporting, State.counted, hwarning]
  | emit result warnings =>
    simp only [Action.carryOut, State.emit, State.reporting, State.counted]
    cases (state.writer.put (result ++ [Bytes.lineFeed])).failure with
    | some fault => simp only [hfilter, and_self]
    | none =>
      simp only [← List.cons_append, hfilter, and_self]

theorem overLinesTo_reporting (transform : Transform) (options : Options) (state : State)
    (ls : List Bytes) :
    overLinesTo logger transform options (state.reporting logger) ls
      = ((overLines transform options state ls).1.reporting logger,
          (overLines transform options state ls).2) := by
  induction ls generalizing state with
  | nil => rfl
  | cons line ls ih =>
    obtain ⟨hstate, hfailure⟩ :=
      carryOut_reporting logger (action transform options state.stats line) state
    have hstep : step transform options (state.reporting logger) line
        = (action transform options state.stats line).carryOut (state.reporting logger) :=
      step_eq_carryOut transform options (state.reporting logger) line
    rw [← hstep, ← step_eq_carryOut] at hstate hfailure
    rcases hquiet : step transform options state line with ⟨next, failure⟩
    rcases hloud : step transform options (state.reporting logger) line with ⟨next', failure'⟩
    rw [hquiet, hloud] at hstate hfailure
    obtain rfl : failure' = failure := hfailure
    have hnext : next'.reporting logger = next.reporting logger := hstate
    cases failure' with
    | some fault => simp only [overLinesTo, overLines, hquiet, hloud, hnext]
    | none => simp only [overLinesTo, overLines, hquiet, hloud, hnext, ih]

theorem finish_reporting (state : State) (failure : Option Fault) :
    finish (state.reporting logger) failure
      = { finish state failure with
          log := (finish state failure).log.filter (Log.heard logger) } := by
  simp only [finish, State.reporting, List.filter_reverse]

end Run

/-- **Logging has no side effects**: a run that reports to a logger is the run without one, and the
logger hears what it keeps of the whole log. -/
theorem runTo_eq (logger : Option Log.Level) (transform : Transform) (options : Options)
    (source : Source) (sink : Sink) :
    runTo logger transform options source sink
      = { run transform options source sink with
          log := (run transform options source sink).log.filter (Log.heard logger) } := by
  have hover := Run.overLinesTo_reporting logger transform options (Run.begin transform sink)
    (source.decode.scan options.limit).lines
  have hbegin : (Run.begin transform sink).reporting logger = Run.begin transform sink := rfl
  rw [hbegin] at hover
  simp only [runTo, run, Run.overScannedTo, Run.overScanned, hover]
  rcases Run.overLines transform options (Run.begin transform sink)
    (source.decode.scan options.limit).lines with ⟨state, _ | fault⟩
  · cases (source.decode.scan options.limit).failure with
    | some fault => exact Run.finish_reporting logger state _
    | none =>
      rw [← Run.finish_reporting]
      simp only [Run.State.reporting]
      have hfilter := Run.filter_append_heard logger [Run.endEntry state.stats] state.logged
      simp only [List.singleton_append] at hfilter
      rw [hfilter]
  · exact Run.finish_reporting logger state _

/-! ## What is reported on a line -/

namespace Reference

section Reports

variable (transform : Transform) (onEmpty : Bytes)

/-- A log entry about the line with a given number. -/
def about (number : Nat) (level : Log.Level) (message : Bytes) : Log.Entry :=
  ⟨level, message, [(utf8 "transform", transform.name), (utf8 "line", Bytes.decimal number)]⟩

/-- **The warning about a line**: it has no digits, and the word for such lines is exactly `skip` or
`zero`. -/
def warning? (number : Nat) (line : Bytes) : Option Log.Entry :=
  match transform.apply line with
  | .ok _ => none
  | .error cause =>
    if Fault.emptyNumeral ∈ cause.chain then
      if onEmpty = utf8 "skip" then
        some (about transform number .warning (utf8 "Skipping line with no binary digits"))
      else if onEmpty = utf8 "zero" then
        some (about transform number .warning (utf8 "Writing 0 for line with no binary digits"))
      else none
    else none

/-- The note on a line that a result was written for. -/
def note? (number : Nat) (line : Bytes) : Option Log.Entry :=
  (verdict transform onEmpty line).result?.map fun _ =>
    about transform number .trace (utf8 "Line transformed")

/-- **The warnings about lines in a row**, the first of which has the number `start`. -/
def warnings (start : Nat) (ls : List Bytes) : List Log.Entry :=
  (ls.zipIdx start).flatMap fun (line, number) =>
    (warning? transform onEmpty number line).toList

/-- The notes on lines in a row. -/
def notes (start : Nat) (ls : List Bytes) : List Log.Entry :=
  (ls.zipIdx start).flatMap fun (line, number) => (note? transform onEmpty number line).toList

/-- **All reports on lines in a row**: on each line its warning, and then its note. -/
def reports (start : Nat) (ls : List Bytes) : List Log.Entry :=
  (ls.zipIdx start).flatMap fun (line, number) =>
    (warning? transform onEmpty number line).toList ++ (note? transform onEmpty number line).toList

end Reports

variable {transform : Transform} {onEmpty : Bytes} {number : Nat} {line : Bytes}

/-- **How a line goes**, with the verdict on it and the warning about it. -/
inductive Fate (transform : Transform) (onEmpty : Bytes) (number : Nat) (line : Bytes) : Prop where
  /-- It has a result. -/
  | result (result : Bytes) : transform.apply line = .ok result →
    verdict transform onEmpty line = .emit result →
    warning? transform onEmpty number line = none → Fate transform onEmpty number line
  /-- It has no digits and is left out. -/
  | leftOut (cause : Fault) : transform.apply line = .error cause →
    Fault.emptyNumeral ∈ cause.chain → Policy.ofWord onEmpty = .skip →
    verdict transform onEmpty line = .leaveOut →
    warning? transform onEmpty number line
      = some (about transform number .warning (utf8 "Skipping line with no binary digits")) →
    Fate transform onEmpty number line
  /-- It has no digits and counts as zero. -/
  | zero (cause : Fault) : transform.apply line = .error cause →
    Fault.emptyNumeral ∈ cause.chain → Policy.ofWord onEmpty = .zero →
    verdict transform onEmpty line = .emit (utf8 "0") →
    warning? transform onEmpty number line
      = some (about transform number .warning
          (utf8 "Writing 0 for line with no binary digits")) →
    Fate transform onEmpty number line
  /-- It ends the run. -/
  | stop (cause : Fault) : transform.apply line = .error cause →
    Fault.emptyNumeral ∉ cause.chain ∨ Policy.ofWord onEmpty = .fail →
    verdict transform onEmpty line = .stop cause →
    warning? transform onEmpty number line = none → Fate transform onEmpty number line

theorem fate (transform : Transform) (onEmpty : Bytes) (number : Nat) (line : Bytes) :
    Fate transform onEmpty number line := by
  cases ha : transform.apply line with
  | ok result => exact .result result ha (by simp only [verdict, ha]) (by simp only [warning?, ha])
  | error cause =>
    by_cases he : Fault.emptyNumeral ∈ cause.chain
    · by_cases hskip : onEmpty = utf8 "skip"
      · apply Fate.leftOut cause ha he (if_pos hskip)
        · simp only [verdict, ha, if_pos he, if_pos hskip]
        · simp only [warning?, ha, if_pos he, if_pos hskip]
      · by_cases hzero : onEmpty = utf8 "zero"
        · apply Fate.zero cause ha he ((if_neg hskip).trans (if_pos hzero))
          · simp only [verdict, ha, if_pos he, if_neg hskip, if_pos hzero]
          · simp only [warning?, ha, if_pos he, if_neg hskip, if_pos hzero]
        · apply Fate.stop cause ha (.inr ((if_neg hskip).trans (if_neg hzero)))
          · simp only [verdict, ha, if_pos he, if_neg hskip, if_neg hzero]
          · simp only [warning?, ha, if_pos he, if_neg hskip, if_neg hzero]
    · apply Fate.stop cause ha (.inl he)
      · simp only [verdict, ha, if_neg he]
      · simp only [warning?, ha, if_neg he]

theorem warnings_append (start : Nat) (ls ms : List Bytes) :
    warnings transform onEmpty start (ls ++ ms)
      = warnings transform onEmpty start ls
        ++ warnings transform onEmpty (start + ls.length) ms := by
  rw [warnings, List.zipIdx_append, List.flatMap_append]
  rfl

theorem reports_append (start : Nat) (ls ms : List Bytes) :
    reports transform onEmpty start (ls ++ ms)
      = reports transform onEmpty start ls
        ++ reports transform onEmpty (start + ls.length) ms := by
  rw [reports, List.zipIdx_append, List.flatMap_append]
  rfl

@[simp] theorem warnings_nil (start : Nat) : warnings transform onEmpty start [] = [] := rfl

theorem warnings_singleton (start : Nat) (line : Bytes) :
    warnings transform onEmpty start [line]
      = (warning? transform onEmpty start line).toList := by
  simp [warnings]

theorem reports_singleton (start : Nat) (line : Bytes) :
    reports transform onEmpty start [line]
      = (warning? transform onEmpty start line).toList
        ++ (note? transform onEmpty start line).toList := by
  simp [reports]

theorem level_of_warning? {entry : Log.Entry}
    (h : warning? transform onEmpty number line = some entry) : entry.level = .warning := by
  rw [warning?] at h
  split at h
  · cases h
  · split_ifs at h
    · obtain rfl := Option.some.inj h
      rfl
    · obtain rfl := Option.some.inj h
      rfl

theorem level_of_note? {entry : Log.Entry}
    (h : note? transform onEmpty number line = some entry) : entry.level = .trace := by
  obtain ⟨result, -, rfl⟩ := Option.map_eq_some_iff.mp h
  rfl

/-! ## One line -/

/-- **A state has dealt with some lines**: it has written or left out each of the lines `finished`,
and has counted the lines `opened` after them, of which it has left out none. The log is what is
reported on these lines. -/
structure Stands (transform : Transform) (onEmpty : Bytes) (finished opened : List Bytes)
    (state : Run.State) : Prop where
  going : ∀ line ∈ finished, (verdict transform onEmpty line).isStop = false
  kept : ∀ line ∈ opened, (verdict transform onEmpty line).isLeftOut = false
  stats : state.stats
    = { tally transform onEmpty finished with linesRead := (finished ++ opened).length }
  logged : state.logged.reverse = reports transform onEmpty 1 finished
    ++ warnings transform onEmpty (1 + finished.length) opened

/-- **A run over lines leaves a state that stands by them**: all lines are finished unless the run
has ended at one of them, and then at most counted some of the others. -/
def Leaves (transform : Transform) (onEmpty : Bytes) (ls : List Bytes)
    (result : Run.State × Option Fault) : Prop :=
  ∃ finished opened, finished ++ opened <+: ls ∧ (result.2 = none ↔ finished = ls) ∧
    Stands transform onEmpty finished opened result.1

section Step

variable {options : Options} {finished ls : List Bytes} {state next : Run.State}
  {fault : Fault}

theorem Leaves.stands (h : Leaves transform onEmpty ls (next, none)) :
    Stands transform onEmpty ls [] next := by
  obtain ⟨finished, opened, hstart, hall, hstands⟩ := h
  obtain rfl := hall.mp rfl
  have hlength := hstart.length_le
  rw [List.length_append] at hlength
  obtain rfl : opened = [] := List.eq_nil_of_length_eq_zero (by omega)
  exact hstands

/-- Once a run has ended, no further lines matter. -/
theorem Leaves.append (h : Leaves transform onEmpty ls (next, some fault)) (more : List Bytes) :
    Leaves transform onEmpty (ls ++ more) (next, some fault) := by
  obtain ⟨finished, opened, hstart, hall, hstands⟩ := h
  refine ⟨finished, opened, hstart.trans (List.prefix_append ls more), ?_, hstands⟩
  refine iff_of_false (Option.some_ne_none fault) ?_
  rintro rfl
  have hlength := hstart.length_le
  obtain rfl : more = [] := by
    rw [List.length_append, List.length_append] at hlength
    exact List.eq_nil_of_length_eq_zero (by omega)
  exact absurd (hall.mpr (List.append_nil ls)) (Option.some_ne_none fault)

theorem Stands.stats_eq (h : Stands transform onEmpty finished [] state) :
    state.stats = tally transform onEmpty finished := by
  rw [h.stats, List.append_nil]
  rfl

/-- One more line is finished. -/
theorem Stands.finish (h : Stands transform onEmpty finished [] state)
    (hv : (verdict transform onEmpty line).isStop = false)
    (hstats : next.stats = tally transform onEmpty (finished ++ [line]))
    (hlogged : next.logged.reverse
      = state.logged.reverse ++ reports transform onEmpty (1 + finished.length) [line]) :
    Leaves transform onEmpty (finished ++ [line]) (next, none) := by
  refine ⟨finished ++ [line], [], by simp, iff_of_true rfl rfl, ?_, nofun, ?_, ?_⟩
  · intro l hl
    rcases List.mem_append.mp hl with hl | hl
    · exact h.going l hl
    · rwa [List.mem_singleton.mp hl]
  · rw [hstats, List.append_nil]
    rfl
  · rw [hlogged, h.logged, reports_append, warnings_nil, warnings_nil, List.append_nil,
      List.append_nil]

/-- One more line is counted, and the run ends. -/
theorem Stands.open (h : Stands transform onEmpty finished [] state)
    (hv : (verdict transform onEmpty line).isLeftOut = false)
    (hstats : next.stats = state.counted.stats)
    (hlogged : next.logged.reverse
      = state.logged.reverse ++ warnings transform onEmpty (1 + finished.length) [line]) :
    Leaves transform onEmpty (finished ++ [line]) (next, some fault) := by
  refine ⟨finished, [line], List.prefix_rfl, by simp, h.going, ?_, ?_, ?_⟩
  · intro l hl
    rwa [List.mem_singleton.mp hl]
  · rw [hstats, Run.State.counted, h.stats_eq]
    simp [tally]
  · rw [hlogged, h.logged, warnings_nil, List.append_nil]

theorem Stands.lineEntry (h : Stands transform onEmpty finished [] state) (level : Log.Level)
    (message : Bytes) :
    Run.lineEntry state.counted.stats level message
      = about transform (1 + finished.length) level message := by
  have hnumber : (finished.length : Int) + 1 = ((1 + finished.length : Nat) : Int) := by omega
  simp only [Run.lineEntry, Run.State.counted, h.stats_eq, tally, hnumber, about]

/-- A result is written, with a note, or its line is counted and stays open. -/
theorem Stands.emit (h : Stands transform onEmpty finished [] state) {result : Bytes}
    (hv : verdict transform onEmpty line = .emit result) {entries : List Log.Entry}
    (hentries : entries = (warning? transform onEmpty (1 + finished.length) line).toList) :
    Leaves transform onEmpty (finished ++ [line])
      ({ state.counted with logged := entries ++ state.logged }.emit result) := by
  have hreverse : entries.reverse = entries := by
    rw [hentries]
    cases warning? transform onEmpty (1 + finished.length) line <;> rfl
  cases hput : (state.writer.put (result ++ [Bytes.lineFeed])).failure with
  | none =>
    have hemit : { state.counted with logged := entries ++ state.logged }.emit result
        = (_, none) := Run.emit_of_written hput
    have hnote : (note? transform onEmpty (1 + finished.length) line).toList
        = [Run.lineEntry state.counted.stats .trace (utf8 "Line transformed")] := by
      rw [h.lineEntry, note?, hv]
      rfl
    rw [hemit]
    apply h.finish
    · rw [hv]
      rfl
    · simp only [Run.State.counted, h.stats_eq, tally_snoc_of_emit hv]
      rfl
    · rw [reports_singleton, ← hentries, hnote]
      simp only [List.reverse_cons, List.reverse_append, hreverse, List.append_assoc]
  | some fault =>
    have hemit : { state.counted with logged := entries ++ state.logged }.emit result
        = ({ state.counted with
              logged := entries ++ state.logged
              writer := state.writer.put (result ++ [Bytes.lineFeed]) },
            some (.io Fault.writing [] fault)) := by
      simp only [Run.State.emit, Run.State.counted, hput]
    rw [hemit]
    apply h.open
    · rw [hv]
      rfl
    · rfl
    · rw [warnings_singleton, ← hentries]
      simp only [List.reverse_append, hreverse]

/-- **One line**: the state finishes it, or the run ends there, with the line counted or not. -/
theorem Stands.step (hp : options.onEmpty = Policy.ofWord onEmpty)
    (h : Stands transform onEmpty finished [] state) (line : Bytes) :
    Leaves transform onEmpty (finished ++ [line]) (Run.step transform options state line) := by
  cases hc : Run.calledOff? options state.stats with
  | some fault =>
    have hstep : Run.step transform options state line = (state, some fault) := by
      simp only [Run.step, hc]
    rw [hstep]
    exact ⟨finished, [], by simp, by simp, h⟩
  | none =>
    cases fate transform onEmpty (1 + finished.length) line with
    | result result ha hv hw =>
      have hentries : [] = (warning? transform onEmpty (1 + finished.length) line).toList := by
        rw [hw]
        rfl
      rw [Run.step_of_ok hc ha]
      exact h.emit hv hentries
    | zero cause ha he hpolicy hv hw =>
      have hentries : [about transform (1 + finished.length) .warning
            (utf8 "Writing 0 for line with no binary digits")]
          = (warning? transform onEmpty (1 + finished.length) line).toList := by
        rw [hw]
        rfl
      rw [Run.step_of_zero hc ha he (hp.trans hpolicy), h.lineEntry]
      exact h.emit hv hentries
    | leftOut cause ha he hpolicy hv hw =>
      rw [Run.step_of_skip hc ha he (hp.trans hpolicy), h.lineEntry]
      apply h.finish
      · rw [hv]
        rfl
      · simp only [Run.State.counted, h.stats_eq, tally_snoc_of_leaveOut hv]
        rfl
      · rw [reports_singleton, hw, note?, hv, List.reverse_cons]
        rfl
    | stop cause ha hs hv hw =>
      rw [Run.step_of_stop hc ha (hp ▸ hs)]
      apply h.open
      · rw [hv]
        rfl
      · rfl
      · rw [warnings_singleton, hw]
        exact (List.append_nil _).symm

/-- **All lines**, until one of them ends the run. -/
theorem Stands.overLines (hp : options.onEmpty = Policy.ofWord onEmpty)
    (h : Stands transform onEmpty finished [] state) (ls : List Bytes) :
    Leaves transform onEmpty (finished ++ ls) (Run.overLines transform options state ls) := by
  induction ls generalizing finished state with
  | nil =>
    rw [List.append_nil]
    exact ⟨finished, [], by simp, iff_of_true rfl rfl, h⟩
  | cons line ls ih =>
    have hleaves := h.step hp line
    simp only [Run.overLines]
    rw [List.append_cons]
    rcases hstep : Run.step transform options state line with ⟨next, _ | fault⟩
    · rw [hstep] at hleaves
      exact ih hleaves.stands
    · rw [hstep] at hleaves
      exact hleaves.append ls

end Step

theorem stands_begin (transform : Transform) (onEmpty : Bytes) (sink : Sink) :
    Stands transform onEmpty [] [] (Run.begin transform sink) :=
  ⟨nofun, nofun, rfl, rfl⟩

/-! ## Levels and numbers -/

section Levels

variable {start : Nat} {ls finished opened : List Bytes} {level : Log.Level}
  {entry : Log.Entry} {ending : List Log.Entry}

theorem level_of_mem_warnings (h : entry ∈ warnings transform onEmpty start ls) :
    entry.level = .warning := by
  obtain ⟨⟨line, number⟩, -, hentry⟩ := List.mem_flatMap.mp h
  exact level_of_warning? (Option.mem_toList.mp hentry)

/-- Whoever hears no notes hears the warnings of all reports. -/
theorem filter_reports_of_no_note {p : Log.Entry → Bool}
    (hp : ∀ entry : Log.Entry, entry.level = .trace → p entry = false) :
    (reports transform onEmpty start ls).filter p
      = (warnings transform onEmpty start ls).filter p := by
  rw [reports, warnings, List.filter_flatMap, List.filter_flatMap]
  congr 1
  funext ⟨line, number⟩
  have hnote : (note? transform onEmpty number line).toList.filter p = [] := by
    refine List.filter_eq_nil_iff.mpr fun entry hentry => ?_
    simp [hp entry (level_of_note? (Option.mem_toList.mp hentry))]
  rw [List.filter_append, hnote, List.append_nil]

/-- The notes are the reports of their level. -/
theorem filter_reports_trace :
    (reports transform onEmpty start ls).filter (·.level = .trace)
      = notes transform onEmpty start ls := by
  rw [reports, notes, List.filter_flatMap]
  congr 1
  funext ⟨line, number⟩
  have hwarning : (warning? transform onEmpty number line).toList.filter (·.level = .trace)
      = [] := by
    refine List.filter_eq_nil_iff.mpr fun entry hentry => ?_
    simp [level_of_warning? (Option.mem_toList.mp hentry)]
  have hnote : (note? transform onEmpty number line).toList.filter (·.level = .trace)
      = (note? transform onEmpty number line).toList := by
    refine List.filter_eq_self.mpr fun entry hentry => ?_
    simp [level_of_note? (Option.mem_toList.mp hentry)]
  rw [List.filter_append, hwarning, hnote, List.nil_append]

/-- **Below the level of the notes**, what is heard of a whole log is among the warnings about its
lines and the entry at its end. -/
theorem keep_log_of_lt (h : level.rank < Log.Level.trace.rank) :
    Log.keep level (reports transform onEmpty start finished
        ++ warnings transform onEmpty (start + finished.length) opened ++ ending)
      = Log.keep level (warnings transform onEmpty start (finished ++ opened))
        ++ Log.keep level ending := by
  have hnote : ∀ entry : Log.Entry, entry.level = .trace → Log.keeps level entry = false := by
    intro entry hentry
    rw [Log.keeps, hentry]
    exact decide_eq_false (Nat.not_le.mpr h)
  simp only [Log.keep, warnings_append, List.filter_append, filter_reports_of_no_note hnote]

theorem keep_of_le {entries : List Log.Entry} {common : Log.Level}
    (hcommon : ∀ entry ∈ entries, entry.level = common) (h : common.rank ≤ level.rank) :
    Log.keep level entries = entries := by
  refine List.filter_eq_self.mpr fun entry hentry => ?_
  rw [Log.keeps, hcommon entry hentry]
  exact decide_eq_true h

theorem keep_of_lt {entries : List Log.Entry} {common : Log.Level}
    (hcommon : ∀ entry ∈ entries, entry.level = common) (h : level.rank < common.rank) :
    Log.keep level entries = [] := by
  refine List.filter_eq_nil_iff.mpr fun entry hentry => ?_
  rw [Log.keeps, hcommon entry hentry, decide_eq_true_eq, Nat.not_le]
  exact h

theorem keep_trace (entries : List Log.Entry) : Log.keep .trace entries = entries := by
  refine List.filter_eq_self.mpr fun entry _ => ?_
  rw [Log.keeps]
  cases entry.level <;> rfl

section Ending

variable (hending : ∀ entry ∈ ending, entry.level = .debug)

include hending

/-- Above the level of the warnings nothing is heard. -/
theorem keep_log_of_lt_warning (h : level.rank < Log.Level.warning.rank) :
    Log.keep level (reports transform onEmpty start finished
      ++ warnings transform onEmpty (start + finished.length) opened ++ ending) = [] := by
  have hdebug : level.rank < Log.Level.debug.rank := h.trans (by decide)
  rw [keep_log_of_lt (hdebug.trans (by decide)),
    keep_of_lt (fun _ hentry => level_of_mem_warnings hentry) h, keep_of_lt hending hdebug,
    List.append_nil]

/-- From the level of the warnings on, all warnings are heard. -/
theorem keep_log_of_lt_debug (hle : Log.Level.warning.rank ≤ level.rank)
    (hlt : level.rank < Log.Level.debug.rank) :
    Log.keep level (reports transform onEmpty start finished
        ++ warnings transform onEmpty (start + finished.length) opened ++ ending)
      = warnings transform onEmpty start (finished ++ opened) := by
  rw [keep_log_of_lt (hlt.trans (by decide)),
    keep_of_le (fun _ hentry => level_of_mem_warnings hentry) hle, keep_of_lt hending hlt,
    List.append_nil]

/-- The entry at the end is heard next. -/
theorem keep_log_debug :
    Log.keep .debug (reports transform onEmpty start finished
        ++ warnings transform onEmpty (start + finished.length) opened ++ ending)
      = warnings transform onEmpty start (finished ++ opened) ++ ending := by
  rw [keep_log_of_lt (by decide),
    keep_of_le (fun _ hentry => level_of_mem_warnings hentry) (by decide),
    keep_of_le hending (by decide)]

/-- The entries of the level of the notes are the notes. -/
theorem filter_log_trace :
    (reports transform onEmpty start finished
        ++ warnings transform onEmpty (start + finished.length) opened ++ ending).filter
          (·.level = .trace)
      = notes transform onEmpty start finished := by
  have hwarnings : (warnings transform onEmpty (start + finished.length) opened).filter
      (·.level = .trace) = [] := by
    refine List.filter_eq_nil_iff.mpr fun entry hentry => ?_
    simp [level_of_mem_warnings hentry]
  have hnone : ending.filter (·.level = .trace) = [] := by
    refine List.filter_eq_nil_iff.mpr fun entry hentry => ?_
    simp [hending entry hentry]
  rw [List.filter_append, List.filter_append, filter_reports_trace, hwarnings, hnone,
    List.append_nil, List.append_nil]

end Ending

/-- **There is one note for each result.** -/
theorem length_notes (start : Nat) (ls : List Bytes) :
    (notes transform onEmpty start ls).length = (results transform onEmpty ls).length := by
  induction ls generalizing start with
  | nil => rfl
  | cons line ls ih =>
    have hcons : notes transform onEmpty start (line :: ls)
        = (note? transform onEmpty start line).toList ++ notes transform onEmpty (start + 1) ls :=
      rfl
    rw [hcons, List.length_append, ih, note?]
    simp only [results, List.filterMap_cons]
    cases (verdict transform onEmpty line).result? with
    | none => exact Nat.zero_add _
    | some result => exact Nat.add_comm _ _

theorem leftOut_append (ls ms : List Bytes) :
    leftOut transform onEmpty (ls ++ ms)
      = leftOut transform onEmpty ls + leftOut transform onEmpty ms :=
  List.countP_append

/-- **There is one warning for each line that is left out**, if such lines are. -/
theorem length_warnings_of_skip (start : Nat) (ls : List Bytes) :
    (warnings transform (utf8 "skip") start ls).length = leftOut transform (utf8 "skip") ls := by
  induction ls generalizing start with
  | nil => rfl
  | cons line ls ih =>
    have hcons : warnings transform (utf8 "skip") start (line :: ls)
        = (warning? transform (utf8 "skip") start line).toList
          ++ warnings transform (utf8 "skip") (start + 1) ls := rfl
    rw [hcons, List.length_append, ih, leftOut, leftOut, List.countP_cons, Nat.add_comm]
    congr 1
    cases fate transform (utf8 "skip") start line with
    | result _ _ hv hw | leftOut _ _ _ _ hv hw | stop _ _ _ hv hw =>
      rw [hv, hw]
      rfl
    | zero _ _ _ hpolicy =>
      exact absurd hpolicy (by decide)

/-- Lines that do not end the run have a result or are left out. -/
theorem length_results_add_leftOut
    (h : ∀ line ∈ ls, (verdict transform onEmpty line).isStop = false) :
    (results transform onEmpty ls).length + leftOut transform onEmpty ls = ls.length := by
  induction ls with
  | nil => rfl
  | cons line ls ih =>
    obtain ⟨hline, hls⟩ := List.forall_mem_cons.mp h
    rw [← List.singleton_append, results_append, List.length_append, List.length_append, leftOut,
      List.countP_append, ← ih hls, leftOut, results]
    cases hv : verdict transform onEmpty line with
    | stop cause => simp [hv, Verdict.isStop] at hline
    | emit result =>
      simp [hv, Verdict.result?, Verdict.isLeftOut]
      omega
    | leaveOut =>
      simp [hv, Verdict.result?, Verdict.isLeftOut]
      omega

/-- **The counters tell how far the run went**: which lines were taken, and which were written or
left out. -/
theorem take_of_stats {stats : Stats} (hstart : finished ++ opened <+: ls)
    (hgoing : ∀ line ∈ finished, (verdict transform onEmpty line).isStop = false)
    (hstats : stats
      = { tally transform onEmpty finished with linesRead := (finished ++ opened).length }) :
    ls.take stats.linesRead.toNat = finished ++ opened ∧
      ls.take (stats.linesWritten + stats.linesSkipped).toNat = finished := by
  have hlength : (stats.linesWritten + stats.linesSkipped).toNat = finished.length := by
    rw [hstats, ← length_results_add_leftOut hgoing]
    simp only [tally]
    omega
  constructor
  · rw [hstats, Int.toNat_natCast]
    exact (List.prefix_iff_eq_take.mp hstart).symm
  · rw [hlength]
    exact (List.prefix_iff_eq_take.mp ((List.prefix_append finished opened).trans hstart)).symm

end Levels

/-! ## Whole runs -/

/-- **The log of a run over scanned lines**: what is reported on the lines that it has dealt with,
and then the counters if it has dealt with all of them and the scan has not failed. -/
theorem exists_log_overScanned (transform : Transform) {options : Options}
    (hp : options.onEmpty = Policy.ofWord onEmpty)
    (sink : Sink) (scanned : Scanned) :
    let outcome := Run.overScanned transform options sink scanned
    ∃ finished opened, finished ++ opened <+: scanned.lines ∧
      (∀ line ∈ finished, (verdict transform onEmpty line).isStop = false) ∧
      (∀ line ∈ opened, (verdict transform onEmpty line).isLeftOut = false) ∧
      outcome.stats
        = { tally transform onEmpty finished with linesRead := (finished ++ opened).length } ∧
      outcome.log = reports transform onEmpty 1 finished
        ++ warnings transform onEmpty (1 + finished.length) opened
        ++ if scanned.failure = none ∧ finished = scanned.lines
          then [Run.endEntry outcome.stats] else [] := by
  intro outcome
  have hstats := Run.stats_overScanned transform options sink scanned
  have hleaves := (stands_begin transform onEmpty sink).overLines hp scanned.lines
  rw [List.nil_append] at hleaves
  rcases hover : Run.overLines transform options (Run.begin transform sink) scanned.lines with
    ⟨state, failure⟩
  rw [hover] at hstats hleaves
  obtain ⟨finished, opened, hstart, hall, hstands⟩ := hleaves
  refine ⟨finished, opened, hstart, hstands.going, hstands.kept, hstats.trans hstands.stats, ?_⟩
  rw [← hstands.logged, hstats]
  simp only [outcome, Run.overScanned, hover]
  cases failure with
  | some fault =>
    have hnot : ¬ finished = scanned.lines := fun h => by simpa using hall.mpr h
    simp [hnot, Run.finish]
  | none =>
    have hfinished : finished = scanned.lines := hall.mp rfl
    cases scanned.failure with
    | none => simp [hfinished, Run.finish]
    | some fault => simp [Run.finish]

end Reference

/-- **The log of a run**, whatever the source and the sink do, and whenever it is called off. The
output, the counters and the failure do not depend on the logger, and a logger hears what its level
keeps of the whole log. What that is can be said level by level: of the lines that were taken, each
one without digits that the policy tolerates has its warning; an input that was scanned to its end
has one last entry with the three counters of lines; each line that was written has its note,
behind its warning. -/
theorem run_log_exact (transform : Transform) (onEmpty : Bytes) (limit : Int)
    (cancellation : Option Cancellation) (source : Source) (sink : Sink) :
    let options : Options :=
      { onEmpty := Policy.ofWord onEmpty, maxLineBytes := limit, cancellation }
    let scanned := source.decode.scan options.limit
    let outcome := run transform options source sink
    let log := fun logger => (runTo logger transform options source sink).log
    let taken := scanned.lines.take outcome.stats.linesRead.toNat
    let finished :=
      scanned.lines.take (outcome.stats.linesWritten + outcome.stats.linesSkipped).toNat
    let ending : List Log.Entry := if scanned.failure = none ∧ finished = scanned.lines then
        [{ level := .debug
           message := utf8 "Stream processed"
           fields := [(utf8 "transform", transform.name),
             (utf8 "lines_read", Bytes.decimal outcome.stats.linesRead),
             (utf8 "lines_written", Bytes.decimal outcome.stats.linesWritten),
             (utf8 "lines_skipped", Bytes.decimal outcome.stats.linesSkipped)] }]
      else []
    (∀ logger, runTo logger transform options source sink = { outcome with log := log logger }) ∧
      (∀ level, log (some level) = Log.keep level outcome.log) ∧
      (∀ logger ∈ [none, some .panic, some .fatal, some .error], log logger = []) ∧
      (∀ logger ∈ [some .warning, some .info],
        log logger = Reference.warnings transform onEmpty 1 taken) ∧
      log (some .debug) = Reference.warnings transform onEmpty 1 taken ++ ending ∧
      log (some .trace) = Reference.reports transform onEmpty 1 finished
        ++ Reference.warnings transform onEmpty (1 + finished.length) (taken.drop finished.length)
        ++ ending ∧
      (log (some .trace)).filter (·.level = .trace)
        = Reference.notes transform onEmpty 1 finished ∧
      taken.length = outcome.stats.linesRead ∧
      finished.length = outcome.stats.linesWritten + outcome.stats.linesSkipped ∧
      (Reference.notes transform onEmpty 1 finished).length = outcome.stats.linesWritten ∧
      (onEmpty = utf8 "skip" → (Reference.warnings transform onEmpty 1 taken).length
        = outcome.stats.linesSkipped) := by
  intro options scanned outcome log taken finished ending
  have hpolicy : options.onEmpty = Policy.ofWord onEmpty := rfl
  obtain ⟨first, opened, hstart, hgoing, hkept, hstats, hlog⟩ :=
    Reference.exists_log_overScanned transform hpolicy sink scanned
  change outcome.stats = _ at hstats
  change outcome.log = _ ++ ite _ [Run.endEntry outcome.stats] _ at hlog
  have hname : outcome.stats.transform = transform.name := by
    rw [hstats]
    rfl
  rw [Run.endEntry, hname] at hlog
  obtain ⟨htaken, hfinished⟩ := Reference.take_of_stats hstart hgoing hstats
  change taken = first ++ opened at htaken
  change finished = first at hfinished
  subst hfinished
  have hending : ∀ entry ∈ ending, entry.level = .debug := by
    intro entry hentry
    simp only [ending] at hentry
    split_ifs at hentry
    · rw [List.mem_singleton.mp hentry]
    · cases hentry
  have hheard : ∀ logger, log logger = outcome.log.filter (Log.heard logger) := by
    intro logger
    exact congrArg Run.Outcome.log (runTo_eq logger transform options source sink)
  have hkeep : ∀ level, log (some level) = Log.keep level outcome.log := fun level =>
    hheard (some level)
  have htrace : log (some .trace) = outcome.log :=
    (hkeep .trace).trans (Reference.keep_trace outcome.log)
  refine ⟨?_, hkeep, ?_, ?_, ?_, ?_, ?_, ?_, ?_, ?_, ?_⟩
  · intro logger
    rw [hheard]
    exact runTo_eq logger transform options source sink
  · intro logger hlogger
    simp only [List.mem_cons, List.not_mem_nil, or_false] at hlogger
    rcases hlogger with rfl | rfl | rfl | rfl
    · rw [hheard]
      exact List.filter_eq_nil_iff.mpr fun _ _ => Bool.false_ne_true
    all_goals
      rw [hkeep, hlog]
      exact Reference.keep_log_of_lt_warning hending (by decide)
  · intro logger hlogger
    simp only [List.mem_cons, List.not_mem_nil, or_false] at hlogger
    rcases hlogger with rfl | rfl
    all_goals
      rw [hkeep, hlog, htaken]
      exact Reference.keep_log_of_lt_debug hending (by decide) (by decide)
  · rw [hkeep, hlog, htaken]
    exact Reference.keep_log_debug hending
  · have hopened : taken.drop finished.length = opened := by
      rw [htaken, List.drop_left]
    rw [htrace, hopened]
    exact hlog
  · rw [htrace, hlog]
    exact Reference.filter_log_trace hending
  · rw [htaken, hstats]
  · have hcount := Reference.length_results_add_leftOut hgoing
    rw [hstats, ← hcount]
    exact Int.natCast_add _ _
  · rw [Reference.length_notes, hstats]
    rfl
  · rintro rfl
    have hopened : Reference.leftOut transform (utf8 "skip") opened = 0 :=
      List.countP_eq_zero.mpr fun line hline => by simp [hkept line hline]
    rw [Reference.length_warnings_of_skip, htaken, Reference.leftOut_append, hopened, hstats]
    rfl

/-- A run that leaves out the second of three lines, and counts it. -/
theorem run_log_exact_skip :
    let source : Source := { data := utf8 "1\nnone\r\n10", chunk := 2 }
    (run Transform.binary { onEmpty := Policy.ofWord (utf8 "skip") } source {}).stats.linesSkipped
        = 1 ∧
      (runTo (some .info) Transform.binary { onEmpty := Policy.ofWord (utf8 "skip") } source {}).log
        = [Reference.about Transform.binary 2 .warning
            (utf8 "Skipping line with no binary digits")] := by
  intro source
  have hscan : source.decode.scan (Options.limit { onEmpty := Policy.ofWord (utf8 "skip") })
      = ⟨[utf8 "1", utf8 "none", utf8 "10"], none⟩ := by
    have hlines : lines (decodeText source.data) = [utf8 "1", utf8 "none", utf8 "10"] := by decide
    rw [Options.limit_of_nonpos (Int.le_refl 0), Source.scan_decode, hlines]
  have hstats : (run Transform.binary { onEmpty := Policy.ofWord (utf8 "skip") } source {}).stats
      = ⟨utf8 "binary", 3, 2, 1, 4, 0⟩ := by
    have hkept := Reference.kept_of_forall Transform.binary (utf8 "skip")
      [utf8 "1", utf8 "none", utf8 "10"] (by decide)
    have htally := (Reference.overScanned_of_kept { onEmpty := Policy.ofWord (utf8 "skip") } {}
      ⟨_, none⟩ rfl rfl rfl hkept).2.1
    rw [run, hscan, htally]
    decide
  have hlog := (run_log_exact Transform.binary (utf8 "skip") 0 none source {}).2.2.2.1
    (some .info) (by decide)
  rw [hscan, hstats] at hlog
  rw [hstats]
  exact ⟨rfl, hlog.trans (by decide)⟩

end Linewise

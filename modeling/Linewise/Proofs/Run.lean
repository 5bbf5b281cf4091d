import Linewise.Run

/-!
# One line of a run

What one line does to the state of a run, said once for each way it can go: the run
is called off before the line, the line has a result, it is left out or counts as
zero by policy, or it ends the run. A run over lines goes on where it stopped.

## Main definitions

* `Run.State.counted`: the state with one more line read
* `Run.Action`, `Run.action`: what a line makes a run do, given the counters so far
* `Run.Action.carryOut`: what that does to the state

## Main results

* `Options.limit_of_nonpos`, `Options.limit_ne_zero`: the bound that options put on a line
* `Run.step_of_calledOff`, `Run.step_of_ok`, `Run.step_of_skip`, `Run.step_of_zero`,
  `Run.step_of_stop`: one line
* `Run.emit_of_written`: writing a result
* `Run.step_eq_carryOut`: one line, as an action that is carried out
* `Run.overLines_append`: lines after lines
-/

namespace Linewise

theorem Options.limit_of_nonpos {options : Options} (h : options.maxLineBytes ≤ 0) :
    options.limit = none :=
  if_pos h

/-- The bound on a line buffer is no bound or at least one byte. -/
theorem Options.limit_ne_zero (options : Options) : options.limit ≠ some 0 := by
  rw [limit]
  split
  next => exact (Option.some_ne_none 0).symm
  next h =>
    intro hz
    have hnat := Option.some.inj hz
    omega

theorem Fault.isEmptyNumeral_iff {fault : Fault} :
    fault.isEmptyNumeral = true ↔ Fault.emptyNumeral ∈ fault.chain := by
  simp [isEmptyNumeral]

namespace Run

/-- The state with one more line read. -/
def State.counted (state : State) : State :=
  { state with stats := { state.stats with linesRead := state.stats.linesRead + 1 } }

/-- A run that nobody calls off goes on. -/
theorem calledOff?_none {options : Options} (h : options.cancellation = none) (stats : Stats) :
    calledOff? options stats = none := by
  rw [calledOff?, h]

/-- A result that the writer takes is counted and logged. -/
theorem emit_of_written {state : State} {result : Bytes}
    (h : (state.writer.put (result ++ [Bytes.lineFeed])).failure = none) :
    state.emit result
      = ({ stats := { state.stats with
              linesWritten := state.stats.linesWritten + 1
              bytesWritten := state.stats.bytesWritten + (result.length + 1) }
           writer := state.writer.put (result ++ [Bytes.lineFeed])
           logged := lineEntry state.stats .trace (utf8 "Line transformed") :: state.logged },
          none) := by
  simp only [State.emit, h]

section Step

variable {transform : Transform} {options : Options} {state : State} {line : Bytes}

theorem step_of_ok {result : Bytes} (hc : calledOff? options state.stats = none)
    (h : transform.apply line = .ok result) :
    step transform options state line = state.counted.emit result := by
  simp only [step, hc, h]
  rfl

variable {cause : Fault}

/-- A line without digits is left out, with a warning, if the policy says so. -/
theorem step_of_skip (hc : calledOff? options state.stats = none)
    (h : transform.apply line = .error cause) (he : Fault.emptyNumeral ∈ cause.chain)
    (hp : options.onEmpty = .skip) :
    step transform options state line
      = ({ state.counted with
            stats := { state.counted.stats with linesSkipped := state.stats.linesSkipped + 1 }
            logged := lineEntry state.counted.stats .warning
              (utf8 "Skipping line with no binary digits") :: state.logged }, none) := by
  simp only [step, hc, h, Fault.isEmptyNumeral_iff.mpr he, hp]
  rfl

/-- A line without digits counts as zero, with a warning, if the policy says so. -/
theorem step_of_zero (hc : calledOff? options state.stats = none)
    (h : transform.apply line = .error cause) (he : Fault.emptyNumeral ∈ cause.chain)
    (hp : options.onEmpty = .zero) :
    step transform options state line
      = { state.counted with
            logged := lineEntry state.counted.stats .warning
              (utf8 "Writing 0 for line with no binary digits") :: state.logged }.emit
          (utf8 "0") := by
  simp only [step, hc, h, Fault.isEmptyNumeral_iff.mpr he, hp]
  rfl

/-- Any other failure of the transformation ends the run at the line, which is counted. -/
theorem step_of_stop (hc : calledOff? options state.stats = none)
    (h : transform.apply line = .error cause)
    (hs : Fault.emptyNumeral ∉ cause.chain ∨ options.onEmpty = .fail) :
    step transform options state line
      = (state.counted,
          some (.parse transform.name (state.stats.linesRead + 1) line cause)) := by
  simp only [step, hc, h]
  by_cases he : cause.isEmptyNumeral = true
  · have hp := hs.resolve_left fun hn => hn (Fault.isEmptyNumeral_iff.mp he)
    simp only [he, hp]
    rfl
  · simp only [he]
    rfl

end Step

/-! ## Actions

Which way a line goes is decided by the options, the transformation and the number of
lines read so far. The output has no say in it: it only takes what is written. -/

/-- **What a line makes a run do.** -/
inductive Action where
  /-- The run is called off before the line, which is not counted. -/
  | callOff (fault : Fault)
  /-- The line is counted and ends the run. -/
  | stop (fault : Fault)
  /-- The line is counted and left out, with a warning. -/
  | leaveOut (warning : Log.Entry)
  /-- The line is counted and a result is written for it, after some warnings. -/
  | emit (result : Bytes) (warnings : List Log.Entry)

/-- **The action a line calls for**, given the counters so far. -/
def action (transform : Transform) (options : Options) (stats : Stats) (line : Bytes) : Action :=
  match calledOff? options stats with
  | some fault => .callOff fault
  | none =>
    let stats := { stats with linesRead := stats.linesRead + 1 }
    match transform.apply line with
    | .ok result => .emit result []
    | .error cause =>
      let fault := Fault.parse transform.name stats.linesRead line cause
      if !cause.isEmptyNumeral then .stop fault
      else
        match options.onEmpty with
        | .fail => .stop fault
        | .skip =>
          .leaveOut (lineEntry stats .warning (utf8 "Skipping line with no binary digits"))
        | .zero =>
          .emit (utf8 "0")
            [lineEntry stats .warning (utf8 "Writing 0 for line with no binary digits")]

/-- **What an action does to the state**, and the failure it ends the run with. -/
def Action.carryOut (state : State) : Action → State × Option Fault
  | callOff fault => (state, some fault)
  | stop fault => (state.counted, some fault)
  | leaveOut warning =>
    ({ state.counted with
        stats := { state.counted.stats with linesSkipped := state.stats.linesSkipped + 1 }
        logged := warning :: state.logged }, none)
  | emit result warnings => { state.counted with logged := warnings ++ state.logged }.emit result

/-- **Taking a line is carrying out the action it calls for.** -/
theorem step_eq_carryOut (transform : Transform) (options : Options) (state : State)
    (line : Bytes) :
    step transform options state line
      = (action transform options state.stats line).carryOut state := by
  rw [step, action]
  cases calledOff? options state.stats with
  | some fault => rfl
  | none =>
    cases transform.apply line with
    | ok result => rfl
    | error cause =>
      simp only
      cases cause.isEmptyNumeral with
      | false => rfl
      | true => cases options.onEmpty <;> rfl

/-- **A run over lines goes on where it stopped**, unless it ended there. -/
theorem overLines_append (transform : Transform) (options : Options) (state : State)
    (first more : List Bytes) :
    overLines transform options state (first ++ more)
      = match overLines transform options state first with
        | (state, some fault) => (state, some fault)
        | (state, none) => overLines transform options state more := by
  induction first generalizing state with
  | nil => rfl
  | cons line first ih =>
    simp only [List.cons_append, overLines]
    rcases step transform options state line with ⟨next, _ | fault⟩
    · exact ih next
    · rfl

end Run

end Linewise

import Linewise.LineBuffer
import Linewise.Log
import Linewise.Policy
import Linewise.Sink
import Linewise.Transform

/-!
# Runs

A run takes the lines of a source one by one, transforms each and writes the
results to a sink, one line feed after each. It stops at the first line that
cannot be transformed, unless the line merely lacks binary digits and the policy
tolerates that, and at the first failure of the sink; it may also be called off
between two lines. What was written before it stopped is handed to the sink.

## Main definitions

* `Stats` — the counters of a run.
* `Cancellation` — when a run is called off.
* `Run.step`, `Run.overLines` — one line, and all of them.
* `run` — a whole run, from a source to a sink.
* `Run.Outcome` — what is left of it.
-/

namespace Linewise

/-- **The counters of a run.** -/
structure Stats where
  /-- The name of the transformation. -/
  transform : Bytes := []
  /-- Lines taken from the input. -/
  linesRead : Int := 0
  /-- Lines written to the output. -/
  linesWritten : Int := 0
  /-- Lines left out by policy. -/
  linesSkipped : Int := 0
  /-- Bytes written to the output, terminators included. -/
  bytesWritten : Int := 0
  /-- How long the run took, in nanoseconds. -/
  duration : Int := 0
deriving DecidableEq, Repr

/-- **When a run is called off**: before the line that follows the first `lines` ones, with a
given failure. -/
structure Cancellation where
  /-- How many lines go through. -/
  lines : Nat
  /-- The failure the run then ends with. -/
  failure : Fault

/-- How a run treats its lines. -/
structure Options where
  /-- What to do with a line without binary digits. -/
  onEmpty : Policy := .fail
  /-- The bound on the length of a line; zero or less for none. -/
  maxLineBytes : Int := 0
  /-- When the run is called off; `none` for never. -/
  cancellation : Option Cancellation := none

/-- The bound that the options put on the line buffer. -/
def Options.limit (options : Options) : Limit :=
  if options.maxLineBytes ≤ 0 then none else some options.maxLineBytes.toNat

namespace Run

/-- **The state of a run between two lines.** -/
structure State where
  /-- The counters so far. -/
  stats : Stats
  /-- The output so far. -/
  writer : Writer
  /-- The entries logged so far, last first. -/
  logged : List Log.Entry := []

/-- The log entry about the line read last. -/
def lineEntry (stats : Stats) (level : Log.Level) (message : Bytes) : Log.Entry :=
  ⟨level, message, [(utf8 "transform", stats.transform),
    (utf8 "line", Bytes.decimal stats.linesRead)]⟩

/-- The log entry at the end of an input that was read to its end. -/
def endEntry (stats : Stats) : Log.Entry :=
  ⟨.debug, utf8 "Stream processed", [(utf8 "transform", stats.transform),
    (utf8 "lines_read", Bytes.decimal stats.linesRead),
    (utf8 "lines_written", Bytes.decimal stats.linesWritten),
    (utf8 "lines_skipped", Bytes.decimal stats.linesSkipped)]⟩

/-- Is the run called off before the next line? -/
def calledOff? (options : Options) (stats : Stats) : Option Fault :=
  match options.cancellation with
  | some cancellation =>
    if stats.linesRead < cancellation.lines then none else some cancellation.failure
  | none => none

/-- Writes a result and counts it. -/
def State.emit (state : State) (result : Bytes) : State × Option Fault :=
  let writer := state.writer.put (result ++ [Bytes.lineFeed])
  match writer.failure with
  | some fault => ({ state with writer }, some (.io Fault.writing [] fault))
  | none =>
    ({ stats := { state.stats with
          linesWritten := state.stats.linesWritten + 1
          bytesWritten := state.stats.bytesWritten + (result.length + 1) }
       writer
       logged := lineEntry state.stats .trace (utf8 "Line transformed") :: state.logged }, none)

/-- **Takes one line**: counts it, transforms it, and writes what the transformation or the
policy says. The failure, if there is one, ends the run. -/
def step (transform : Transform) (options : Options) (state : State) (line : Bytes) :
    State × Option Fault :=
  match calledOff? options state.stats with
  | some fault => (state, some fault)
  | none =>
    let stats := { state.stats with linesRead := state.stats.linesRead + 1 }
    let state := { state with stats }
    match transform.apply line with
    | .ok result => state.emit result
    | .error cause =>
      let fault := Fault.parse transform.name stats.linesRead line cause
      if !cause.isEmptyNumeral then (state, some fault)
      else
        match options.onEmpty with
        | .fail => (state, some fault)
        | .skip =>
          ({ state with
              stats := { stats with linesSkipped := stats.linesSkipped + 1 }
              logged := lineEntry stats .warning (utf8 "Skipping line with no binary digits")
                :: state.logged }, none)
        | .zero =>
          { state with
              logged := lineEntry stats .warning (utf8 "Writing 0 for line with no binary digits")
                :: state.logged }.emit (utf8 "0")

/-- **Takes lines until one of them ends the run.** -/
def overLines (transform : Transform) (options : Options) : State → List Bytes →
    State × Option Fault
  | state, [] => (state, none)
  | state, line :: rest =>
    match step transform options state line with
    | (state, some fault) => (state, some fault)
    | (state, none) => overLines transform options state rest

/-- The state before the first line. -/
def begin (transform : Transform) (sink : Sink) : State :=
  { stats := { transform := transform.name }, writer := { sink } }

/-- **What is left of a run.** -/
structure Outcome where
  /-- The sink with the output. -/
  sink : Sink
  /-- The counters. -/
  stats : Stats
  /-- The failure that ended the run, if one did. -/
  failure : Option Fault
  /-- The log, in order. -/
  log : List Log.Entry

/-- Ends a run: hands the rest of the output to the sink. A failure to do so counts only if there
is no other. -/
def finish (state : State) (failure : Option Fault) : Outcome :=
  let writer := state.writer.flush
  { sink := writer.sink
    stats := state.stats
    failure := failure <|> writer.failure.map (.io Fault.writing [])
    log := state.logged.reverse }

/-- Runs a transformation over scanned lines. -/
def overScanned (transform : Transform) (options : Options) (sink : Sink) (scanned : Scanned) :
    Outcome :=
  match overLines transform options (begin transform sink) scanned.lines with
  | (state, some fault) => finish state (some fault)
  | (state, none) =>
    match scanned.failure with
    | some fault => finish state (some (.io Fault.reading [] fault))
    | none => finish { state with logged := endEntry state.stats :: state.logged } none

end Run

/-- **A whole run**: decodes the source, cuts it into lines, transforms them and writes the
results to the sink. -/
def run (transform : Transform) (options : Options) (source : Source) (sink : Sink) :
    Run.Outcome :=
  Run.overScanned transform options sink (source.decode.scan options.limit)

end Linewise

import Linewise.Duration
import Linewise.Run

/-!
# Run metrics

Runs are counted by the transformation they used. A counter only grows, and a
histogram sorts the durations of runs into buckets. The text form lists every
family that has a sample, in byte order of names and labels.

## Main definitions

* `Metrics.Counter`, `Metrics.Histogram` — what is kept for one label.
* `Metrics` — everything recorded so far.
* `Metrics.observe` — records the outcome of a run.
* `Metrics.samples` — the recorded values.
* `Metrics.exposition` — the text form.
-/

namespace Linewise

namespace Metrics

/-- **Values by label**, in byte order of the labels. -/
abbrev Series (α : Type) := List (Bytes × α)

/-- Changes the value at a label, which starts as `fresh` when it is new. -/
def Series.update {α : Type} (label : Bytes) (fresh : α) (change : α → α) : Series α → Series α
  | [] => [(label, change fresh)]
  | entry :: rest =>
    if label = entry.1 then (label, change entry.2) :: rest
    else if Bytes.le label entry.1 then (label, change fresh) :: entry :: rest
    else entry :: Series.update label fresh change rest

/-- The value at a label. -/
def Series.at? {α : Type} (series : Series α) (label : Bytes) : Option α :=
  (series.find? fun entry => entry.1 = label).map Prod.snd

/-- **A counter**: a total of 64 bits. -/
structure Counter where
  /-- The total. -/
  total : UInt64 := 0
deriving DecidableEq, Repr

/-- The counter after an addition. The amount goes through double precision. -/
def Counter.add (counter : Counter) (amount : Int) : Counter :=
  ⟨counter.total + UInt64.ofNat (Binary64.ofInt amount).toNat⟩

/-- The value of a counter as a number. -/
def Counter.value (counter : Counter) : Binary64 :=
  Binary64.ofInt counter.total.toNat

/-- The upper bounds of the buckets in seconds: from a millisecond on, each four times the one
before. -/
def bounds : List Binary64 :=
  (List.range 8).map fun k => (Binary64.ofRatio false 1 1000).scale (2 * k)

/-- **A histogram of durations.** -/
structure Histogram where
  /-- How many samples each bucket holds, without those of smaller buckets. -/
  buckets : List Nat := bounds.map fun _ => 0
  /-- The sum of all samples. -/
  sum : Binary64 := Binary64.zero
  /-- How many samples there are. -/
  count : Nat := 0
deriving DecidableEq, Repr

/-- Adds one to the first bucket whose bound is not below the sample. -/
def intoBucket (sample : Binary64) : (bounds : List Binary64) → (buckets : List Nat) → List Nat
  | bound :: bounds, bucket :: buckets =>
    if sample.le bound then (bucket + 1) :: buckets
    else bucket :: intoBucket sample bounds buckets
  | _, buckets => buckets

/-- The histogram with one more sample. -/
def Histogram.add (histogram : Histogram) (sample : Binary64) : Histogram where
  buckets := intoBucket sample bounds histogram.buckets
  sum := histogram.sum.add sample
  count := histogram.count + 1

/-- The running totals of a list. -/
def cumulative (total : Nat) : List Nat → List Nat
  | [] => []
  | n :: rest => (total + n) :: cumulative (total + n) rest

/-- **Why an observation is refused.** -/
inductive Refusal where
  /-- A count is negative. -/
  | decreasing
  /-- The label is not valid UTF-8. -/
  | malformedLabel (label : Bytes)
deriving DecidableEq, Repr

/-- The wording of a refusal. -/
def Refusal.message : Refusal → Bytes
  | decreasing => utf8 "counter cannot decrease in value"
  | malformedLabel label => utf8 "label value " ++ quoted label ++ utf8 " is not valid UTF-8"

end Metrics

open Metrics in
/-- **Everything recorded so far.** -/
structure Metrics where
  /-- Runs that a stream failure ended. -/
  ioErrors : Series Counter := []
  /-- Lines read. -/
  linesRead : Series Counter := []
  /-- Lines left out. -/
  linesSkipped : Series Counter := []
  /-- Lines written. -/
  linesWritten : Series Counter := []
  /-- Runs that a line ended. -/
  parseErrors : Series Counter := []
  /-- How long runs took. -/
  durations : Series Histogram := []
deriving DecidableEq, Repr

namespace Metrics

/-- Adds an amount to the counter at a label. -/
def addTo (label : Bytes) (amount : Int) (series : Series Counter) : Series Counter :=
  Series.update label {} (·.add amount) series

/-- Records the failure of a run: a line failure anywhere in its chain counts as such, and else a
stream failure. -/
def observeFailure (metrics : Metrics) (label : Bytes) : Option Fault → Metrics
  | none => metrics
  | some fault =>
    if fault.parseKind?.isSome then
      { metrics with parseErrors := addTo label 1 metrics.parseErrors }
    else if fault.ioKind?.isSome then
      { metrics with ioErrors := addTo label 1 metrics.ioErrors }
    else metrics

/-- **Records the outcome of a run.** The counts are recorded one after the other, and the first
that is negative ends the recording: its series is begun, what came before is kept and nothing
after it is recorded. -/
def observe (metrics : Metrics) (stats : Stats) (failure : Option Fault) :
    Metrics × Option Refusal :=
  let label := stats.transform
  if !isValidUtf8 label then (metrics, some (.malformedLabel label))
  else if stats.linesRead < 0 then
    ({ metrics with linesRead := addTo label 0 metrics.linesRead }, some .decreasing)
  else
    let metrics := { metrics with linesRead := addTo label stats.linesRead metrics.linesRead }
    if stats.linesWritten < 0 then
      ({ metrics with linesWritten := addTo label 0 metrics.linesWritten }, some .decreasing)
    else
      let metrics :=
        { metrics with linesWritten := addTo label stats.linesWritten metrics.linesWritten }
      if stats.linesSkipped < 0 then
        ({ metrics with linesSkipped := addTo label 0 metrics.linesSkipped }, some .decreasing)
      else
        let metrics :=
          { metrics with
            linesSkipped := addTo label stats.linesSkipped metrics.linesSkipped
            durations := Series.update label {} (·.add (Duration.seconds stats.duration))
              metrics.durations }
        (metrics.observeFailure label failure, none)

/-- **A family of metrics**: the name and the description it is listed under. -/
structure Family where
  /-- The name. -/
  name : Bytes
  /-- One line on what it measures. -/
  help : Bytes

/-- The counters with their families, in byte order of names. -/
def counters (metrics : Metrics) : List (Family × Series Counter) :=
  [(⟨utf8 "codeclean_io_errors_total", utf8 "Runs aborted by an I/O failure."⟩, metrics.ioErrors),
    (⟨utf8 "codeclean_lines_read_total", utf8 "Input lines read."⟩, metrics.linesRead),
    (⟨utf8 "codeclean_lines_skipped_total", utf8 "Input lines dropped by the skip policy."⟩,
      metrics.linesSkipped),
    (⟨utf8 "codeclean_lines_written_total", utf8 "Output lines written."⟩, metrics.linesWritten),
    (⟨utf8 "codeclean_parse_errors_total",
      utf8 "Runs aborted by a line that could not be transformed."⟩, metrics.parseErrors)]

/-- The family of run durations. -/
def durationFamily : Family :=
  ⟨utf8 "codeclean_run_duration_seconds", utf8 "Wall time of a run."⟩

/-- **A recorded value**: the value of a counter, or the number of samples of a histogram. -/
structure Sample where
  /-- The name of the family. -/
  name : Bytes
  /-- The label. -/
  label : Bytes
  /-- The value. -/
  value : Binary64
deriving DecidableEq, Repr

/-- **All recorded values**, in byte order of names and labels. -/
def samples (metrics : Metrics) : List Sample :=
  (metrics.counters.flatMap fun (family, series) =>
      series.map fun (label, counter) => ⟨family.name, label, counter.value⟩)
    ++ metrics.durations.map fun (label, histogram) =>
      ⟨durationFamily.name, label, Binary64.ofInt histogram.count⟩

/-- A label value with backslashes, line feeds and quotes escaped. -/
def escapeLabel (label : Bytes) : Bytes :=
  label.flatMap fun b =>
    if b = ascii '\\' then utf8 "\\\\"
    else if b = Bytes.lineFeed then utf8 "\\n"
    else if b = ascii '"' then utf8 "\\\""
    else [b]

/-- A label between braces, with further pairs after it. -/
def labels (label : Bytes) (more : Bytes) : Bytes :=
  utf8 "\x7btransform=\"" ++ escapeLabel label ++ utf8 "\"" ++ more ++ utf8 "\x7d "

/-- The two lines that introduce a family. -/
def header (family : Family) (type : String) : Bytes :=
  utf8 "# HELP " ++ family.name ++ [Bytes.space] ++ family.help ++ utf8 "\n# TYPE "
    ++ family.name ++ [Bytes.space] ++ utf8 type ++ [Bytes.lineFeed]

/-- The text of a counter family; nothing when it has no sample. -/
def counterText (family : Family) (series : Series Counter) : Bytes :=
  if series.isEmpty then []
  else header family "counter" ++ series.flatMap fun (label, counter) =>
    family.name ++ labels label [] ++ counter.value.compactText ++ [Bytes.lineFeed]

/-- One line of a bucket. -/
def bucketText (label bound : Bytes) (count : Nat) : Bytes :=
  durationFamily.name ++ utf8 "_bucket" ++ labels label (utf8 ",le=\"" ++ bound ++ utf8 "\"")
    ++ Bytes.ofNat count ++ [Bytes.lineFeed]

/-- The lines of one histogram. -/
def histogramText (label : Bytes) (histogram : Histogram) : Bytes :=
  ((bounds.zip (cumulative 0 histogram.buckets)).flatMap fun (bound, count) =>
      bucketText label bound.compactText count)
    ++ bucketText label (utf8 "+Inf") histogram.count
    ++ durationFamily.name ++ utf8 "_sum" ++ labels label [] ++ histogram.sum.compactText
    ++ [Bytes.lineFeed]
    ++ durationFamily.name ++ utf8 "_count" ++ labels label [] ++ Bytes.ofNat histogram.count
    ++ [Bytes.lineFeed]

/-- The text of the duration family; nothing when it has no sample. -/
def durationText (series : Series Histogram) : Bytes :=
  if series.isEmpty then []
  else header durationFamily "histogram" ++ series.flatMap fun (label, histogram) =>
    histogramText label histogram

/-- **The text form of everything recorded.** -/
def exposition (metrics : Metrics) : Bytes :=
  (metrics.counters.flatMap fun (family, series) => counterText family series)
    ++ durationText metrics.durations

end Metrics

end Linewise

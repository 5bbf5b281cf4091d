import Mathlib
import Linewise.Metrics
import Linewise.Proofs.Binary64

/-!
# What metrics hold

A series lists its labels in byte order, so a change at one label is found there again and
shows nowhere else. As long as no total passes `2 ^ 53`, every amount goes through double
precision unchanged and every counter is the exact sum of what was recorded at its label.

## Main definitions

* `Metrics.Series.Sorted`: the labels of a series are in byte order, each of them once
* `Metrics.Observation`: the counters and the failure of a run, as they are recorded
* `Metrics.Tally`: the five counters, with what each takes from an observation, if it moves
* `Metrics.Tally.exact`: the sum of that over the observations with a label
* `Metrics.Tally.shown`: the number a counter shows
* `Metrics.recorded`: the metrics after some observations

## Main results

* `Metrics.Series.at?_update`, `Metrics.Series.Sorted.update`: one change of a series
* `Metrics.isSome_parseKind?`, `Metrics.isSome_ioKind?`: what a failure counts as
* `Metrics.series_observe`: one observation
* `Metrics.Holds.observe`, `Metrics.holds_recorded`: the counters are exact after one more
  observation, and after all of them
-/

namespace Linewise

/-- Byte order is the order of lists of bytes. -/
theorem Bytes.le_iff {s t : Bytes} : Bytes.le s t = true ↔ s ≤ t := by
  induction s generalizing t with
  | nil => simp [Bytes.le]
  | cons b s ih =>
    cases t with
    | nil => simp [Bytes.le]
    | cons c t => simp [Bytes.le, ih, List.cons_le_cons_iff]

namespace Metrics

/-! ## Series -/

namespace Series

variable {α : Type} {series : Series α} {label label' : Bytes} {fresh : α} {change : α → α}

/-- **The labels are in byte order**, each of them once. -/
def Sorted (series : Series α) : Prop :=
  series.Pairwise fun x y => x.1 < y.1

/-- A change brings in no label but its own. -/
theorem eq_or_exists_of_mem_update {x : Bytes × α}
    (h : x ∈ Series.update label fresh change series) :
    x.1 = label ∨ ∃ y ∈ series, y.1 = x.1 := by
  fun_induction Series.update label fresh change series with
  | case1 =>
    obtain rfl := List.mem_singleton.mp h
    exact .inl rfl
  | case2 entry rest hlabel =>
    rcases List.mem_cons.mp h with rfl | hx
    · exact .inl rfl
    · exact .inr ⟨x, List.mem_cons_of_mem _ hx, rfl⟩
  | case3 entry rest hlabel hle =>
    rcases List.mem_cons.mp h with rfl | hx
    · exact .inl rfl
    · exact .inr ⟨x, hx, rfl⟩
  | case4 entry rest hlabel hle ih =>
    rcases List.mem_cons.mp h with rfl | hx
    · exact .inr ⟨x, List.mem_cons_self, rfl⟩
    · exact (ih hx).imp_right fun ⟨y, hy, heq⟩ => ⟨y, List.mem_cons_of_mem _ hy, heq⟩

/-- **A change keeps the labels in order.** -/
theorem Sorted.update (h : series.Sorted) :
    (Series.update label fresh change series).Sorted := by
  fun_induction Series.update label fresh change series with
  | case1 => exact List.pairwise_singleton _ _
  | case2 entry rest hlabel =>
    obtain ⟨hfirst, hrest⟩ := List.pairwise_cons.mp h
    exact List.pairwise_cons.mpr ⟨hlabel ▸ hfirst, hrest⟩
  | case3 entry rest hlabel hle =>
    have hlt : label < entry.1 := Std.lt_of_le_of_ne (Bytes.le_iff.mp hle) hlabel
    refine List.pairwise_cons.mpr ⟨fun x hx => ?_, h⟩
    rcases List.mem_cons.mp hx with rfl | hx
    · exact hlt
    · exact List.lt_trans hlt ((List.pairwise_cons.mp h).1 x hx)
  | case4 entry rest hlabel hle ih =>
    obtain ⟨hfirst, hrest⟩ := List.pairwise_cons.mp h
    have hlt : entry.1 < label := List.not_le.mp fun hle' => hle (Bytes.le_iff.mpr hle')
    refine List.pairwise_cons.mpr ⟨fun x hx => ?_, ih hrest⟩
    rcases eq_or_exists_of_mem_update hx with heq | ⟨y, hy, heq⟩
    · rw [heq]
      exact hlt
    · rw [← heq]
      exact hfirst y hy

theorem at?_cons_self (value : α) (rest : Series α) :
    Series.at? ((label, value) :: rest) label = some value := by
  simp [Series.at?]

theorem at?_cons_of_ne {entry : Bytes × α} (h : entry.1 ≠ label) (rest : Series α) :
    Series.at? (entry :: rest) label = rest.at? label := by
  simp [Series.at?, h]

/-- A label that comes before all others is not there. -/
theorem at?_eq_none_of_lt (h : ∀ x ∈ series, label < x.1) : series.at? label = none := by
  have hfind : series.find? (fun x => x.1 = label) = none := by
    refine List.find?_eq_none.mpr fun x hx heq => ?_
    have heq : x.1 = label := by simpa using heq
    exact List.lt_irrefl label (heq ▸ h x hx)
  rw [Series.at?, hfind]
  rfl

/-- **A change is found at its label**, and nowhere else. -/
theorem at?_update (h : series.Sorted) :
    (Series.update label fresh change series).at? label'
      = if label' = label then some (change ((series.at? label).getD fresh))
        else series.at? label' := by
  split_ifs with hl
  · subst hl
    fun_induction Series.update label' fresh change series with
    | case1 => simp [Series.at?]
    | case2 entry rest hlabel =>
      subst hlabel
      rw [at?_cons_self, at?_cons_self]
      rfl
    | case3 entry rest hlabel hle =>
      have hlt : label' < entry.1 := Std.lt_of_le_of_ne (Bytes.le_iff.mp hle) hlabel
      have hnone : Series.at? (entry :: rest) label' = none := by
        refine at?_eq_none_of_lt fun x hx => ?_
        rcases List.mem_cons.mp hx with rfl | hx
        · exact hlt
        · exact List.lt_trans hlt ((List.pairwise_cons.mp h).1 x hx)
      rw [at?_cons_self, hnone]
      rfl
    | case4 entry rest hlabel hle ih =>
      rw [at?_cons_of_ne (Ne.symm hlabel), at?_cons_of_ne (Ne.symm hlabel)]
      exact ih (List.pairwise_cons.mp h).2
  · fun_induction Series.update label fresh change series with
    | case1 => simp [Series.at?, Ne.symm hl]
    | case2 entry rest hlabel =>
      rw [at?_cons_of_ne (Ne.symm hl), at?_cons_of_ne (hlabel ▸ Ne.symm hl)]
    | case3 entry rest hlabel hle => exact at?_cons_of_ne (Ne.symm hl) _
    | case4 entry rest hlabel hle ih =>
      have ih := ih (List.pairwise_cons.mp h).2
      by_cases hentry : entry.1 = label'
      · subst hentry
        simp [Series.at?]
      · rw [at?_cons_of_ne hentry, at?_cons_of_ne hentry, ih]

/-- Every entry is found at its label: no other one has it. -/
theorem Sorted.at?_of_mem {entry : Bytes × α} (h : series.Sorted) (hmem : entry ∈ series) :
    series.at? entry.1 = some entry.2 := by
  induction series with
  | nil => cases hmem
  | cons first rest ih =>
    obtain ⟨hfirst, hrest⟩ := List.pairwise_cons.mp h
    rcases List.mem_cons.mp hmem with rfl | hmem
    · exact at?_cons_self entry.2 rest
    · have hne : first.1 ≠ entry.1 := fun heq =>
        List.lt_irrefl entry.1 (heq ▸ hfirst entry hmem)
      exact (at?_cons_of_ne hne rest).trans (ih hrest hmem)

end Series

/-! ## Counters -/

/-- The total of the counter at a label; zero where there is none. -/
def total (series : Series Counter) (label : Bytes) : Nat :=
  ((series.at? label).getD {}).total.toNat

section Counter

variable {series : Series Counter} {label : Bytes} {amount : Nat}

/-- An amount is added as it is, as long as the total stays within `2 ^ 53`. -/
theorem toNat_total_add {counter : Counter} (h : counter.total.toNat + amount ≤ 2 ^ 53) :
    (counter.add amount).total.toNat = counter.total.toNat + amount := by
  have hamount : amount ≤ 2 ^ 53 := by omega
  rw [Counter.add, Binary64.toNat_ofInt hamount, UInt64.toNat_add, UInt64.toNat_ofNat']
  omega

/-- **An addition shows at its label**, and nowhere else. -/
theorem total_addTo (hs : series.Sorted) (h : total series label + amount ≤ 2 ^ 53)
    (label' : Bytes) :
    total (addTo label amount series) label'
      = total series label' + if label' = label then amount else 0 := by
  rw [total, addTo, Series.at?_update hs]
  split_ifs with hl
  · subst hl
    exact toNat_total_add h
  · rfl

end Counter

/-! ## Observations -/

/-- **What is recorded of a run.** -/
structure Observation where
  /-- The counters of the run. -/
  stats : Stats
  /-- The failure that ended it, if one did. -/
  failure : Option Fault
deriving DecidableEq, Repr

/-- **An observation that can be recorded**: its label is valid UTF-8 and no count is negative. -/
structure Observation.Valid (observation : Observation) : Prop where
  /-- The label is valid UTF-8. -/
  label : isValidUtf8 observation.stats.transform = true
  /-- The count of lines read is not negative. -/
  linesRead : 0 ≤ observation.stats.linesRead
  /-- The count of lines written is not negative. -/
  linesWritten : 0 ≤ observation.stats.linesWritten
  /-- The count of lines left out is not negative. -/
  linesSkipped : 0 ≤ observation.stats.linesSkipped

/-- **A line ended the run**: the failure or one of its causes is that of a line. -/
def Observation.endedByLine (observation : Observation) : Bool :=
  observation.failure.any fun fault => fault.chain.any Fault.isParse

/-- **A stream ended the run**: the failure or one of its causes is that of a stream, and none is
that of a line. -/
def Observation.endedByStream (observation : Observation) : Bool :=
  !observation.endedByLine && observation.failure.any fun fault => fault.chain.any Fault.isIo

/-- **The counters of the metrics.** -/
inductive Tally where
  /-- Lines read. -/
  | read
  /-- Lines written. -/
  | written
  /-- Lines left out. -/
  | skipped
  /-- Runs that a line ended. -/
  | parseErrors
  /-- Runs that a stream failure ended. -/
  | ioErrors

namespace Tally

/-- The series of a counter. -/
def series (metrics : Metrics) : Tally → Series Counter
  | read => metrics.linesRead
  | written => metrics.linesWritten
  | skipped => metrics.linesSkipped
  | parseErrors => metrics.parseErrors
  | ioErrors => metrics.ioErrors

/-- **What a counter takes from an observation.** A line failure anywhere in the chain counts as
such, and a stream failure only without one. -/
def amount (observation : Observation) : Tally → Nat
  | read => observation.stats.linesRead.toNat
  | written => observation.stats.linesWritten.toNat
  | skipped => observation.stats.linesSkipped.toNat
  | parseErrors => if (observation.failure.bind Fault.parseKind?).isSome then 1 else 0
  | ioErrors =>
    if (observation.failure.bind Fault.parseKind?).isSome then 0
    else if (observation.failure.bind Fault.ioKind?).isSome then 1
    else 0

/-- **Does a counter move?** Lines are counted for every run, be there none of them. -/
def takes (observation : Observation) : Tally → Bool
  | read | written | skipped => true
  | parseErrors => observation.endedByLine
  | ioErrors => observation.endedByStream

/-- **The exact total at a label**: the sum over the observations with this label. -/
def exact (tally : Tally) (label : Bytes) (observations : List Observation) : Nat :=
  ((observations.filter (·.stats.transform = label)).map (tally.amount ·)).sum

/-- **The number a counter shows** at a label. -/
def shown (tally : Tally) (label : Bytes) (metrics : Metrics) : Nat :=
  (((tally.series metrics).at? label).getD {}).value.toNat

theorem exact_append (tally : Tally) (label : Bytes) (before after : List Observation) :
    tally.exact label (before ++ after)
      = tally.exact label before + tally.exact label after := by
  simp only [exact, List.filter_append, List.map_append, List.sum_append]

theorem exact_le_of_prefix (tally : Tally) (label : Bytes) {before all : List Observation}
    (h : before <+: all) : tally.exact label before ≤ tally.exact label all := by
  obtain ⟨after, rfl⟩ := h
  rw [exact_append]
  exact Nat.le_add_right _ _

theorem exact_singleton (tally : Tally) (label : Bytes) (observation : Observation) :
    tally.exact label [observation]
      = if label = observation.stats.transform then tally.amount observation else 0 := by
  by_cases h : observation.stats.transform = label
  · simp [exact, h]
  · simp [exact, h, Ne.symm h]

end Tally

/-- A line failure is found just if the chain has one. -/
theorem isSome_parseKind? (fault : Fault) :
    fault.parseKind?.isSome = fault.chain.any Fault.isParse := by
  rw [Fault.parseKind?, List.isSome_findSome?]
  congr 1
  funext part
  cases part <;> rfl

/-- A stream failure is found just if the chain has one. -/
theorem isSome_ioKind? (fault : Fault) : fault.ioKind?.isSome = fault.chain.any Fault.isIo := by
  rw [Fault.ioKind?, List.isSome_findSome?]
  congr 1
  funext part
  cases part <;> rfl

namespace Tally

variable {tally : Tally} {observation : Observation}

theorem amount_parseErrors :
    parseErrors.amount observation = if observation.endedByLine then 1 else 0 := by
  obtain ⟨stats, failure⟩ := observation
  cases failure with
  | none => rfl
  | some fault => simp [amount, Observation.endedByLine, isSome_parseKind?]

theorem amount_ioErrors :
    ioErrors.amount observation = if observation.endedByStream then 1 else 0 := by
  obtain ⟨stats, failure⟩ := observation
  cases failure with
  | none => rfl
  | some fault =>
    cases hline : fault.chain.any Fault.isParse <;>
      simp [amount, Observation.endedByStream, Observation.endedByLine, isSome_parseKind?,
        isSome_ioKind?, hline]

/-- A counter that does not move has nothing to take. -/
theorem amount_of_not_takes (h : ¬ tally.takes observation = true) :
    tally.amount observation = 0 := by
  cases tally with
  | read | written | skipped => exact absurd rfl h
  | parseErrors => exact amount_parseErrors.trans (if_neg h)
  | ioErrors => exact amount_ioErrors.trans (if_neg h)

end Tally

/-- **The failure of a run counts once**, as that of a line or of a stream, or not at all; the
lines of the run are not touched when it is recorded. -/
theorem series_observeFailure (metrics : Metrics) (label : Bytes) (observation : Observation)
    (tally : Tally) :
    tally.series (metrics.observeFailure label observation.failure)
      = match tally with
        | .read | .written | .skipped => tally.series metrics
        | .parseErrors | .ioErrors =>
          if tally.takes observation then
            addTo label (tally.amount observation) (tally.series metrics)
          else tally.series metrics := by
  obtain ⟨stats, failure⟩ := observation
  cases failure with
  | none => cases tally <;> rfl
  | some fault =>
    have hline : Observation.endedByLine ⟨stats, some fault⟩ = fault.parseKind?.isSome :=
      (isSome_parseKind? fault).symm
    have hstream : Observation.endedByStream ⟨stats, some fault⟩
        = (!fault.parseKind?.isSome && fault.ioKind?.isSome) := by
      rw [Observation.endedByStream, hline, isSome_ioKind?]
      rfl
    by_cases hparse : fault.parseKind?.isSome = true
    · -- a line failure: the first of the two counters moves
      cases tally <;>
        simp [observeFailure, Tally.series, Tally.takes, Tally.amount, hline, hstream, hparse]
    · by_cases hio : fault.ioKind?.isSome = true
      · -- a stream failure: the second one does
        cases tally <;>
          simp [observeFailure, Tally.series, Tally.takes, Tally.amount, hline, hstream, hparse,
            hio]
      · cases tally <;>
          simp [observeFailure, Tally.series, Tally.takes, hline, hstream, hparse, hio]

theorem durations_observeFailure (metrics : Metrics) (label : Bytes) (failure : Option Fault) :
    (metrics.observeFailure label failure).durations = metrics.durations := by
  cases failure with
  | none => rfl
  | some fault =>
    simp only [observeFailure]
    split_ifs <;> rfl

/-- **One observation** that can be recorded is recorded: each counter takes its amount, or does
not move, and the duration of the run is added. -/
theorem series_observe (metrics : Metrics) {observation : Observation} (h : observation.Valid) :
    (metrics.observe observation.stats observation.failure).2 = none ∧
      (∀ tally : Tally,
        tally.series (metrics.observe observation.stats observation.failure).1
          = if tally.takes observation then
              addTo observation.stats.transform (tally.amount observation) (tally.series metrics)
            else tally.series metrics) ∧
      (metrics.observe observation.stats observation.failure).1.durations
        = Series.update observation.stats.transform {}
            (·.add (Duration.seconds observation.stats.duration)) metrics.durations := by
  have hread : ((observation.stats.linesRead.toNat : Nat) : Int) = observation.stats.linesRead :=
    Int.toNat_of_nonneg h.linesRead
  have hwritten : ((observation.stats.linesWritten.toNat : Nat) : Int)
      = observation.stats.linesWritten := Int.toNat_of_nonneg h.linesWritten
  have hskipped : ((observation.stats.linesSkipped.toNat : Nat) : Int)
      = observation.stats.linesSkipped := Int.toNat_of_nonneg h.linesSkipped
  have hlabel : ¬ (!isValidUtf8 observation.stats.transform) = true := by simpa using h.label
  simp only [observe, if_neg hlabel, if_neg (Int.not_lt.mpr h.linesRead),
    if_neg (Int.not_lt.mpr h.linesWritten), if_neg (Int.not_lt.mpr h.linesSkipped)]
  refine ⟨trivial, fun tally => ?_, durations_observeFailure _ _ _⟩
  rw [series_observeFailure]
  cases tally with
  | read => exact congrArg (addTo _ · _) hread.symm
  | written => exact congrArg (addTo _ · _) hwritten.symm
  | skipped => exact congrArg (addTo _ · _) hskipped.symm
  | parseErrors => rfl
  | ioErrors => rfl

/-! ## Histories -/

/-- **The metrics after some observations**, the first one first. -/
def recorded (observations : List Observation) : Metrics :=
  observations.foldl (fun metrics observation =>
    (metrics.observe observation.stats observation.failure).1) {}

theorem recorded_snoc (observations : List Observation) (observation : Observation) :
    recorded (observations ++ [observation])
      = ((recorded observations).observe observation.stats observation.failure).1 := by
  simp only [recorded, List.foldl_append, List.foldl_cons, List.foldl_nil]

/-- **The metrics hold exactly some observations.** -/
structure Holds (observations : List Observation) (metrics : Metrics) : Prop where
  /-- Every series is in order. -/
  sorted : ∀ tally : Tally, (tally.series metrics).Sorted
  /-- Every total is the exact one. -/
  total : ∀ (tally : Tally) (label : Bytes),
    total (tally.series metrics) label = tally.exact label observations

/-- **One more observation**, as long as no total passes `2 ^ 53`. -/
theorem Holds.observe {observations : List Observation} {metrics : Metrics}
    (h : Holds observations metrics) {observation : Observation} (hv : observation.Valid)
    (hb : ∀ (tally : Tally) (label : Bytes),
      tally.exact label (observations ++ [observation]) ≤ 2 ^ 53) :
    Holds (observations ++ [observation])
      (metrics.observe observation.stats observation.failure).1 := by
  obtain ⟨-, hseries, -⟩ := series_observe metrics hv
  refine ⟨fun tally => ?_, fun tally label => ?_⟩
  · rw [hseries tally]
    split_ifs
    · exact (h.sorted tally).update
    · exact h.sorted tally
  · rw [hseries tally, Tally.exact_append, Tally.exact_singleton, ← h.total tally label]
    by_cases htakes : tally.takes observation = true
    · have hbound : Metrics.total (tally.series metrics) observation.stats.transform
          + tally.amount observation ≤ 2 ^ 53 := by
        have hsum := hb tally observation.stats.transform
        rw [Tally.exact_append, Tally.exact_singleton, if_pos rfl] at hsum
        rw [h.total]
        exact hsum
      rw [if_pos htakes]
      exact total_addTo (h.sorted tally) hbound label
    · rw [if_neg htakes, Tally.amount_of_not_takes htakes, ite_self, Nat.add_zero]

/-- **All observations**: the counters are the exact totals. -/
theorem holds_recorded {observations : List Observation}
    (hv : ∀ observation ∈ observations, observation.Valid)
    (hb : ∀ (tally : Tally) (label : Bytes), tally.exact label observations ≤ 2 ^ 53) :
    Holds observations (recorded observations) := by
  induction observations using List.reverseRecOn with
  | nil =>
    refine ⟨fun tally => ?_, fun tally label => ?_⟩
    · cases tally <;> exact List.Pairwise.nil
    · cases tally <;> rfl
  | append_singleton observations observation ih =>
    have hbefore : ∀ (tally : Tally) (label : Bytes),
        tally.exact label observations ≤ 2 ^ 53 := by
      intro tally label
      have hsum := hb tally label
      rw [Tally.exact_append] at hsum
      omega
    have hholds := ih (fun o ho => hv o (List.mem_append_left _ ho)) hbefore
    rw [recorded_snoc]
    exact hholds.observe (hv observation (by simp)) hb

/-- **A counter shows the exact total.** -/
theorem Holds.shown {observations : List Observation} {metrics : Metrics}
    (h : Holds observations metrics) {tally : Tally} {label : Bytes}
    (hb : tally.exact label observations ≤ 2 ^ 53) :
    tally.shown label metrics = tally.exact label observations := by
  have htotal := h.total tally label
  rw [← htotal] at hb ⊢
  exact Binary64.toNat_ofInt hb

end Metrics

end Linewise

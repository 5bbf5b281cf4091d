import Linewise.Proofs.Metrics

/-!
# Counters are sums

A recorder that is given one run after the other keeps, for each label, the sums over the runs
with that label. What one observation changes can be read off it: it moves the counters of lines
at its own label, and at most one counter of failures. So the value at a label is made up of the
runs with that label alone, and their order does not show, neither in the values nor in which of
them there are. Two series that are in byte order and hold the same at each label are the same
list, which carries this over to everything that is listed.

## Main definitions

* `Metrics.runs`: how many durations are recorded at a label

## Main results

* `Metrics.Series.Sorted.ext`: a series is given by what it holds at each label
* `Metrics.at?_observe`, `Metrics.failures_observe`: one observation
* `Metrics.isSome_at?_recorded`, `Metrics.runs_recorded`: which counters there are, and how many
  durations
* `Metrics.series_recorded_perm`, `Metrics.samples_recorded_perm`: the order of runs does not show
* `Metrics.recorded_exact`: the values after any history
-/

namespace Linewise

namespace Metrics

/-! ## Series -/

namespace Series

variable {α β : Type} {series series' : Series α} {label : Bytes}

/-- What a label holds is listed there. -/
theorem mem_of_at? {value : α} (h : series.at? label = some value) : (label, value) ∈ series := by
  obtain ⟨entry, hfind, rfl⟩ := Option.map_eq_some_iff.mp h
  have hlabel : entry.1 = label := by simpa using List.find?_some hfind
  rw [← hlabel]
  exact List.mem_of_find?_eq_some hfind

/-- **A series in byte order is given by what it holds at each label.** -/
theorem Sorted.ext (h : series.Sorted) (h' : series'.Sorted)
    (hat : ∀ label, series.at? label = series'.at? label) : series = series' := by
  have : Std.Irrefl fun x y : Bytes × α => x.1 < y.1 := ⟨fun x => List.lt_irrefl x.1⟩
  have : Std.Antisymm fun x y : Bytes × α => x.1 < y.1 :=
    ⟨fun x y hxy hyx => absurd (List.lt_trans hxy hyx) (List.lt_irrefl x.1)⟩
  refine List.Pairwise.eq_of_mem_iff h h' fun entry => ⟨fun hmem => ?_, fun hmem => ?_⟩
  · exact mem_of_at? ((hat entry.1).symm.trans (h.at?_of_mem hmem))
  · exact mem_of_at? ((hat entry.1).trans (h'.at?_of_mem hmem))

theorem at?_map (f : α → β) (series : Series α) (label : Bytes) :
    Series.at? (series.map fun entry => (entry.1, f entry.2)) label
      = (series.at? label).map f := by
  simp only [Series.at?, List.find?_map, Option.map_map]
  rfl

theorem Sorted.map (f : α → β) (h : series.Sorted) :
    Series.Sorted (series.map fun entry => (entry.1, f entry.2)) :=
  List.pairwise_map.mpr h

end Series

/-! ## One observation -/

section Observe

variable {metrics : Metrics} {observation : Observation} {tally : Tally} {label : Bytes}

/-- **A counter moves at the label of an observation**, if it moves. -/
theorem at?_observe (hs : (tally.series metrics).Sorted) (hv : observation.Valid) :
    (tally.series (metrics.observe observation.stats observation.failure).1).at? label
      = if label = observation.stats.transform ∧ tally.takes observation = true then
          some ((((tally.series metrics).at? observation.stats.transform).getD {}).add
            (tally.amount observation))
        else (tally.series metrics).at? label := by
  rw [(series_observe metrics hv).2.1 tally]
  by_cases htakes : tally.takes observation = true
  · rw [if_pos htakes, addTo, Series.at?_update hs]
    simp only [htakes, and_true]
  · rw [if_neg htakes, if_neg fun h => htakes h.2]

/-- **The duration of a run is added at its label.** -/
theorem at?_durations_observe (hs : metrics.durations.Sorted) (hv : observation.Valid) :
    (metrics.observe observation.stats observation.failure).1.durations.at? label
      = if label = observation.stats.transform then
          some (((metrics.durations.at? observation.stats.transform).getD {}).add
            (Duration.seconds observation.stats.duration))
        else metrics.durations.at? label := by
  rw [(series_observe metrics hv).2.2]
  exact Series.at?_update hs

/-- How many durations are recorded at a label. -/
def runs (metrics : Metrics) (label : Bytes) : Nat :=
  ((metrics.durations.at? label).getD {}).count

theorem runs_observe (hs : metrics.durations.Sorted) (hv : observation.Valid) :
    (metrics.observe observation.stats observation.failure).1.runs label
      = metrics.runs label + if label = observation.stats.transform then 1 else 0 := by
  rw [runs, at?_durations_observe hs hv]
  split_ifs with hlabel
  · rw [hlabel]
    rfl
  · rfl

/-- **At most one counter of failures moves**, and none if the chain of the failure has neither a
line failure nor a stream failure. -/
theorem failures_observe (metrics : Metrics) (hv : observation.Valid) :
    let after := (metrics.observe observation.stats observation.failure).1
    (after.parseErrors = metrics.parseErrors ∨ after.ioErrors = metrics.ioErrors) ∧
      ((∀ fault, observation.failure = some fault →
          ∀ part ∈ fault.chain, part.isParse = false ∧ part.isIo = false) →
        after.parseErrors = metrics.parseErrors ∧ after.ioErrors = metrics.ioErrors) := by
  intro after
  have hparse : after.parseErrors = _ := (series_observe metrics hv).2.1 .parseErrors
  have hio : after.ioErrors = _ := (series_observe metrics hv).2.1 .ioErrors
  simp only [Tally.takes, Tally.series] at hparse hio
  rw [hparse, hio]
  constructor
  · by_cases hline : observation.endedByLine = true
    · exact .inr (if_neg (by simp [Observation.endedByStream, hline]))
    · exact .inl (if_neg hline)
  · intro hother
    have hline : observation.endedByLine = false := by
      cases hfailure : observation.failure with
      | none => simp [Observation.endedByLine, hfailure]
      | some fault => simpa [Observation.endedByLine, hfailure] using
          fun part hpart => (hother fault hfailure part hpart).1
    have hstream : observation.endedByStream = false := by
      cases hfailure : observation.failure with
      | none => simp [Observation.endedByStream, hfailure]
      | some fault => simpa [Observation.endedByStream, hline, hfailure] using
          fun part hpart => (hother fault hfailure part hpart).2
    simp [hline, hstream]

end Observe

/-! ## Histories -/

section Recorded

variable {observations observations' : List Observation}

/-- Every series of a recorder is in order. -/
theorem sorted_recorded (hv : ∀ observation ∈ observations, observation.Valid) :
    (∀ tally : Tally, (tally.series (recorded observations)).Sorted) ∧
      (recorded observations).durations.Sorted := by
  induction observations using List.reverseRecOn with
  | nil =>
    refine ⟨fun tally => ?_, List.Pairwise.nil⟩
    cases tally <;> exact List.Pairwise.nil
  | append_singleton observations observation ih =>
    obtain ⟨hseries, hdurations⟩ := ih fun o ho => hv o (List.mem_append_left _ ho)
    obtain ⟨-, hobserve, hduration⟩ :=
      series_observe (recorded observations) (hv observation (by simp))
    rw [recorded_snoc]
    refine ⟨fun tally => ?_, ?_⟩
    · rw [hobserve tally]
      split_ifs
      · exact (hseries tally).update
      · exact hseries tally
    · rw [hduration]
      exact hdurations.update

/-- **A counter is there just if a run has moved it.** -/
theorem isSome_at?_recorded (hv : ∀ observation ∈ observations, observation.Valid)
    (tally : Tally) (label : Bytes) :
    ((tally.series (recorded observations)).at? label).isSome
      = observations.any fun observation =>
          label = observation.stats.transform && tally.takes observation := by
  induction observations using List.reverseRecOn with
  | nil => cases tally <;> rfl
  | append_singleton observations observation ih =>
    have hbefore := fun o ho => hv o (List.mem_append_left _ ho)
    rw [recorded_snoc, at?_observe ((sorted_recorded hbefore).1 tally) (hv observation (by simp)),
      List.any_append, ← ih hbefore]
    by_cases h : label = observation.stats.transform ∧ tally.takes observation = true
    · simp [h.1, h.2]
    · have hlast : (decide (label = observation.stats.transform) && tally.takes observation)
          = false := by simpa using h
      simp [if_neg h, hlast]

/-- **As many durations are recorded as there were runs.** -/
theorem runs_recorded (hv : ∀ observation ∈ observations, observation.Valid) (label : Bytes) :
    (recorded observations).runs label
      = (observations.filter (·.stats.transform = label)).length := by
  induction observations using List.reverseRecOn with
  | nil => rfl
  | append_singleton observations observation ih =>
    have hbefore := fun o ho => hv o (List.mem_append_left _ ho)
    rw [recorded_snoc, runs_observe (sorted_recorded hbefore).2 (hv observation (by simp)),
      ih hbefore, List.filter_append, List.length_append]
    by_cases hlabel : observation.stats.transform = label
    · simp [hlabel]
    · simp [hlabel, Ne.symm hlabel]

/-- A label has durations just if it has runs. -/
theorem isSome_durations_recorded (hv : ∀ observation ∈ observations, observation.Valid)
    (label : Bytes) :
    ((recorded observations).durations.at? label).isSome
      = observations.any fun observation => label = observation.stats.transform := by
  induction observations using List.reverseRecOn with
  | nil => rfl
  | append_singleton observations observation ih =>
    have hbefore := fun o ho => hv o (List.mem_append_left _ ho)
    rw [recorded_snoc,
      at?_durations_observe (sorted_recorded hbefore).2 (hv observation (by simp)),
      List.any_append, ← ih hbefore]
    by_cases h : label = observation.stats.transform
    · simp [h]
    · simp [h]

/-! ## The order of runs -/

theorem Tally.exact_perm (h : observations.Perm observations') (tally : Tally) (label : Bytes) :
    tally.exact label observations = tally.exact label observations' :=
  ((h.filter _).map _).sum_eq

/-- Optional values agree in what they show if both are there or not and if they show the same
with a default. -/
theorem map_eq_map_of_getD {α β : Type} (f : α → β) (fresh : α) {x y : Option α}
    (hsome : x.isSome = y.isSome) (hvalue : f (x.getD fresh) = f (y.getD fresh)) :
    x.map f = y.map f := by
  cases x <;> cases y <;> simp_all

/-- **The order of runs does not show in the counters.** -/
theorem series_recorded_perm (h : observations.Perm observations')
    (hv : ∀ observation ∈ observations, observation.Valid)
    (hb : ∀ (tally : Tally) (label : Bytes), tally.exact label observations ≤ 2 ^ 53)
    (tally : Tally) :
    tally.series (recorded observations) = tally.series (recorded observations') := by
  have hv' : ∀ observation ∈ observations', observation.Valid :=
    fun observation ho => hv observation (h.mem_iff.mpr ho)
  have hb' : ∀ (tally : Tally) (label : Bytes), tally.exact label observations' ≤ 2 ^ 53 :=
    fun tally label => Tally.exact_perm h tally label ▸ hb tally label
  refine Series.Sorted.ext ((sorted_recorded hv).1 tally) ((sorted_recorded hv').1 tally) ?_
  intro label
  have hinjective : Function.Injective fun counter : Counter => counter.total.toNat := by
    rintro ⟨total⟩ ⟨total'⟩ heq
    exact congrArg Counter.mk (UInt64.toNat_inj.mp heq)
  refine Option.map_injective hinjective (map_eq_map_of_getD _ {} ?_ ?_)
  · rw [isSome_at?_recorded hv, isSome_at?_recorded hv', h.any_eq]
  · calc total (tally.series (recorded observations)) label
        = tally.exact label observations := (holds_recorded hv hb).total tally label
      _ = tally.exact label observations' := Tally.exact_perm h tally label
      _ = total (tally.series (recorded observations')) label :=
        ((holds_recorded hv' hb').total tally label).symm

/-- Nor does it show in the number of durations at each label. -/
theorem counts_recorded_perm (h : observations.Perm observations')
    (hv : ∀ observation ∈ observations, observation.Valid) :
    (recorded observations).durations.map (fun entry => (entry.1, entry.2.count))
      = (recorded observations').durations.map (fun entry => (entry.1, entry.2.count)) := by
  have hv' : ∀ observation ∈ observations', observation.Valid :=
    fun observation ho => hv observation (h.mem_iff.mpr ho)
  refine Series.Sorted.ext ((sorted_recorded hv).2.map _) ((sorted_recorded hv').2.map _) ?_
  intro label
  rw [Series.at?_map, Series.at?_map]
  refine map_eq_map_of_getD _ {} ?_ ?_
  · rw [isSome_durations_recorded hv, isSome_durations_recorded hv', h.any_eq]
  · calc (recorded observations).runs label
        = (observations.filter (·.stats.transform = label)).length := runs_recorded hv label
      _ = (observations'.filter (·.stats.transform = label)).length := (h.filter _).length_eq
      _ = (recorded observations').runs label := (runs_recorded hv' label).symm

/-- **All recorded values are the same in any order of the runs.** -/
theorem samples_recorded_perm (h : observations.Perm observations')
    (hv : ∀ observation ∈ observations, observation.Valid)
    (hb : ∀ (tally : Tally) (label : Bytes), tally.exact label observations ≤ 2 ^ 53) :
    (recorded observations).samples = (recorded observations').samples := by
  have hseries : ∀ tally : Tally,
      tally.series (recorded observations) = tally.series (recorded observations') :=
    series_recorded_perm h hv hb
  have hcounters : (recorded observations).counters = (recorded observations').counters := by
    have hio : (recorded observations).ioErrors = _ := hseries .ioErrors
    have hread : (recorded observations).linesRead = _ := hseries .read
    have hskipped : (recorded observations).linesSkipped = _ := hseries .skipped
    have hwritten : (recorded observations).linesWritten = _ := hseries .written
    have hparse : (recorded observations).parseErrors = _ := hseries .parseErrors
    rw [counters, hio, hread, hskipped, hwritten, hparse]
    rfl
  have hcounts := congrArg (List.map fun entry : Bytes × Nat =>
    (⟨durationFamily.name, entry.1, Binary64.ofInt entry.2⟩ : Sample)) (counts_recorded_perm h hv)
  rw [List.map_map, List.map_map] at hcounts
  rw [samples, samples, hcounters]
  exact congrArg (_ ++ ·) hcounts

end Recorded

/-! ## All values -/

section Sums

variable {observations : List Observation}

/-- Counts that are not negative add up as integers. -/
theorem cast_sum_toNat (count : Observation → Int)
    (h : ∀ observation ∈ observations, 0 ≤ count observation) :
    (((observations.map fun observation => (count observation).toNat).sum : Nat) : Int)
      = (observations.map count).sum := by
  rw [Nat.cast_list_sum, List.map_map]
  congr 1
  exact List.map_congr_left fun observation ho => Int.toNat_of_nonneg (h observation ho)

/-- One for each run of a kind adds up to the number of them. -/
theorem sum_ite_eq_countP (p : Observation → Bool) (observations : List Observation) :
    (observations.map fun observation => if p observation then 1 else 0).sum
      = observations.countP p := by
  induction observations with
  | nil => rfl
  | cons observation rest ih =>
    rw [List.map_cons, List.sum_cons, List.countP_cons, ih, Nat.add_comm]

end Sums

/-- **Counters are exact sums, label by label.** The observations are any that can be recorded,
with totals of at most `2 ^ 53`. Each of them is recorded; it moves nothing at another label and
at most one counter of failures, and neither of them if its chain holds no failure of a line or
of a stream. After each of them, the counters at a label show the sums over the runs with that
label: of the lines read, written and left out, of the runs that a line ended, be it anywhere in
the chain, and of those that a stream ended and no line did; and as many durations are recorded
there as there were such runs. All of this is the same in any order of the observations. -/
theorem recorded_exact (observations : List Observation)
    (hvalid : ∀ observation ∈ observations, observation.Valid)
    (htotal : ∀ (tally : Tally) (label : Bytes), tally.exact label observations ≤ 2 ^ 53) :
    (∀ (past : List Observation) (observation : Observation),
      past ++ [observation] <+: observations →
      let before := recorded past
      let after := (before.observe observation.stats observation.failure).1
      (before.observe observation.stats observation.failure).2 = none ∧
      (∀ label, label ≠ observation.stats.transform →
        (∀ tally : Tally, (tally.series after).at? label = (tally.series before).at? label) ∧
          after.durations.at? label = before.durations.at? label) ∧
      (after.parseErrors = before.parseErrors ∨ after.ioErrors = before.ioErrors) ∧
      ((∀ fault, observation.failure = some fault →
          ∀ part ∈ fault.chain, part.isParse = false ∧ part.isIo = false) →
        after.parseErrors = before.parseErrors ∧ after.ioErrors = before.ioErrors)) ∧
    (∀ past : List Observation, past <+: observations → ∀ label : Bytes,
      let calls := past.filter (·.stats.transform = label)
      let shown := fun tally : Tally => tally.shown label (recorded past)
      (shown .read : Int) = (calls.map (·.stats.linesRead)).sum ∧
      (shown .written : Int) = (calls.map (·.stats.linesWritten)).sum ∧
      (shown .skipped : Int) = (calls.map (·.stats.linesSkipped)).sum ∧
      shown .parseErrors = calls.countP Observation.endedByLine ∧
      shown .ioErrors = calls.countP Observation.endedByStream ∧
      (recorded past).runs label = calls.length) ∧
    ∀ shuffled : List Observation, observations.Perm shuffled →
      (recorded observations).samples = (recorded shuffled).samples := by
  refine ⟨?_, ?_, fun shuffled h => samples_recorded_perm h hvalid htotal⟩
  · intro past observation hpast before after
    have hv : observation.Valid := hvalid observation (hpast.subset (by simp))
    obtain ⟨hseries, hdurations⟩ := sorted_recorded fun o ho =>
      hvalid o (hpast.subset (List.mem_append_left _ ho))
    obtain ⟨hone, hnone⟩ := failures_observe before hv
    refine ⟨(series_observe before hv).1, fun label hlabel => ⟨fun tally => ?_, ?_⟩, hone, hnone⟩
    · rw [at?_observe (hseries tally) hv]
      exact if_neg fun h => hlabel h.1
    · rw [at?_durations_observe hdurations hv]
      exact if_neg hlabel
  · intro past hpast label calls shown
    have hv : ∀ observation ∈ past, observation.Valid := fun o ho => hvalid o (hpast.subset ho)
    have hb : ∀ (tally : Tally) (label : Bytes), tally.exact label past ≤ 2 ^ 53 :=
      fun tally label => (tally.exact_le_of_prefix label hpast).trans (htotal tally label)
    have hshown : ∀ tally, shown tally = tally.exact label past :=
      fun tally => (holds_recorded hv hb).shown (hb tally label)
    have hcalls : ∀ observation ∈ calls, observation.Valid :=
      fun observation ho => hv observation (List.mem_of_mem_filter ho)
    refine ⟨?_, ?_, ?_, ?_, ?_, runs_recorded hv label⟩
    · rw [hshown]
      exact cast_sum_toNat _ fun o ho => (hcalls o ho).linesRead
    · rw [hshown]
      exact cast_sum_toNat _ fun o ho => (hcalls o ho).linesWritten
    · rw [hshown]
      exact cast_sum_toNat _ fun o ho => (hcalls o ho).linesSkipped
    · rw [hshown]
      simp only [Tally.exact, Tally.amount_parseErrors]
      exact sum_ite_eq_countP _ calls
    · rw [hshown]
      simp only [Tally.exact, Tally.amount_ioErrors]
      exact sum_ite_eq_countP _ calls

/-- A line failure below a stream failure, a stream failure with a note, and a cancellation. -/
theorem recorded_exact_nested :
    let observations : List Observation :=
      [⟨{ transform := utf8 "binary", linesRead := 3, linesWritten := 1, linesSkipped := 1 },
          some (.io Fault.writing (utf8 "out")
            (.parse (utf8 "binary") 3 (utf8 "none") .emptyNumeral))⟩,
        ⟨{ transform := utf8 "squeeze", linesRead := 2, linesWritten := 2 },
          some (.noted (utf8 "run") (.io Fault.reading [] (.other (utf8 "boom"))))⟩,
        ⟨{ transform := utf8 "binary", linesRead := 1, linesWritten := 1 }, some .canceled⟩]
    let metrics := recorded observations
    (∀ observation ∈ observations, observation.Valid) ∧
      (∀ (tally : Tally) (label : Bytes), tally.exact label observations ≤ 2 ^ 53) ∧
      (Tally.read.shown (utf8 "binary") metrics : Int) = 4 ∧
      Tally.parseErrors.shown (utf8 "binary") metrics = 1 ∧
      Tally.ioErrors.shown (utf8 "binary") metrics = 0 ∧
      Tally.ioErrors.shown (utf8 "squeeze") metrics = 1 ∧
      metrics.runs (utf8 "binary") = 2 ∧
      metrics.samples = (recorded observations.reverse).samples := by
  intro observations metrics
  have hvalid : ∀ observation ∈ observations, observation.Valid := by
    intro observation hobservation
    simp only [observations, List.mem_cons, List.not_mem_nil, or_false] at hobservation
    rcases hobservation with rfl | rfl | rfl <;>
      exact ⟨by decide, by decide, by decide, by decide⟩
  have htotal : ∀ (tally : Tally) (label : Bytes), tally.exact label observations ≤ 2 ^ 53 := by
    intro tally label
    simp only [observations, Tally.exact, List.filter_cons, List.filter_nil]
    split_ifs <;> cases tally <;> decide
  obtain ⟨-, hsums, hshuffled⟩ := recorded_exact observations hvalid htotal
  obtain ⟨hread, -, -, hparse, hio, hruns⟩ :=
    hsums observations (List.prefix_refl _) (utf8 "binary")
  obtain ⟨-, -, -, -, hstream, -⟩ := hsums observations (List.prefix_refl _) (utf8 "squeeze")
  exact ⟨hvalid, htotal, hread.trans (by decide), hparse.trans (by decide), hio.trans (by decide),
    hstream.trans (by decide), hruns.trans (by decide),
    hshuffled _ observations.reverse_perm.symm⟩

end Metrics

end Linewise

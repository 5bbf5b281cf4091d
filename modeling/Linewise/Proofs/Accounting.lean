import Linewise.Proofs.Balance
import Linewise.Proofs.Metrics
import Linewise.Proofs.Reference

/-!
# The metrics of a history add up

Runs are observed one after the other. What each of them leaves open is at most the line it
could not write, and such a run counts as a stream failure; a line it could not transform
counts as a line failure. So the lines read that the other counters do not explain are
never more than the stream failures, whatever runs come in which order. This takes runs that end
with failures of their own: a reader that hands on the line failure of another run is counted as
a line that ended this one, though no line of it is missing.

## Main definitions

* `Run.Request`: a run over a stream or over files, with everything it is given
* `Run.Request.observation`: what is recorded of it
* `Metrics.unexplained`: the lines read that the other line counters do not explain
* `Metrics.Explained`: they are at most as many as there are stream failures

## Main results

* `Metrics.explained_amount`, `Metrics.explained_exact`: one observation, and the exact totals of
  many
* `history_balances`: the counters after every step of a history of runs
-/

namespace Linewise

namespace Metrics

/-! ## Explained lines -/

/-- The run failed while it wrote. -/
def Observation.FailedWriting (observation : Observation) : Prop :=
  ∃ path, observation.failure.map Fault.kind = some (.io Fault.writing path)

/-- **The lines read that the other line counters do not explain**, given the value of each
counter. -/
def unexplained (value : Tally → Nat) : Int :=
  value .read - value .written - value .skipped - value .parseErrors

/-- **The lines are explained up to the stream failures**, and fully where nothing failed while
writing. -/
structure Explained (clean : Prop) (value : Tally → Nat) : Prop where
  /-- No line is explained twice. -/
  nonneg : 0 ≤ unexplained value
  /-- A stream failure leaves at most one line open. -/
  le : unexplained value ≤ value .ioErrors
  /-- Only a failure to write leaves a line open. -/
  eq_zero : clean → unexplained value = 0

theorem explained_of_eq_zero {clean : Prop} {value : Tally → Nat} (h : unexplained value = 0) :
    Explained clean value := by
  refine ⟨Int.le_of_eq h.symm, ?_, fun _ => h⟩
  rw [h]
  exact Int.natCast_nonneg _

theorem Explained.mono {clean clean' : Prop} {value : Tally → Nat} (h : Explained clean value)
    (himp : clean' → clean) : Explained clean' value :=
  ⟨h.nonneg, h.le, fun hclean => h.eq_zero (himp hclean)⟩

/-- Explained lines add up. -/
theorem Explained.add {clean clean' : Prop} {value value' : Tally → Nat}
    (h : Explained clean value) (h' : Explained clean' value') :
    Explained (clean ∧ clean') (fun tally => value tally + value' tally) := by
  obtain ⟨hnonneg, hle, hzero⟩ := h
  obtain ⟨hnonneg', hle', hzero'⟩ := h'
  have hsum : unexplained (fun tally => value tally + value' tally)
      = unexplained value + unexplained value' := by
    simp only [unexplained]
    omega
  refine ⟨?_, ?_, ?_⟩
  · rw [hsum]
    exact Int.add_nonneg hnonneg hnonneg'
  · rw [hsum, Int.natCast_add]
    exact Int.add_le_add hle hle'
  · rintro ⟨hclean, hclean'⟩
    rw [hsum, hzero hclean, hzero' hclean']
    rfl

/-- Lines that were read, written and left out are counted as they are. -/
theorem unexplained_amount {name : Bytes} {observation : Observation}
    (h : Accounted name observation.stats observation.failure) :
    unexplained (fun tally => tally.amount observation)
      = observation.stats.missing - Tally.parseErrors.amount observation := by
  have hread := Int.toNat_of_nonneg h.linesRead
  have hwritten := Int.toNat_of_nonneg h.linesWritten
  have hskipped := Int.toNat_of_nonneg h.linesSkipped
  simp only [unexplained, Stats.missing, Tally.amount]
  omega

/-- **One run**: what its failure is counted as covers the line it leaves open. -/
theorem explained_amount {name : Bytes} {observation : Observation}
    (h : Accounted name observation.stats observation.failure) :
    Explained (¬ observation.FailedWriting) (fun tally => tally.amount observation) := by
  have hopen := unexplained_amount h
  have hbalanced := h.balanced
  obtain ⟨stats, failure⟩ := observation
  cases failure with
  | none =>
    have hmissing : stats.missing = 0 := hbalanced
    exact explained_of_eq_zero (hopen.trans (by simp [hmissing, Tally.amount]))
  | some fault =>
    obtain ⟨hline, hstream⟩ := balanced_iff.mp hbalanced
    by_cases hparse : fault.parseKind? = none
    · have hlines : Tally.parseErrors.amount ⟨stats, some fault⟩ = 0 := by
        simp [Tally.amount, hparse]
      rw [hlines] at hopen
      rcases hstream hparse with hzero | ⟨⟨path, hio⟩, hone⟩
      · exact explained_of_eq_zero (hopen.trans (by simp [hzero]))
      · have hfailed : Observation.FailedWriting ⟨stats, some fault⟩ :=
          ⟨path, by simp [Fault.kind, hparse, hio]⟩
        have hstreams : Tally.ioErrors.amount ⟨stats, some fault⟩ = 1 := by
          simp [Tally.amount, hparse, hio]
        refine ⟨?_, ?_, fun hclean => absurd hfailed hclean⟩
        · omega
        · simp only [hstreams]
          omega
    · have hlines : Tally.parseErrors.amount ⟨stats, some fault⟩ = 1 := by
        simp [Tally.amount, Option.isSome_iff_ne_none, hparse]
      exact explained_of_eq_zero (hopen.trans (by simp [hline hparse, hlines]))

/-- **The exact totals** of any observations: one more of them changes what is open at its label
by what it leaves open itself. -/
theorem explained_exact (label : Bytes) {observations : List Observation}
    (h : ∀ observation ∈ observations,
      Accounted observation.stats.transform observation.stats observation.failure) :
    Explained (∀ observation ∈ observations,
        observation.stats.transform = label → ¬ observation.FailedWriting)
      (fun tally => tally.exact label observations) := by
  induction observations with
  | nil => exact ⟨Int.le_refl 0, Int.le_refl 0, fun _ => rfl⟩
  | cons observation rest ih =>
    have hrest := ih fun o ho => h o (List.mem_cons_of_mem _ ho)
    have hfirst := explained_amount (h observation List.mem_cons_self)
    have hsum : ∀ tally : Tally, tally.exact label (observation :: rest)
        = tally.exact label [observation] + tally.exact label rest :=
      fun tally => tally.exact_append label [observation] rest
    simp only [hsum, Tally.exact_singleton]
    by_cases hlabel : label = observation.stats.transform
    · simp only [if_pos hlabel]
      refine (hfirst.add hrest).mono ?_
      intro hclean
      exact ⟨hclean observation List.mem_cons_self hlabel.symm,
        fun o ho => hclean o (List.mem_cons_of_mem _ ho)⟩
    · simp only [if_neg hlabel, Nat.zero_add]
      exact hrest.mono fun hclean o ho => hclean o (List.mem_cons_of_mem _ ho)

end Metrics

/-! ## Histories of runs -/

namespace Run

/-- **A run with everything it is given.** -/
inductive Request where
  /-- A run from a source to a sink. -/
  | overStream (transform : Transform) (options : Options) (source : Source) (sink : Sink)
  /-- A run from one path to another. -/
  | overFiles (transform : Transform) (options : Options) (files : FileSystem)
      (stdin inputPath outputPath : Bytes)

namespace Request

/-- The transformation. -/
def transform : Request → Transform
  | overStream transform .. => transform
  | overFiles transform .. => transform

/-- **What is recorded of a run** that took some time. -/
def observation (duration : Int) : Request → Metrics.Observation
  | overStream transform options source sink =>
    let outcome := run transform options source sink
    ⟨{ outcome.stats with duration }, outcome.failure⟩
  | overFiles transform options files stdin inputPath outputPath =>
    let outcome := transformFile transform options files stdin inputPath outputPath
    ⟨{ outcome.stats with duration }, outcome.failure⟩

/-- The failures that a run does not make itself: of its reader, its writer and its
cancellation. -/
def outside : Request → List Fault
  | overStream _ options source sink =>
    sink.failure :: source.failure.toList ++ (options.cancellation.map (·.failure)).toList
  | overFiles _ options .. => (options.cancellation.map (·.failure)).toList

/-- **An ordinary run**: the name of its transformation is valid UTF-8, and its reader, its writer
and its cancellation do not pass on the line failure of another run as their own, which would be
counted as a line failure of this run though no line of it is missing. -/
structure Ordinary (request : Request) : Prop where
  /-- The name is valid UTF-8. -/
  name : isValidUtf8 request.transform.name = true
  /-- Line failures are the run's own. -/
  outside : ∀ fault ∈ request.outside, fault.parseKind? = none

variable {request : Request}

/-- **Every ordinary run accounts for its lines.** -/
theorem Ordinary.accounted (h : request.Ordinary) (duration : Int) :
    Accounted request.transform.name (request.observation duration).stats
      (request.observation duration).failure := by
  have houtside := h.outside
  cases request with
  | overStream transform options source sink =>
    refine Accounted.timed (accounted_run transform ?_ ?_ ?_) duration
    · intro cancellation hcancellation
      exact houtside _ (by simp [Request.outside, hcancellation])
    · intro fault hfault
      exact houtside _ (by simp [Request.outside, hfault])
    · exact houtside _ (by simp [Request.outside])
  | overFiles transform options files stdin inputPath outputPath =>
    refine Accounted.timed (accounted_transformFile transform files stdin inputPath outputPath ?_)
      duration
    intro cancellation hcancellation
    exact houtside _ (by simp [Request.outside, hcancellation])

/-- An ordinary run can be recorded. -/
theorem Ordinary.valid (h : request.Ordinary) (duration : Int) :
    (request.observation duration).Valid := by
  have haccounted := h.accounted duration
  exact ⟨haccounted.name ▸ h.name, haccounted.linesRead, haccounted.linesWritten,
    haccounted.linesSkipped⟩

end Request

/-- **What is recorded of a history**: runs, each with the time it took. -/
def observed (history : List (Request × Int)) : List Metrics.Observation :=
  history.map fun entry => entry.1.observation entry.2

section Observed

variable {history : List (Request × Int)} (hordinary : ∀ entry ∈ history, entry.1.Ordinary)
include hordinary

theorem accounted_of_mem_observed : ∀ observation ∈ observed history,
    Accounted observation.stats.transform observation.stats observation.failure := by
  intro observation hobservation
  obtain ⟨entry, hentry, rfl⟩ := List.mem_map.mp hobservation
  exact { (hordinary entry hentry).accounted entry.2 with name := rfl }

theorem valid_of_mem_observed : ∀ observation ∈ observed history, observation.Valid := by
  intro observation hobservation
  obtain ⟨entry, hentry, rfl⟩ := List.mem_map.mp hobservation
  exact (hordinary entry hentry).valid entry.2

end Observed

end Run

open Metrics in
/-- **The lines of a history balance.** Ordinary runs of any kind are observed one after the other,
and no total reaches `2 ^ 53`. Then the counters of every run fit its failure, and no observation is
refused. After every step, the counters at a label show the exact totals, and the lines read that
were neither written nor left out nor ended a run are at most as many as there were stream
failures: none where no run failed while writing. -/
theorem history_balances (history : List (Run.Request × Int))
    (hordinary : ∀ entry ∈ history, entry.1.Ordinary)
    (hbelow : ∀ (tally : Tally) (label : Bytes),
      tally.exact label (Run.observed history) < 2 ^ 53) :
    (∀ entry ∈ history,
      Balanced (entry.1.observation entry.2).stats (entry.1.observation entry.2).failure) ∧
    (∀ (past : List (Run.Request × Int)) (entry : Run.Request × Int),
      past ++ [entry] <+: history →
        ((recorded (Run.observed past)).observe (entry.1.observation entry.2).stats
          (entry.1.observation entry.2).failure).2 = none) ∧
    ∀ past : List (Run.Request × Int), past <+: history → ∀ label : Bytes,
      let shown := fun tally : Tally => tally.shown label (recorded (Run.observed past))
      (∀ tally : Tally, shown tally = tally.exact label (Run.observed past)) ∧
        0 ≤ unexplained shown ∧ unexplained shown ≤ shown .ioErrors ∧
        ((∀ entry ∈ past, entry.1.transform.name = label →
            ¬ (entry.1.observation entry.2).FailedWriting) →
          unexplained shown = 0) := by
  refine ⟨?_, ?_, ?_⟩
  · intro entry hentry
    exact ((hordinary entry hentry).accounted entry.2).balanced
  · intro past entry hpast
    have hentry : entry ∈ history := hpast.subset (by simp)
    exact (series_observe _ ((hordinary entry hentry).valid entry.2)).1
  · intro past hpast label shown
    have hpastOrdinary : ∀ entry ∈ past, entry.1.Ordinary :=
      fun entry hentry => hordinary entry (hpast.subset hentry)
    have hexact : ∀ (tally : Tally) (label : Bytes),
        tally.exact label (Run.observed past) ≤ 2 ^ 53 := by
      intro tally label
      exact (tally.exact_le_of_prefix label (hpast.map _)).trans (hbelow tally label).le
    have hholds := holds_recorded (Run.valid_of_mem_observed hpastOrdinary) hexact
    have hshown : ∀ tally, shown tally = tally.exact label (Run.observed past) :=
      fun tally => hholds.shown (hexact tally label)
    obtain ⟨hnonneg, hle, hzero⟩ := explained_exact label
      (Run.accounted_of_mem_observed hpastOrdinary)
    refine ⟨hshown, ?_⟩
    rw [funext hshown]
    refine ⟨hnonneg, hle, fun hclean => hzero ?_⟩
    intro observation hobservation hlabel
    obtain ⟨entry, hentry, rfl⟩ := List.mem_map.mp hobservation
    have hname := ((hpastOrdinary entry hentry).accounted entry.2).name
    exact hclean entry hentry (hname.symm.trans hlabel)

open Metrics in
/-- A run that a line ends, and one that finds no input. -/
theorem history_balances_two :
    let history : List (Run.Request × Int) :=
      [(.overStream Transform.binary {} { data := utf8 "1\nnone\n" } {}, 1500),
        (.overFiles Transform.squeeze {} FileSystem.fresh [] (utf8 "in") (utf8 "out"), 0)]
    (∀ entry ∈ history, entry.1.Ordinary) ∧
      (∀ (tally : Tally) (label : Bytes), tally.exact label (Run.observed history) < 2 ^ 53) ∧
      unexplained (fun tally => tally.shown (utf8 "binary") (recorded (Run.observed history)))
        = 0 := by
  intro history
  have hrun : run Transform.binary {} { data := utf8 "1\nnone\n" } {}
      = Run.overScanned Transform.binary {} {} ⟨[utf8 "1", utf8 "none"], none⟩ := by
    rw [run, Options.limit_of_nonpos (Int.le_refl 0), Source.scan_decode]
    congr 2
  have hls : [utf8 "1", utf8 "none"]
      = Reference.kept Transform.binary [] [utf8 "1", utf8 "none"] ++ [utf8 "none"] := by decide
  have hv : Reference.verdict Transform.binary [] (utf8 "none") = .stop .emptyNumeral := rfl
  obtain ⟨-, hstats, hfailure⟩ := Reference.overScanned_of_stop {} {}
    ⟨[utf8 "1", utf8 "none"], none⟩ rfl rfl rfl hls hv
  have hobserved : Run.observed history
      = [⟨{ transform := utf8 "binary", linesRead := 2, linesWritten := 1, bytesWritten := 2,
            duration := 1500 }, some (.parse (utf8 "binary") 2 (utf8 "none") .emptyNumeral)⟩,
          ⟨{ transform := utf8 "squeeze" }, some (.io Fault.openingInput (utf8 "in")
            (.system (utf8 "open") (utf8 "in") .notFound))⟩] := by
    simp only [history, Run.observed, List.map_cons, List.map_nil, Run.Request.observation, hrun,
      hstats, hfailure]
    decide
  have hordinary : ∀ entry ∈ history, entry.1.Ordinary := by
    intro entry hentry
    simp only [history, List.mem_cons, List.not_mem_nil, or_false] at hentry
    rcases hentry with rfl | rfl
    · exact ⟨by decide, by decide⟩
    · exact ⟨by decide, by decide⟩
  have hbelow : ∀ (tally : Tally) (label : Bytes),
      tally.exact label (Run.observed history) < 2 ^ 53 := by
    intro tally label
    rw [hobserved]
    simp only [Tally.exact, List.filter_cons, List.filter_nil]
    split_ifs <;> cases tally <;> decide
  have hclean : ∀ observation ∈ Run.observed history, ¬ observation.FailedWriting := by
    rw [hobserved]
    rintro observation hobservation ⟨path, hpath⟩
    simp only [List.mem_cons, List.not_mem_nil, or_false] at hobservation
    rcases hobservation with rfl | rfl
    · cases hpath
    · have haction := (Fault.Kind.io.inj (Option.some.inj hpath)).1
      exact absurd haction (by decide)
  obtain ⟨-, -, hopen⟩ := history_balances history hordinary hbelow
  refine ⟨hordinary, hbelow, (hopen history (List.prefix_refl _) (utf8 "binary")).2.2.2 ?_⟩
  exact fun entry hentry _ => hclean _ (List.mem_map_of_mem hentry)

open Metrics in
/-- A reader that fails with the line failure of another run: the run has read no line and is
counted as one that a line ended. -/
theorem history_unbalanced_passed_on :
    let history : List (Run.Request × Int) :=
      [(.overStream Transform.squeeze {}
          { data := [], failure := some (.parse (utf8 "binary") 1 (utf8 "x") .emptyNumeral) } {}, 0)]
    (∀ entry ∈ history, isValidUtf8 entry.1.transform.name = true) ∧
      (∀ (tally : Tally) (label : Bytes), tally.exact label (Run.observed history) < 2 ^ 53) ∧
      (∀ observation ∈ Run.observed history,
        (({} : Metrics).observe observation.stats observation.failure).2 = none ∧
          ¬ Balanced observation.stats observation.failure) ∧
      unexplained (fun tally => tally.shown (utf8 "squeeze") (recorded (Run.observed history)))
        = -1 := by
  intro history
  let fault : Fault := .parse (utf8 "binary") 1 (utf8 "x") .emptyNumeral
  have hobserved : Run.observed history
      = [⟨{ transform := utf8 "squeeze" }, some (.io Fault.reading [] fault)⟩] := rfl
  have hvalid : ∀ observation ∈ Run.observed history, observation.Valid := by
    rw [hobserved]
    exact List.forall_mem_singleton.mpr ⟨by decide, by decide, by decide, by decide⟩
  have hbelow : ∀ (tally : Tally) (label : Bytes),
      tally.exact label (Run.observed history) < 2 ^ 53 := by
    intro tally label
    rw [hobserved]
    simp only [Tally.exact, List.filter_cons, List.filter_nil]
    split_ifs <;> cases tally <;> decide
  refine ⟨List.forall_mem_singleton.mpr (by decide), hbelow, fun observation ho => ⟨?_, ?_⟩, ?_⟩
  · exact (series_observe {} (hvalid observation ho)).1
  · rw [hobserved] at ho
    obtain rfl := List.mem_singleton.mp ho
    intro hbalanced
    exact absurd ((balanced_iff.mp hbalanced).1 (by decide)) (by decide)
  · have hholds := holds_recorded hvalid fun tally label => (hbelow tally label).le
    have hshown (tally : Tally) : tally.shown (utf8 "squeeze") (recorded (Run.observed history))
        = tally.exact (utf8 "squeeze") (Run.observed history) :=
      hholds.shown (hbelow tally _).le
    rw [funext hshown, hobserved]
    decide

end Linewise

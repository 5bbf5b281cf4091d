import Mathlib.Data.List.TakeDrop
import Linewise.Proofs.Reference

/-!
# Runs into a sink that fills up

A run into a sink with limited room goes side by side with the same run into a sink
that takes everything. As long as the bytes handed over fit, the two are in the same
state but for the room. The first write that does not fit leaves the sink with the
beginning of what the other run has written by then, and since output only grows,
with the beginning of all it will ever write. The failure of that write is reported,
unless it happens at the very end of a run that has failed already.

## Main definitions

* `Sink.bounded`, `Writer.bounded`, `Run.State.bounded`: the same with room for `n` bytes in all
* `Writer.Full`: the sink has filled up, and holds what an output begins with
* `Run.Beside`: how the two runs stand to each other

## Main results

* `Writer.Steady.put_bounded`, `Writer.Steady.flush_bounded`: one write, and the last one
* `Run.beside_step`, `Run.beside_overLines`: one line, and all of them
* `run_of_limited_room`: nothing is lost without a failure
-/

namespace Linewise

/-! ## Sinks -/

namespace Sink

/-- The sink with room for `n` bytes in all, those it holds included. -/
def bounded (n : Nat) (full : Fault) (sink : Sink) : Sink :=
  { sink with room := some (n - sink.accepted.length), failure := full }

variable {sink : Sink} {n : Nat} {bytes : Bytes}

/-- A write that fits is the write without a bound. -/
theorem write_bounded (full : Fault) (hr : sink.room = none)
    (hn : (sink.accepted ++ bytes).length ≤ n) :
    (sink.bounded n full).write bytes = ((sink.write bytes).1.bounded n full, none) := by
  rw [List.length_append] at hn
  have hfits : bytes.length ≤ n - sink.accepted.length := by omega
  have hroom : n - sink.accepted.length - bytes.length
      = n - (sink.accepted ++ bytes).length := by
    rw [List.length_append]
    omega
  rw [write_of_room hr]
  simp only [write, bounded, if_pos hfits, hroom]

/-- A write that does not fit fills the sink and fails. -/
theorem write_bounded_of_lt (full : Fault) (hn : sink.accepted.length ≤ n)
    (hlt : n < (sink.accepted ++ bytes).length) :
    ((sink.bounded n full).write bytes).1.accepted = (sink.accepted ++ bytes).take n ∧
      ((sink.bounded n full).write bytes).2 = some full := by
  rw [List.length_append] at hlt
  have hfits : ¬ bytes.length ≤ n - sink.accepted.length := by omega
  simp only [write, bounded, if_neg hfits]
  refine ⟨?_, trivial⟩
  rw [List.take_append, List.take_of_length_le hn]

end Sink

/-! ## Writers -/

namespace Writer

/-- The writer over a sink with room for `n` bytes in all. -/
def bounded (n : Nat) (full : Fault) (writer : Writer) : Writer :=
  { writer with sink := writer.sink.bounded n full }

@[simp] theorem bounded_failure (n : Nat) (full : Fault) (writer : Writer) :
    (writer.bounded n full).failure = writer.failure := rfl

/-- **The sink has filled up**: it holds the first `n` bytes of an output that is longer, and the
writer has failed. -/
structure Full (n : Nat) (full : Fault) (output : Bytes) (writer : Writer) : Prop where
  /-- The output does not fit. -/
  lt : n < output.length
  /-- What fits of it is in the sink. -/
  accepted : writer.sink.accepted = output.take n
  /-- The failure is known. -/
  failure : writer.failure = some full

variable {writer : Writer} {n : Nat} {full : Fault} {output : Bytes}

/-- A sink that has filled up holds the beginning of every longer output. -/
theorem Full.of_prefix (h : Full n full output writer) {longer : Bytes}
    (hp : output <+: longer) : Full n full longer writer := by
  obtain ⟨rest, rfl⟩ := hp
  refine ⟨?_, ?_, h.failure⟩
  · rw [List.length_append]
    exact Nat.lt_add_right _ h.lt
  · rw [h.accepted, List.take_append_of_le_length (Nat.le_of_lt h.lt)]

/-- Nothing more is handed over to a sink that has failed. -/
theorem Full.flush_eq (h : Full n full output writer) : writer.flush = writer := by
  rw [flush, h.failure]
  rfl

section Handover

variable {bytes : Bytes} {sink : Sink} (hf : ¬ writer.failure.isSome = true)
  (hlen : ¬ bytes.length ≤ capacity - writer.buffer.length)
include hf hlen

/-- A full buffer that the sink takes makes room for the rest. -/
theorem put_of_write_none
    (hw : writer.sink.write (writer.buffer ++ bytes.take (capacity - writer.buffer.length))
      = (sink, none)) :
    writer.put bytes
      = Writer.put ⟨sink, [], none⟩ (bytes.drop (capacity - writer.buffer.length)) := by
  conv_lhs => rw [Writer.put]
  simp only [if_neg hf, if_neg hlen, hw]

/-- A full buffer that the sink does not take is lost, and so is the rest. -/
theorem put_of_write_some {fault : Fault}
    (hw : writer.sink.write (writer.buffer ++ bytes.take (capacity - writer.buffer.length))
      = (sink, some fault)) :
    writer.put bytes = ⟨sink, [], some fault⟩ := by
  rw [Writer.put]
  simp only [if_neg hf, if_neg hlen, hw]

end Handover

/-- **One write**: the writers stay in step, or the sink of the bounded one fills up. -/
theorem Steady.put_bounded (full : Fault) (h : writer.Steady)
    (hn : writer.sink.accepted.length ≤ n) (bytes : Bytes) :
    ((writer.put bytes).sink.accepted.length ≤ n ∧
        (writer.bounded n full).put bytes = (writer.put bytes).bounded n full) ∨
      Full n full (writer.put bytes).contents ((writer.bounded n full).put bytes) := by
  fun_induction Writer.put writer bytes with
  | case1 writer bytes hf => simp [h.failure] at hf
  | case2 writer bytes hf hlen =>
    left
    refine ⟨hn, ?_⟩
    rw [Writer.put, bounded_failure, if_neg hf]
    exact if_pos hlen
  | case3 writer bytes hf hlen room sink fault hw =>
    rw [Sink.write_of_room h.room] at hw
    simp at hw
  | case4 writer bytes hf hlen room sink hw ih =>
    have hsink : sink = { writer.sink with
        accepted := writer.sink.accepted ++ (writer.buffer ++ bytes.take room) } := by
      rw [Sink.write_of_room h.room, Prod.mk.injEq] at hw
      exact hw.1.symm
    have hsteady : (Writer.mk sink [] none).Steady := ⟨rfl, by rw [hsink]; exact h.room⟩
    have hf' : ¬ (writer.bounded n full).failure.isSome = true := hf
    rcases Nat.lt_or_ge n sink.accepted.length with hlt | hle
    · right
      rw [hsink] at hlt
      obtain ⟨haccepted, hfailure⟩ := Sink.write_bounded_of_lt full hn hlt
      have hfull : Full n full sink.accepted ((writer.bounded n full).put bytes) := by
        rcases hwrite : (writer.sink.bounded n full).write (writer.buffer ++ bytes.take room)
          with ⟨after, failure⟩
        rw [hwrite] at haccepted hfailure
        obtain rfl : failure = some full := hfailure
        rw [put_of_write_some hf' hlen hwrite]
        exact ⟨by rw [hsink]; exact hlt, by rw [hsink]; exact haccepted, rfl⟩
      refine hfull.of_prefix ?_
      rw [hsteady.contents_put]
      exact ⟨[] ++ bytes.drop room, by simp [contents]⟩
    · rw [hsink] at hle
      have hwrite := Sink.write_bounded full h.room hle
      rw [hw] at hwrite
      rw [put_of_write_none hf' hlen hwrite]
      exact ih hsteady (by rw [hsink]; exact hle)

/-- **The last write**: all that was written fits, or the sink fills up. -/
theorem Steady.flush_bounded (full : Fault) (h : writer.Steady)
    (hn : writer.sink.accepted.length ≤ n) :
    (writer.contents.length ≤ n ∧
        (writer.bounded n full).flush.sink.accepted = writer.contents ∧
        (writer.bounded n full).flush.failure = none) ∨
      Full n full writer.contents (writer.bounded n full).flush := by
  by_cases hb : writer.buffer = []
  · left
    have hflush : (writer.bounded n full).flush = writer.bounded n full := by
      rw [flush]
      exact if_pos (by simp [bounded, hb])
    rw [hflush, contents, hb, List.append_nil]
    exact ⟨hn, rfl, h.failure⟩
  · have hflush : (writer.bounded n full).flush
        = ⟨((writer.sink.bounded n full).write writer.buffer).1, [],
            ((writer.sink.bounded n full).write writer.buffer).2⟩ := by
      rw [flush]
      exact if_neg (by simp [bounded, hb, h.failure])
    rw [hflush]
    rcases Nat.lt_or_ge n writer.contents.length with hlt | hle
    · right
      obtain ⟨haccepted, hfailure⟩ := Sink.write_bounded_of_lt full hn hlt
      exact ⟨hlt, haccepted, hfailure⟩
    · left
      rw [Sink.write_bounded full h.room hle, Sink.write_of_room h.room]
      exact ⟨hle, rfl, rfl⟩

end Writer

/-! ## Lines -/

namespace Run

/-- The state with room for `n` bytes in all in its sink. -/
def State.bounded (n : Nat) (full : Fault) (state : State) : State :=
  { state with writer := state.writer.bounded n full }

/-- **How a run stands beside the same run into a sink with room for `n` bytes**: the two are in
step, or the second one has filled its sink and failed. -/
inductive Beside (n : Nat) (full : Fault) : State × Option Fault → State × Option Fault → Prop
  /-- What was handed over fits, and only the room differs. -/
  | inStep (state : State) (failure : Option Fault) :
    state.writer.sink.accepted.length ≤ n →
    Beside n full (state, failure) (state.bounded n full, failure)
  /-- A write did not fit, and the run ended there. -/
  | filled (state filled : State) (failure : Option Fault) :
    Writer.Full n full state.writer.contents filled.writer →
    Beside n full (state, failure) (filled, some (.io Fault.writing [] full))

section Steady

variable {state : State}

/-- A sink that takes everything takes every result. -/
theorem emit_of_steady (h : state.writer.Steady) (result : Bytes) :
    (state.emit result).1.writer = state.writer.put (result ++ [Bytes.lineFeed]) ∧
      (state.emit result).2 = none := by
  rw [emit_of_written (h.put _).failure]
  exact ⟨rfl, rfl⟩

/-- An action on a state whose sink takes everything keeps it so, and only adds to the output. -/
theorem carryOut_of_steady (h : state.writer.Steady) (action : Action) :
    (action.carryOut state).1.writer.Steady ∧
      state.writer.contents <+: (action.carryOut state).1.writer.contents := by
  cases action with
  | callOff fault => exact ⟨h, List.prefix_rfl⟩
  | stop fault => exact ⟨h, List.prefix_rfl⟩
  | leaveOut warning => exact ⟨h, List.prefix_rfl⟩
  | emit result warnings =>
    have hcounted : { state.counted with logged := warnings ++ state.logged }.writer.Steady := h
    rw [Action.carryOut, (emit_of_steady hcounted result).1]
    refine ⟨h.put _, ?_⟩
    exact ⟨_, (h.contents_put _).symm⟩

/-- So does a run over lines. -/
theorem overLines_of_steady (transform : Transform) (options : Options)
    (h : state.writer.Steady) (ls : List Bytes) :
    (overLines transform options state ls).1.writer.Steady ∧
      state.writer.contents
        <+: (overLines transform options state ls).1.writer.contents := by
  induction ls generalizing state with
  | nil => exact ⟨h, List.prefix_rfl⟩
  | cons line ls ih =>
    obtain ⟨hsteady, hgrows⟩ :=
      carryOut_of_steady h (action transform options state.stats line)
    rw [← step_eq_carryOut] at hsteady hgrows
    simp only [overLines]
    rcases hstep : step transform options state line with ⟨next, _ | fault⟩
    · rw [hstep] at hsteady hgrows
      obtain ⟨hlast, hmore⟩ := ih hsteady
      exact ⟨hlast, hgrows.trans hmore⟩
    · rw [hstep] at hsteady hgrows
      exact ⟨hsteady, hgrows⟩

end Steady

section Beside

variable {n : Nat} {state : State}

/-- A result is taken by both sinks, or fills the one with limited room. -/
theorem beside_emit (full : Fault) (h : state.writer.Steady)
    (hn : state.writer.sink.accepted.length ≤ n) (result : Bytes) :
    Beside n full (state.emit result) ((state.bounded n full).emit result) := by
  have hemit := emit_of_written (h.put (result ++ [Bytes.lineFeed])).failure
  rcases h.put_bounded full hn (result ++ [Bytes.lineFeed]) with ⟨hle, hput⟩ | hfull
  · have hbounded : (state.bounded n full).emit result
        = ((state.emit result).1.bounded n full, none) := by
      have hwritten : ((state.bounded n full).writer.put (result ++ [Bytes.lineFeed])).failure
          = none := by
        change ((state.writer.bounded n full).put _).failure = none
        rw [hput]
        exact (h.put _).failure
      rw [emit_of_written hwritten, hemit]
      change (State.mk _ ((state.writer.bounded n full).put _) _, none) = _
      rw [hput]
      rfl
    rw [hbounded, hemit]
    exact .inStep _ none hle
  · have hbounded : (state.bounded n full).emit result
        = ({ state with writer := (state.writer.bounded n full).put (result ++ [Bytes.lineFeed]) },
            some (.io Fault.writing [] full)) := by
      simp only [State.emit, State.bounded, hfull.failure]
    rw [hbounded, hemit]
    exact .filled _ _ none hfull

/-- **One line.** -/
theorem beside_step (transform : Transform) (options : Options) (full : Fault)
    (h : state.writer.Steady) (hn : state.writer.sink.accepted.length ≤ n) (line : Bytes) :
    Beside n full (step transform options state line)
      (step transform options (state.bounded n full) line) := by
  rw [step_eq_carryOut, step_eq_carryOut]
  change Beside n full _
    ((action transform options state.stats line).carryOut (state.bounded n full))
  cases action transform options state.stats line with
  | callOff fault => exact .inStep state (some fault) hn
  | stop fault => exact .inStep state.counted (some fault) hn
  | leaveOut warning => exact .inStep _ none hn
  | emit result warnings =>
    have hcounted : { state.counted with logged := warnings ++ state.logged }.writer.Steady := h
    exact beside_emit full hcounted hn result

/-- **All lines**: once the sink has filled up, the other run only adds to its output. -/
theorem beside_overLines (transform : Transform) (options : Options) (full : Fault)
    (h : state.writer.Steady) (hn : state.writer.sink.accepted.length ≤ n) (ls : List Bytes) :
    Beside n full (overLines transform options state ls)
      (overLines transform options (state.bounded n full) ls) := by
  induction ls generalizing state with
  | nil => exact .inStep state none hn
  | cons line ls ih =>
    have hstep := beside_step transform options full h hn line
    have hsteady := (carryOut_of_steady h (action transform options state.stats line)).1
    rw [← step_eq_carryOut] at hsteady
    simp only [overLines]
    generalize step transform options state line = free at hstep hsteady
    generalize step transform options (state.bounded n full) line = limited at hstep
    cases hstep with
    | inStep next failure hle =>
      cases failure with
      | none => exact ih hsteady hle
      | some fault => exact .inStep next (some fault) hle
    | filled next filled failure hfull =>
      cases failure with
      | none =>
        obtain ⟨-, hgrows⟩ := overLines_of_steady transform options hsteady ls
        exact .filled _ filled _ (hfull.of_prefix hgrows)
      | some fault => exact .filled next filled (some fault) hfull

end Beside

/-! ## Whole runs -/

/-- **A run into limited room**, beside the same run into a sink that takes everything. -/
structure Limited (n : Nat) (full : Fault) (free limited : Outcome) : Prop where
  /-- The sink holds what fits of the output. -/
  accepted : limited.sink.accepted = free.sink.accepted.take n
  /-- If all of it fits, nothing else differs. -/
  same : free.sink.accepted.length ≤ n →
    limited.stats = free.stats ∧ limited.failure = free.failure ∧ limited.log = free.log
  /-- If not, the run has failed: with the write, or as the other run did. -/
  failed : n < free.sink.accepted.length →
    limited.failure = some (.io Fault.writing [] full) ∨
      free.failure ≠ none ∧ limited.failure = free.failure

section Finish

variable {n : Nat} {full : Fault} {state filled : State}

/-- A run that filled its sink has failed by the time it ends, however the other one ends. -/
theorem limited_finish_filled (h : state.writer.Steady)
    (hfull : Writer.Full n full state.writer.contents filled.writer) (failure : Option Fault) :
    Limited n full (finish state failure)
      (finish filled (some (.io Fault.writing [] full))) := by
  have haccepted := (Reference.finish_of_steady h failure).1
  have hlt := hfull.lt
  refine ⟨?_, fun hle => ?_, fun _ => .inl rfl⟩
  · rw [haccepted, finish, hfull.flush_eq]
    exact hfull.accepted
  · rw [haccepted] at hle
    omega

/-- Runs that are in step end alike if all that was written fits. If not, the failure of the last
write is reported unless there is another one. -/
theorem limited_finish_inStep (full : Fault) (h : state.writer.Steady)
    (hn : state.writer.sink.accepted.length ≤ n) (failure : Option Fault) :
    Limited n full (finish state failure) (finish (state.bounded n full) failure) := by
  obtain ⟨haccepted, hfailure⟩ := Reference.finish_of_steady h failure
  have hbounded : (finish (state.bounded n full) failure).failure
      = (failure <|> (state.writer.bounded n full).flush.failure.map (.io Fault.writing [])) := rfl
  rcases h.flush_bounded full hn with ⟨hle, hall, hnone⟩ | hfull
  · refine ⟨?_, fun _ => ⟨rfl, ?_, rfl⟩, fun hlt => ?_⟩
    · rw [haccepted, List.take_of_length_le hle]
      exact hall
    · rw [hbounded, hfailure, hnone]
      simp
    · rw [haccepted] at hlt
      omega
  · have hlt := hfull.lt
    refine ⟨?_, fun hle => ?_, fun _ => ?_⟩
    · rw [haccepted]
      exact hfull.accepted
    · rw [haccepted] at hle
      omega
    · rw [hbounded, hfailure, hfull.failure]
      cases failure with
      | none => exact .inl rfl
      | some fault => exact .inr ⟨by simp, rfl⟩

end Finish

/-- **A run over scanned lines**, into limited room and beside it. -/
theorem limited_overScanned (transform : Transform) (options : Options) (scanned : Scanned)
    (n : Nat) (full : Fault) :
    Limited n full (overScanned transform options {} scanned)
      (overScanned transform options { room := some n, failure := full } scanned) := by
  have hbegin : (begin transform {}).writer.Steady := ⟨rfl, rfl⟩
  have hbeside := beside_overLines transform options full hbegin (Nat.zero_le n) scanned.lines
  obtain ⟨hsteady, -⟩ := overLines_of_steady transform options hbegin scanned.lines
  change Beside n full _ (overLines transform options
    (begin transform { room := some n, failure := full }) scanned.lines) at hbeside
  rw [overScanned, overScanned]
  generalize overLines transform options (begin transform {}) scanned.lines = free
    at hbeside hsteady
  generalize overLines transform options (begin transform { room := some n, failure := full })
    scanned.lines = limited at hbeside
  cases hbeside with
  | inStep state failure hle =>
    cases failure with
    | some fault => exact limited_finish_inStep full hsteady hle (some fault)
    | none =>
      cases scanned.failure with
      | some fault => exact limited_finish_inStep full hsteady hle _
      | none =>
        have hlogged : { state with
            logged := endEntry state.stats :: state.logged }.writer.Steady := hsteady
        exact limited_finish_inStep full hlogged hle none
  | filled state filled failure hfull =>
    cases failure with
    | some fault => exact limited_finish_filled hsteady hfull (some fault)
    | none =>
      cases scanned.failure with
      | some fault => exact limited_finish_filled hsteady hfull _
      | none =>
        have hlogged : { state with
            logged := endEntry state.stats :: state.logged }.writer.Steady := hsteady
        exact limited_finish_filled hlogged hfull none

end Run

/-- **Nothing is lost without a failure.** Whatever the source and the way it ends, the
transformation, the policy, the bound on lines and the point where the run is called off: a sink
with room for `n` bytes ends up with the first `n` bytes of the output `O` that a sink without a
bound gets. If `O` fits, the run ends as the other one does. If it does not, the run fails, with
the write that did not fit or with the failure of the other run. -/
theorem run_of_limited_room (transform : Transform) (options : Options) (source : Source)
    (n : Nat) (full : Fault) :
    let free := run transform options source {}
    let limited := run transform options source { room := some n, failure := full }
    let O := free.sink.accepted
    limited.sink.accepted = O.take (min n O.length) ∧
      (O.length ≤ n →
        limited.stats = free.stats ∧ limited.failure = free.failure ∧ limited.log = free.log) ∧
      (n < O.length → limited.failure = some (.io Fault.writing [] full) ∨
        free.failure ≠ none ∧ limited.failure = free.failure) := by
  intro free limited O
  have h : Run.Limited n full free limited :=
    Run.limited_overScanned transform options (source.decode.scan options.limit) n full
  refine ⟨?_, h.same, h.failed⟩
  rw [h.accepted, List.take_eq_take_min]

/-- A sink with room for three bytes cuts the second result off its terminator. The run fails,
although its own failure, at the line without digits, comes only after three results. -/
theorem run_of_limited_room_three :
    let source : Source := { data := utf8 "1\n10\r\n11\nnone\n", chunk := 2 }
    (run Transform.binary {} source {}).sink.accepted = utf8 "1\n2\n3\n" ∧
      (run Transform.binary {} source { room := some 3, failure := .other [] }).sink.accepted
        = utf8 "1\n2" ∧
      (run Transform.binary {} source { room := some 3, failure := .other [] }).failure
        ≠ none := by
  intro source
  obtain ⟨haccepted, -, hfailed⟩ := run_of_limited_room Transform.binary {} source 3 (.other [])
  have hp : ({} : Options).onEmpty = Policy.ofWord [] := rfl
  have hfree : (run Transform.binary {} source {}).sink.accepted = utf8 "1\n2\n3\n" :=
    (accepted_run Transform.binary hp rfl (Int.le_refl 0) source).trans (by decide)
  rw [hfree] at haccepted hfailed
  refine ⟨hfree, haccepted.trans (by decide), ?_⟩
  rcases hfailed (by decide) with hwrite | ⟨hne, heq⟩
  · exact ne_of_eq_of_ne hwrite (by simp)
  · exact ne_of_eq_of_ne heq hne

end Linewise

import Linewise.Fault

/-!
# Sinks and the write buffer

A sink takes bytes until it is full; the write that would exceed its room stores
what still fits and fails. Output passes through a buffer of fixed size: a
failure shows when the buffer is emptied into the sink, and after it nothing more
is written.

## Main definitions

* `Sink`, `Sink.write` — a place for bytes with perhaps limited room.
* `Writer`, `Writer.put`, `Writer.flush` — buffered output.
-/

namespace Linewise

/-- **A place for bytes.** -/
structure Sink where
  /-- The bytes it has taken. -/
  accepted : Bytes := []
  /-- How many more it takes; `none` for any number. -/
  room : Option Nat := none
  /-- How it fails when there is no room left. -/
  failure : Fault := .unstated

/-- Writes bytes to a sink; what does not fit is dropped, and the write fails. -/
def Sink.write (sink : Sink) (bytes : Bytes) : Sink × Option Fault :=
  match sink.room with
  | none => ({ sink with accepted := sink.accepted ++ bytes }, none)
  | some room =>
    if bytes.length ≤ room then
      ({ sink with accepted := sink.accepted ++ bytes, room := some (room - bytes.length) }, none)
    else
      ({ sink with accepted := sink.accepted ++ bytes.take room, room := some 0 },
        some sink.failure)

/-- **Output on its way to a sink.** -/
structure Writer where
  /-- Where the bytes go. -/
  sink : Sink
  /-- The bytes not yet handed to the sink. -/
  buffer : Bytes := []
  /-- The failure of the sink, after which nothing is written. -/
  failure : Option Fault := none

namespace Writer

/-- The size of the buffer. -/
def capacity : Nat := 4096

/-- Hands the buffer over to the sink. -/
def flush (writer : Writer) : Writer :=
  if writer.failure.isSome || writer.buffer.isEmpty then writer
  else
    match writer.sink.write writer.buffer with
    | (sink, failure) => ⟨sink, [], failure⟩

/-- **Writes bytes through the buffer**, which goes to the sink whenever it is full and more is
to come. -/
def put (writer : Writer) (bytes : Bytes) : Writer :=
  if writer.failure.isSome then writer
  else if bytes.length ≤ capacity - writer.buffer.length then
    { writer with buffer := writer.buffer ++ bytes }
  else
    let room := capacity - writer.buffer.length
    match writer.sink.write (writer.buffer ++ bytes.take room) with
    | (sink, some failure) => ⟨sink, [], some failure⟩
    | (sink, none) => put ⟨sink, [], none⟩ (bytes.drop room)
termination_by (bytes.length, writer.buffer.length)
decreasing_by
  simp_wf
  simp only [capacity] at *
  rw [Prod.lex_def]
  simp only
  omega

end Writer

end Linewise

import Mathlib.Data.List.TakeDrop
import Linewise.Sink

/-!
# Output through the buffer

What has been written is what the sink has taken followed by what waits in the
buffer. As long as the sink takes everything, writing appends to that, and handing
the buffer over leaves all of it in the sink.

## Main definitions

* `Writer.contents`: all bytes written so far
* `Writer.Steady`: nothing has failed, and the sink takes any number of bytes

## Main results

* `Writer.Steady.put`, `Writer.Steady.contents_put`: writing appends
* `Writer.Steady.accepted_flush`: nothing is lost at the end
-/

namespace Linewise

/-- A sink without a bound takes all bytes of a write. -/
theorem Sink.write_of_room {sink : Sink} (h : sink.room = none) (bytes : Bytes) :
    sink.write bytes = ({ sink with accepted := sink.accepted ++ bytes }, none) := by
  rw [write, h]

namespace Writer

/-- **All bytes written so far**: those in the sink, then those in the buffer. -/
def contents (writer : Writer) : Bytes :=
  writer.sink.accepted ++ writer.buffer

/-- Nothing has failed, and the sink takes any number of bytes. -/
structure Steady (writer : Writer) : Prop where
  /-- The sink has not failed. -/
  failure : writer.failure = none
  /-- The sink has no bound. -/
  room : writer.sink.room = none

/-- Writing to a steady writer appends, and keeps it steady. -/
theorem Steady.put_and_contents {writer : Writer} (h : writer.Steady) (bytes : Bytes) :
    (writer.put bytes).Steady ∧ (writer.put bytes).contents = writer.contents ++ bytes := by
  fun_induction Writer.put writer bytes with
  | case1 writer bytes hf => simp [h.failure] at hf
  | case2 writer bytes hf hlen =>
    refine ⟨⟨h.failure, h.room⟩, ?_⟩
    simp [contents]
  | case3 writer bytes hf hlen room sink fault hw =>
    rw [Sink.write_of_room h.room] at hw
    simp at hw
  | case4 writer bytes hf hlen room sink hw ih =>
    rw [Sink.write_of_room h.room, Prod.mk.injEq] at hw
    obtain ⟨rfl, -⟩ := hw
    obtain ⟨hs, hc⟩ := ih ⟨rfl, h.room⟩
    refine ⟨hs, hc.trans ?_⟩
    simp [contents, List.append_assoc, List.take_append_drop]

theorem Steady.put {writer : Writer} (h : writer.Steady) (bytes : Bytes) :
    (writer.put bytes).Steady :=
  (h.put_and_contents bytes).1

theorem Steady.contents_put {writer : Writer} (h : writer.Steady) (bytes : Bytes) :
    (writer.put bytes).contents = writer.contents ++ bytes :=
  (h.put_and_contents bytes).2

/-- Handing the buffer over loses nothing. -/
theorem Steady.accepted_flush {writer : Writer} (h : writer.Steady) :
    writer.flush.sink.accepted = writer.contents ∧ writer.flush.failure = none := by
  rw [flush]
  split_ifs with hb
  · have hbuffer : writer.buffer = [] := by simpa [h.failure] using hb
    simp [contents, hbuffer, h.failure]
  · rw [Sink.write_of_room h.room]
    exact ⟨rfl, rfl⟩

end Writer

end Linewise

import Linewise.Lines
import Linewise.Source

/-!
# Lines of a stream, through a bounded buffer

Lines are cut off the bytes that have arrived. They wait in a buffer that may be
bounded: a line whose end is not decided by the bytes that fit into the buffer is
too long and ends the stream. The decision needs the terminator, and after a
carriage return one byte more; the end of the stream counts only once it has
arrived, so a text that fills the buffer to the brim is too long unless its last
bytes come together with the end.

## Main definitions

* `LineBuffer` — the lines found so far and the bytes waiting for their terminator.
* `LineBuffer.drain` — cuts off all lines that are decided.
* `Stream.scan` — the lines of a stream and how it ended.
-/

namespace Linewise

/-- The most bytes a line buffer holds: `none` for no bound. -/
abbrev Limit := Option Nat

namespace Limit

/-- The part of a text that fits into the buffer. -/
def fit : Limit → Bytes → Bytes
  | none, text => text
  | some n, text => text.take n

/-- Does the whole text fit into the buffer? -/
def admits : Limit → Bytes → Bool
  | none, _ => true
  | some n, text => text.length ≤ n

/-- Does the text leave no room in the buffer? -/
def isFull : Limit → Bytes → Bool
  | none, _ => false
  | some n, text => n ≤ text.length

end Limit

/-- **What is left after cutting lines off a text.** -/
structure Drained where
  /-- The lines cut off, last first. -/
  found : List Bytes
  /-- The bytes that wait for their terminator. -/
  held : Bytes
  /-- Did a line outgrow the buffer? -/
  overflow : Bool
deriving DecidableEq, Repr

/-- One pass of `drain`; `fuel` bounds the number of cuts. -/
def drainLoop (limit : Limit) (ended : Bool) : (fuel : Nat) → (found : List Bytes) → Bytes →
    Drained
  | 0, found, text => ⟨found, text, false⟩
  | fuel + 1, found, text =>
    match cut? (ended && limit.admits text) (limit.fit text) with
    | some cut => drainLoop limit ended fuel (cut.line :: found) (text.drop cut.advance)
    | none => ⟨found, text, limit.isFull text⟩

/-- **Cuts off all lines of a text that are decided** within the buffer. Every cut takes at least
one byte, so one more cut than there are bytes is never made. -/
def drain (limit : Limit) (ended : Bool) (text : Bytes) : Drained :=
  drainLoop limit ended (text.length + 1) [] text

/-- **The lines of a stream up to some point of it.** -/
structure LineBuffer where
  /-- The lines found, last first. -/
  found : List Bytes := []
  /-- The bytes that wait for their terminator. -/
  held : Bytes := []
  /-- Did a line outgrow the buffer? Nothing is read after that. -/
  overflow : Bool := false
deriving DecidableEq, Repr

namespace LineBuffer

/-- Takes the next piece of the stream; `ended` says that the end comes with it. -/
def feed (limit : Limit) (ended : Bool) (buffer : LineBuffer) (piece : Bytes) : LineBuffer :=
  if buffer.overflow then buffer
  else
    let drained := drain limit ended (buffer.held ++ piece)
    ⟨drained.found ++ buffer.found, drained.held, drained.overflow⟩

end LineBuffer

/-- **The lines of a stream and the failure that ended it**, if one did. -/
structure Scanned where
  /-- The lines, in order. -/
  lines : List Bytes
  /-- The failure of the source, or a line too long for the buffer. -/
  failure : Option Fault

/-- **Scans a stream for lines.** What has arrived before a failure is scanned to its end. -/
def Stream.scan (limit : Limit) (stream : Stream) : Scanned :=
  let body := stream.pieces.foldl (LineBuffer.feed limit false) {}
  let buffer := body.feed limit true stream.last
  ⟨buffer.found.reverse, if buffer.overflow then some .lineTooLong else stream.failure⟩

end Linewise

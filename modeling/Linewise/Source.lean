import Linewise.Encoding
import Linewise.Fault

/-!
# Sources and decoded streams

A source hands out its bytes in reads of bounded size and then reports its end,
which is the regular one or a failure. Decoding a source keeps the reads apart;
what the decoder held back comes out together with the regular end and is lost
when the source fails.

## Main definitions

* `Source` — bytes, the size of a read, and how it ends.
* `Source.reads` — the reads of a source.
* `Stream` — decoded pieces, the piece that comes with the end, and the end.
* `Source.decode` — the decoded stream of a source.
* `Stream.contents` — all bytes of a stream.
-/

namespace Linewise

/-- **Where the bytes of a run come from.** -/
structure Source where
  /-- The bytes that are delivered. -/
  data : Bytes
  /-- The most bytes one read delivers; zero sets no bound of its own. -/
  chunk : Nat := 0
  /-- How the source ends after its bytes: with a failure, or regularly. -/
  failure : Option Fault := none

namespace Source

/-- The most bytes one read asks for. -/
def window : Nat := 4096

/-- A source that fails after the first `n` bytes of `data`. -/
def failingAfter (n : Nat) (data : Bytes) (chunk : Nat) (failure : Fault) : Source :=
  ⟨data.take n, chunk, some failure⟩

/-- One pass of `cutEvery`: `room` bytes still fit into the piece, which is kept reversed. -/
def cutLoop (size : Nat) : (done : List Bytes) → (piece : Bytes) → (room : Nat) → Bytes →
    List Bytes
  | done, piece, _, [] => (if piece.isEmpty then done else piece.reverse :: done).reverse
  | done, piece, 0, b :: rest => cutLoop size (piece.reverse :: done) [b] (size - 1) rest
  | done, piece, room + 1, b :: rest => cutLoop size done (b :: piece) room rest

/-- The text in pieces of `size` bytes, the last one perhaps shorter. -/
def cutEvery (size : Nat) (text : Bytes) : List Bytes :=
  cutLoop size [] [] size text

/-- The size of a read. -/
def readSize (source : Source) : Nat :=
  if source.chunk = 0 then window else min source.chunk window

/-- **The reads of a source**, in order. -/
def reads (source : Source) : List Bytes :=
  cutEvery source.readSize source.data

end Source

/-- **A decoded stream**: its pieces in order, then a last piece that arrives together with the
end, and the failure it ends with, if it does. -/
structure Stream where
  /-- The pieces before the end. -/
  pieces : List Bytes
  /-- What arrives together with the end. -/
  last : Bytes
  /-- The failure at the end; `none` for a regular end. -/
  failure : Option Fault

/-- All bytes of a stream. -/
def Stream.contents (stream : Stream) : Bytes :=
  stream.pieces.flatten ++ stream.last

namespace Decoder

/-- Feeds the pieces one by one; `done` holds what came out, last piece first. -/
def feedAll : (done : List Bytes) → Decoder → List Bytes → List Bytes × Decoder
  | done, decoder, [] => (done.reverse, decoder)
  | done, decoder, piece :: rest =>
    feedAll ((decoder.feed piece).2 :: done) (decoder.feed piece).1 rest

end Decoder

/-- **The decoded stream of a source.** -/
def Source.decode (source : Source) : Stream :=
  let decoded := Decoder.feedAll [] Decoder.start source.reads
  match source.failure with
  | none => ⟨decoded.1, decoded.2.finish, none⟩
  | some fault => ⟨decoded.1, [], some fault⟩

end Linewise

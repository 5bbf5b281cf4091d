import Linewise.Bytes

/-!
# Universal newlines

A line ends at a line feed, at a carriage return, or at the pair of both; the
last line of a text may lack its terminator. `lines` reads a whole text. `cut?`
takes one line off a text that may still grow: a carriage return at the very end
of what has arrived is not decided until more arrives or nothing more can.

## Main definitions

* `Terminator` — what ends a line.
* `Cut`, `cut?` — one line taken off the front of a text.
* `lines` — the lines of a whole text.
-/

namespace Linewise

/-- **What ends a line.** -/
inductive Terminator where
  /-- A line feed. -/
  | lineFeed
  /-- A carriage return and a line feed. -/
  | returnFeed
  /-- A carriage return alone. -/
  | carriageReturn
  /-- The end of the text. -/
  | endOfText
deriving DecidableEq, Repr

/-- The bytes of a terminator. -/
def Terminator.bytes : Terminator → Bytes
  | lineFeed => [Bytes.lineFeed]
  | returnFeed => [Bytes.carriageReturn, Bytes.lineFeed]
  | carriageReturn => [Bytes.carriageReturn]
  | endOfText => []

/-- Does the byte end a line? -/
def isBreak (b : UInt8) : Bool :=
  b = Bytes.lineFeed || b = Bytes.carriageReturn

/-- **One line taken off a text**, with what ended it and what follows. -/
structure Cut where
  /-- The line, without its terminator. -/
  line : Bytes
  /-- What ended it. -/
  terminator : Terminator
  /-- What follows. -/
  rest : Bytes
deriving DecidableEq, Repr

/-- How far a cut moves on in its text. -/
def Cut.advance (cut : Cut) : Nat :=
  cut.line.length + cut.terminator.bytes.length

/-- **Takes the first line off a text**, if it is decided where it ends. With `ended` the text is
complete; otherwise more may follow it. -/
def cut? (ended : Bool) (text : Bytes) : Option Cut :=
  match text.span fun b => !isBreak b with
  | (line, []) => if ended && !line.isEmpty then some ⟨line, .endOfText, []⟩ else none
  | (line, b :: rest) =>
    if b = Bytes.lineFeed then some ⟨line, .lineFeed, rest⟩
    else
      match rest with
      | [] => if ended then some ⟨line, .carriageReturn, []⟩ else none
      | c :: rest' =>
        if c = Bytes.lineFeed then some ⟨line, .returnFeed, rest'⟩
        else some ⟨line, .carriageReturn, rest⟩

/-- One pass of `lines`: `done` holds the finished lines and `line` the bytes of the current one,
both reversed; after a carriage return a line feed ends nothing more. -/
def linesLoop : (done : List Bytes) → (line : Bytes) → (afterReturn : Bool) → Bytes → List Bytes
  | done, line, _, [] => (if line.isEmpty then done else line.reverse :: done).reverse
  | done, line, afterReturn, b :: rest =>
    if b = Bytes.lineFeed then
      if afterReturn then linesLoop done line false rest
      else linesLoop (line.reverse :: done) [] false rest
    else if b = Bytes.carriageReturn then linesLoop (line.reverse :: done) [] true rest
    else linesLoop done (b :: line) false rest

/-- **The lines of a text**, without their terminators. -/
def lines (text : Bytes) : List Bytes :=
  linesLoop [] [] false text

end Linewise

import Linewise.Duration
import Linewise.Run
import Linewise.Size
import Linewise.Text.Width

/-!
# Run summaries

After a run the user sees what was read, what was written and how long it took.

## Main definitions

* `Summary.block` — a name as it is shown, all its lines of equal width.
* `summary` — the text of a summary.
-/

namespace Linewise

namespace Summary

/-- The lines of a text, each filled with spaces to the width of the widest one. -/
def alignLines (text : Bytes) : Bytes :=
  let lines := Bytes.splitOn [Bytes.lineFeed] text
  let widest := (lines.map displayWidth).foldl max 0
  Bytes.join [Bytes.lineFeed]
    (lines.map fun line => line ++ Bytes.spaces (widest - displayWidth line))

/-- **A name as it is shown**: a tab as four spaces, one terminator for every line, and lines of
equal width. -/
def block (text : Bytes) : Bytes :=
  alignLines (Bytes.replaceAll (utf8 "\x0d\x0a") (utf8 "\n")
    (Bytes.replaceAll (utf8 "\t") (Bytes.spaces 4) text))

/-- The sign in front of a summary. -/
def doneIcon : Bytes := utf8 (String.singleton (Char.ofNat 0xF0752))

/-- The sign between input and output. -/
def arrowIcon : Bytes := utf8 (String.singleton (Char.ofNat 0xF0B2A))

/-- The line on what was read and written, given the text of the time it took. -/
def countsLine (stats : Stats) (elapsed : Bytes) : Bytes :=
  utf8 "  " ++ Bytes.decimal stats.linesRead ++ utf8 " lines read, "
    ++ Bytes.decimal stats.linesWritten ++ utf8 " written (" ++ sizeText stats.bytesWritten
    ++ utf8 ") in " ++ elapsed ++ [Bytes.lineFeed]

/-- The line on what was left out, if anything was. -/
def skippedLine (stats : Stats) : Bytes :=
  if 0 < stats.linesSkipped then
    utf8 "  " ++ Bytes.decimal stats.linesSkipped ++ utf8 " lines skipped (no binary digits)\n"
  else []

/-- The text of a summary, given the text of the time the run took. -/
def withElapsed (stats : Stats) (input output elapsed : Bytes) : Bytes :=
  Bytes.join [Bytes.space] [doneIcon, block stats.transform, block input, arrowIcon, block output]
    ++ [Bytes.lineFeed] ++ countsLine stats elapsed ++ skippedLine stats

end Summary

/-- **The summary of a run**, its time rounded to microseconds. -/
def summary (stats : Stats) (input output : Bytes) : Bytes :=
  Summary.withElapsed stats input output
    (Duration.text (Duration.round Duration.microsecond stats.duration))

end Linewise

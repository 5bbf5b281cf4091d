import Linewise.Fault
import Linewise.Text.Blank
import Linewise.Text.Lowercase

/-!
# Policies for lines without binary digits

A run that decodes binary digits can meet a line that has none. The policy says
whether such a line ends the run, is left out, or counts as zero.

## Main definitions

* `Policy` — what to do with such a line.
* `Policy.ofWord` — the policy of an exact word; any other text means `fail`.
* `Policy.parse` — reads a policy that a user wrote.
-/

namespace Linewise

/-- **What a run does with a line that has no binary digit.** -/
inductive Policy where
  /-- End the run at the line. -/
  | fail
  /-- Write nothing for the line. -/
  | skip
  /-- Write the number zero for the line. -/
  | zero
deriving DecidableEq, Repr

namespace Policy

/-- The word for a policy. -/
def word : Policy → Bytes
  | fail => utf8 "fail"
  | skip => utf8 "skip"
  | zero => utf8 "zero"

/-- The policy with exactly this word; any other text, whatever its case, means `fail`. -/
def ofWord (text : Bytes) : Policy :=
  if text = skip.word then skip
  else if text = zero.word then zero
  else fail

/-- Reads a policy: case and white space around the word do not matter, and nothing at all
means `fail`. -/
def parse (text : Bytes) : Except Fault Policy :=
  let word := Bytes.toLower (Bytes.trim text)
  if word.isEmpty || word = fail.word then .ok fail
  else if word = skip.word then .ok skip
  else if word = zero.word then .ok zero
  else .error (.unknownPolicy text)

end Policy

end Linewise

import Linewise.Text.Lowercase
import Linewise.Text.Quoted

/-!
# Diagnostics

A run reports on single lines through log entries. A logger keeps the entries
that are at least as severe as its level and drops the others; the text form of
an entry is one line of `key=value` pairs.

## Main definitions

* `Log.Level` — severities, most severe first.
* `Log.Entry` — one report.
* `Log.keep` — what a logger of a given level keeps.
* `Log.render` — the text form.
-/

namespace Linewise.Log

/-- **Severities**, most severe first. -/
inductive Level where
  /-- The process cannot go on. -/
  | panic
  /-- The process ends. -/
  | fatal
  /-- Something failed. -/
  | error
  /-- Something deserves a look. -/
  | warning
  /-- News. -/
  | info
  /-- Details of a run. -/
  | debug
  /-- Details of every step. -/
  | trace
deriving DecidableEq, Repr

namespace Level

/-- The position of a level: a smaller one is more severe. -/
def rank : Level → Nat
  | panic => 0
  | fatal => 1
  | error => 2
  | warning => 3
  | info => 4
  | debug => 5
  | trace => 6

/-- The name of a level. -/
def name : Level → Bytes
  | panic => utf8 "panic"
  | fatal => utf8 "fatal"
  | error => utf8 "error"
  | warning => utf8 "warning"
  | info => utf8 "info"
  | debug => utf8 "debug"
  | trace => utf8 "trace"

/-- The levels, most severe first. -/
def all : List Level :=
  [panic, fatal, error, warning, info, debug, trace]

/-- Reads a level by its name in any case; a warning has a short name too. -/
def parse? (text : Bytes) : Option Level :=
  if Bytes.toLower text = utf8 "warn" then some warning
  else all.find? fun level => level.name = Bytes.toLower text

/-- The level of a logger that is told to use the level named by a text: `info` when the text
names none. -/
def ofName (text : Bytes) : Level :=
  (parse? text).getD info

end Level

/-- **One report**: a message with named values. -/
structure Entry where
  /-- How severe it is. -/
  level : Level
  /-- What happened. -/
  message : Bytes
  /-- Named values, in the order they were added. -/
  fields : List (Bytes × Bytes)
deriving DecidableEq, Repr

/-- Does a logger of this level keep the entry? -/
def keeps (level : Level) (entry : Entry) : Bool :=
  entry.level.rank ≤ level.rank

/-- What a logger of a given level keeps. -/
def keep (level : Level) (entries : List Entry) : List Entry :=
  entries.filter (keeps level)

/-- A character that may stand in a value without quotes. -/
def isPlain (c : Char) : Bool :=
  c.isAlphanum || c = '-' || c = '.' || c = '_' || c = '/' || c = '@' || c = '^' || c = '+'

/-- A value as it stands after `=`: quoted unless every character is plain. -/
def value (text : Bytes) : Bytes :=
  if (shownChars text).all isPlain then text else quoted text

/-- One `key=value` pair. -/
def pair (key text : Bytes) : Bytes :=
  key ++ ascii '=' :: value text

/-- **One line of text** for an entry: level and message first, then the fields by their
names. -/
def Entry.render (entry : Entry) : Bytes :=
  let named := entry.fields.mergeSort fun f g => Bytes.le f.1 g.1
  let message := if entry.message.isEmpty then [] else [pair (utf8 "msg") entry.message]
  Bytes.join [Bytes.space]
      (pair (utf8 "level") entry.level.name :: message ++ named.map fun f => pair f.1 f.2)
    ++ [Bytes.lineFeed]

/-- The text form of a list of entries. -/
def render (entries : List Entry) : Bytes :=
  entries.flatMap Entry.render

end Linewise.Log

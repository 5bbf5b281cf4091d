import Linewise.Log
import Linewise.Policy
import Linewise.Registry
import Linewise.Yaml.Writer

/-!
# Settings

The settings of the program: which transformation runs by default, what becomes
of lines without digits, the bound on a line, the default paths, the log level
and the file for metrics.

## Main definitions

* `Settings` — the seven settings.
* `Settings.initial` — the settings when nothing is set.
* `Settings.Key` — the names of the settings.
* `Settings.validate` — refuses settings that no run could use.
* `Settings.render` — the settings as a document.
-/

namespace Linewise

/-- **The settings of the program.** -/
structure Settings where
  /-- The transformation that runs when none is named. -/
  defaultTransform : Bytes
  /-- What becomes of a line without binary digits. -/
  onEmpty : Bytes
  /-- The bound on the length of a line; zero for none. -/
  maxLineBytes : Int
  /-- The path read when none is given. -/
  input : Bytes
  /-- The path written when none is given. -/
  output : Bytes
  /-- The level of the log. -/
  logLevel : Bytes
  /-- Where the metrics of a run go; empty for nowhere. -/
  metricsFile : Bytes
deriving DecidableEq, Repr

namespace Settings

/-- **The settings when nothing is set.** -/
def initial : Settings where
  defaultTransform := utf8 "binary"
  onEmpty := utf8 "fail"
  maxLineBytes := 0
  input := utf8 "codes.txt"
  output := utf8 "output.txt"
  logLevel := utf8 "info"
  metricsFile := []

/-- Settings with nothing in them. -/
def blank : Settings where
  defaultTransform := []
  onEmpty := []
  maxLineBytes := 0
  input := []
  output := []
  logLevel := []
  metricsFile := []

/-- **The names of the settings.** -/
inductive Key where
  /-- The default transformation. -/
  | defaultTransform
  /-- The policy for lines without digits. -/
  | onEmpty
  /-- The bound on a line. -/
  | maxLineBytes
  /-- The default input. -/
  | input
  /-- The default output. -/
  | output
  /-- The log level. -/
  | logLevel
  /-- The file for metrics. -/
  | metricsFile
deriving DecidableEq, Repr

namespace Key

/-- The settings of the transform section, in order. -/
def ofSection : List Key :=
  [defaultTransform, onEmpty, maxLineBytes, input, output]

/-- The settings outside of it, in order. -/
def ofTop : List Key :=
  [logLevel, metricsFile]

/-- All settings, in order. -/
def all : List Key :=
  ofSection ++ ofTop

/-- The name of a setting where it stands. -/
def name : Key → Bytes
  | defaultTransform => utf8 "default"
  | onEmpty => utf8 "on_empty"
  | maxLineBytes => utf8 "max_line_bytes"
  | input => utf8 "input"
  | output => utf8 "output"
  | logLevel => utf8 "log_level"
  | metricsFile => utf8 "metrics_file"

/-- The name of the section that holds the settings of a run. -/
def sectionName : Bytes := utf8 "transform"

/-- The names on the way to a setting. -/
def path (key : Key) : List Bytes :=
  if ofSection.contains key then [sectionName, key.name] else [key.name]

/-- The full name of a setting, as messages give it. -/
def fullName (key : Key) : Bytes :=
  Bytes.join (utf8 ".") key.path

end Key

/-- **The value of one setting.** -/
inductive Entry where
  /-- A text. -/
  | text (s : Bytes)
  /-- A number. -/
  | number (n : Int)
deriving DecidableEq, Repr

/-- The value of a setting. -/
def get (settings : Settings) : Key → Entry
  | .defaultTransform => .text settings.defaultTransform
  | .onEmpty => .text settings.onEmpty
  | .maxLineBytes => .number settings.maxLineBytes
  | .input => .text settings.input
  | .output => .text settings.output
  | .logLevel => .text settings.logLevel
  | .metricsFile => .text settings.metricsFile

/-- Sets a setting; a value of the wrong sort changes nothing. -/
def set (settings : Settings) : Key → Entry → Settings
  | .defaultTransform, .text s => { settings with defaultTransform := s }
  | .onEmpty, .text s => { settings with onEmpty := s }
  | .maxLineBytes, .number n => { settings with maxLineBytes := n }
  | .input, .text s => { settings with input := s }
  | .output, .text s => { settings with output := s }
  | .logLevel, .text s => { settings with logLevel := s }
  | .metricsFile, .text s => { settings with metricsFile := s }
  | _, _ => settings

/-- A failure of one setting. -/
def refuse (key : Key) (cause : Fault) : Option Fault :=
  some (.noted key.fullName cause)

/-- **Why no run could use the settings**, if none could: the default transformation has to be
registered, the policy and the log level have to be known words, and the bound may not be
negative. No log level at all is fine. -/
def validate (settings : Settings) (registry : Registry) : Option Fault :=
  match registry.get settings.defaultTransform, Policy.parse settings.onEmpty with
  | .error cause, _ => refuse .defaultTransform cause
  | _, .error cause => refuse .onEmpty cause
  | .ok _, .ok _ =>
    if settings.maxLineBytes < 0 then
      refuse .maxLineBytes (.negativeLimit settings.maxLineBytes)
    else if settings.logLevel.isEmpty || (Log.Level.parse? settings.logLevel).isSome then none
    else refuse .logLevel (.unknownLevel settings.logLevel)

/-- The entry of a setting in a document; an empty text and zero have none. -/
def item? (settings : Settings) (key : Key) : Option Yaml.Item :=
  match settings.get key with
  | .text s => if s.isEmpty then none else some (.text key.name s)
  | .number n => if n = 0 then none else some (.int key.name n)

/-- **The settings as a document.** -/
def render (settings : Settings) : Bytes :=
  Yaml.render
    [.nested Key.sectionName (Key.ofSection.filterMap settings.item?),
      .top (Key.ofTop.filterMap settings.item?)]

end Settings

end Linewise

import Linewise.BuildInfo
import Linewise.Command.Flag
import Linewise.Text.Lowercase

/-!
# Commands

The commands of the program: their names, what they say about themselves, their
flags and how many arguments they take.

## Main definitions

* `Command` — the commands; the program itself is one.
* `Command.flags` — all flags a command knows.
* `Command.find` — the command that a command line names.
* `Command.similar` — commands of similar names.
-/

namespace Linewise

/-- **The commands.** -/
inductive Command where
  /-- The program itself. -/
  | program
  /-- Decodes binary digits. -/
  | decode
  /-- Squeezes blanks. -/
  | squeeze
  /-- Runs a transformation by name. -/
  | run
  /-- Lists the transformations. -/
  | list
  /-- Prints the settings. -/
  | config
  /-- Prints what the build is known by. -/
  | version
  /-- Explains a command. -/
  | help
  /-- Completes command lines in a shell. -/
  | completion
deriving DecidableEq, Repr

namespace Command

/-- The commands below the program, in the order in which they were added to it. -/
def added : List Command :=
  [decode, squeeze, run, list, config, version, help, completion]

/-- The commands below the program, by name. -/
def byName : List Command :=
  [completion, config, decode, help, list, run, squeeze, version]

/-- The name of a command. -/
def name : Command → Bytes
  | program => BuildInfo.program
  | decode => utf8 "decode"
  | squeeze => utf8 "squeeze"
  | run => utf8 "run"
  | list => utf8 "list"
  | config => utf8 "config"
  | version => utf8 "version"
  | help => utf8 "help"
  | completion => utf8 "completion"

/-- The names of a command on the way from the program. -/
def path : Command → Bytes
  | program => program.name
  | command => program.name ++ [Bytes.space] ++ command.name

/-- Other names of a command. -/
def aliases : Command → List Bytes
  | squeeze => [utf8 "remove-spaces"]
  | _ => []

/-- What a command line shows after the name of a command. -/
def parameters : Command → Bytes
  | decode | squeeze | run => utf8 " [input] [output] [flags]"
  | list | config | version => utf8 " [flags]"
  | help => utf8 " [command] [flags]"
  | program | completion => []

/-- One line on a command. -/
def short : Command → Bytes
  | program => utf8 "Line-by-line cleanup of machine code listings and other text files"
  | decode => utf8 "Decode the binary digits of each line into a decimal number"
  | squeeze => utf8 "Collapse runs of whitespace in each line into a single space"
  | run => utf8 "Run a transformation chosen by flag or config"
  | list => utf8 "List available transformations"
  | config => utf8 "Print the effective configuration"
  | version => utf8 "Print version information"
  | help => utf8 "Help about any command"
  | completion => utf8 "Generate the autocompletion script for the specified shell"

/-- What a command says about itself. -/
def long : Command → Bytes
  | decode => utf8 <|
    "Keeps only the 0 and 1 characters of every input line, reads them as an\n"
      ++ "unsigned binary number (most significant bit first, no size limit) and writes\n"
      ++ "its decimal value as one output line.\n\n"
      ++ "A line without any binary digit stops the run unless --on-empty is skip or zero.\n"
      ++ "Paths default to codes.txt and output.txt; \"-\" means stdin or stdout."
  | squeeze => utf8 <|
    "Rewrites every input line with leading and trailing whitespace removed and\n"
      ++ "each run of blanks between words replaced by one space. Every input line\n"
      ++ "produces exactly one output line; an all-blank line becomes an empty line.\n"
      ++ "A byte order mark at the start of the input is dropped, not copied.\n\n"
      ++ "Paths default to codes.txt and output.txt; \"-\" means stdin or stdout."
  | run => utf8 <|
    "Runs the transformation named by --transform, or transform.default from the config "
      ++ "when the flag is not given."
  | list => utf8 <|
    "List the line transformations codeclean can run. "
      ++ "The configured default is marked with '*'."
  | config => utf8 <|
    "Print the configuration after layering defaults, the grove.yml 'codeclean' extension, "
      ++ "--config-file and CODECLEAN_* environment variables."
  | help => utf8 <|
    "Help provides help for any command in the application.\n"
      ++ "Simply type codeclean help [path to command] for full details."
  | completion => utf8 <|
    "Generate the autocompletion script for codeclean for the specified shell.\n"
      ++ "See each sub-command's help for details on how to use the generated script."
  | command => command.short

/-- Sample command lines. -/
def examples : Command → List Bytes
  | decode => ["codeclean decode", "codeclean decode machine_codes.txt values.txt",
      "assembler | codeclean decode --on-empty=skip - -"].map utf8
  | _ => []

/-- Does the command do something of its own, besides being explained? -/
def isRunnable : Command → Bool
  | program | completion => false
  | _ => true

/-- The most arguments a command takes; `none` for any number. -/
def mostArguments? : Command → Option Nat
  | decode | squeeze | run => some 2
  | list | config | version | completion => some 0
  | program | help => none

/-- The flags that every command knows. -/
def sharedFlags : List Flag :=
  [(Flag.text "config" "Path to grove.yml config file").withLetter 'c',
    Flag.switch "json" "Output in JSON format",
    (Flag.switch "verbose" "Enable verbose logging").withLetter 'v']

/-- The flag that asks for an explanation. -/
def helpFlag (command : Command) : Flag :=
  { name := utf8 "help", letter := some (ascii 'h'), sort := .switch,
    usage := utf8 "help for " ++ command.name }

/-- The flag for a document with settings. -/
def documentFlag : Flag :=
  Flag.text "config-file" "YAML file with codeclean settings (layered over grove.yml)"

/-- The flags of the commands that run a transformation. -/
def runFlags : List Flag :=
  [documentFlag,
    Flag.text "log-level" "Level for per-line diagnostics on stderr. Overrides config.",
    Flag.number "max-line-bytes"
      "Longest accepted input line in bytes, 0 for no limit. Overrides config.",
    Flag.text "metrics-file" "Write run metrics to this file in Prometheus textfile format",
    Flag.text "on-empty"
      "What to do with a line that has no binary digits: fail, skip or zero. Overrides config.",
    Flag.switch "quiet" "Do not print the run summary"]

/-- The flags of a command itself, by name. -/
def ownFlags : Command → List Flag
  | decode | squeeze => runFlags
  | run => runFlags ++
      [(Flag.text "transform"
        "Transformation to run (see 'codeclean list'). Overrides config.").withLetter 't']
  | list | version => [Flag.switch "json" "Output in JSON format"]
  | config => [documentFlag]
  | program => sharedFlags
  | help | completion => []

/-- The flags that a command has from the program: a flag of its own hides one of the same
name. -/
def inheritedFlags (command : Command) : List Flag :=
  if command = program then []
  else sharedFlags.filter fun flag => (Flags.named? command.ownFlags flag.name).isNone

/-- **All flags that a command knows.** -/
def flags (command : Command) : List Flag :=
  command.helpFlag :: command.ownFlags ++ command.inheritedFlags

/-- Does the command answer to a name? -/
def answersTo (command : Command) (word : Bytes) : Bool :=
  command.name = word || command.aliases.contains word

/-- Is the flag of this name, if there is one, complete without a value? -/
def isSwitch (flag : Option Flag) : Bool :=
  flag.any fun flag => flag.sort = .switch

/-- Does an argument look as if the next one were its value? The flags of the program decide; a
flag they do not know seems to take one. -/
def takesNext (argument : Bytes) : Bool :=
  !argument.contains (ascii '=') &&
    match argument with
    | 0x2D :: 0x2D :: name => !isSwitch (Flags.named? sharedFlags name)
    | [0x2D, letter] => !isSwitch (Flags.lettered? sharedFlags letter)
    | _ => false

/-- The arguments of a command line that are not flags, as far as can be told before the command is
known. A value at the very end is not looked at. -/
def words : List Bytes → List Bytes
  | [] => []
  | argument :: rest =>
    if argument = Flags.terminator then []
    else if takesNext argument then
      match rest with
      | _ :: next :: more => words (next :: more)
      | _ => []
    else if argument.isEmpty || argument.head? = some (ascii '-') then words rest
    else argument :: words rest

/-- The command line without the first occurrence of a word that is not the value of a flag. -/
def without (word : Bytes) : List Bytes → List Bytes
  | [] => []
  | argument :: rest =>
    if argument = Flags.terminator then argument :: rest
    else if takesNext argument then
      match rest with
      | value :: more => argument :: value :: without word more
      | [] => [argument]
    else if argument = word then rest
    else argument :: without word rest

/-- One row of the table of distances: from the beginnings of one text to a longer and longer
beginning of the other. `corner` is the distance above and to the left. -/
def distanceRow (b : UInt8) : (corner left : Nat) → (text : Bytes) → (above : List Nat) → List Nat
  | corner, left, c :: text, up :: above =>
    let here := if b = c then corner else 1 + min (min up left) corner
    here :: distanceRow b up here text above
  | _, _, _, _ => []

/-- The number of bytes to insert, remove or replace to make one text into another. -/
def distance (a b : Bytes) : Nat :=
  let rows := b.foldl (fun (row : List Nat) byte =>
    (row.headD 0 + 1) :: distanceRow byte (row.headD 0) (row.headD 0 + 1) a row.tail)
    (List.range (a.length + 1))
  rows.getLastD 0

/-- The greatest distance of a similar name. -/
def similarDistance : Nat := 2

/-- **The commands of similar names**: few changes away, or beginning with the word; case does not
matter. -/
def similar (word : Bytes) : List Bytes :=
  let word := Bytes.toLower word
  ((added.filter (· ≠ help)).map name).filter fun name =>
    distance word name ≤ similarDistance || word.isPrefixOf name

/-- **The command that a command line names**, and the command line without its name. -/
def find (arguments : List Bytes) : Except UsageError (Command × List Bytes) :=
  match words arguments with
  | [] => .ok (program, arguments)
  | word :: _ =>
    match added.find? fun command => command.answersTo word with
    | some command => .ok (command, without word arguments)
    | none => .error (.unknownCommand word program.path (similar word))

/-- Refuses more arguments than the command takes. -/
def refuseArguments (command : Command) (arguments : List Bytes) : Option UsageError :=
  match command.mostArguments?, arguments with
  | none, _ | _, [] => none
  | some 0, argument :: _ => some (.unknownCommand argument command.path [])
  | some most, arguments =>
    if most < arguments.length then some (.tooManyArguments most arguments.length) else none

end Command

end Linewise

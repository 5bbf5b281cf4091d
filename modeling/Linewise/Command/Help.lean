import Linewise.Command

/-!
# Explanations of commands

An explanation says what a command does, how it is called, and what flags it
knows.

## Main definitions

* `Help.flagLines` — flags with their explanations, in two columns.
* `Help.usage` — how a command is called.
* `Help.text` — the whole explanation.
* `Help.unknownTopic` — the answer to a request about something else.
-/

namespace Linewise.Help

/-- A flag as the left column shows it. -/
def flagHead (flag : Flag) : Bytes :=
  let dashes := match flag.letter with
    | some letter => utf8 "  -" ++ letter :: utf8 ", --"
    | none => utf8 "      --"
  let value := match flag.sort with
    | .switch => []
    | .text => utf8 " string"
    | .number => utf8 " int"
  dashes ++ flag.name ++ value

/-- **Flags with their explanations**, by name, the explanations in one column. -/
def flagLines (flags : List Flag) : Bytes :=
  let flags := flags.mergeSort fun f g => Bytes.le f.name g.name
  let widest := (flags.map fun flag => (flagHead flag).length).foldl max 0
  flags.flatMap fun flag =>
    let head := flagHead flag
    head ++ Bytes.spaces (widest - head.length + 3) ++ flag.usage ++ [Bytes.lineFeed]

/-- A part of an explanation: a heading and lines; one without lines is left out. -/
def part (heading : String) (lines : Bytes) : Bytes :=
  if lines.isEmpty then [] else utf8 "\n" ++ utf8 heading ++ utf8 ":\n" ++ lines

/-- The width of the column of names. -/
def nameWidth : Nat := 12

/-- A name with one line on it. -/
def row (name short : Bytes) : Bytes :=
  utf8 "  " ++ name ++ Bytes.spaces (nameWidth - name.length) ++ short ++ [Bytes.lineFeed]

/-- The shells for which command lines can be completed. -/
def shells : List Bytes :=
  ["bash", "fish", "powershell", "zsh"].map utf8

/-- What stands below a command, with one line on each. -/
def below : Command → List (Bytes × Bytes)
  | .program => Command.byName.map fun command => (command.name, command.short)
  | .completion => shells.map fun shell =>
      (shell, utf8 "Generate the autocompletion script for " ++ shell)
  | _ => []

/-- **How a command is called**, given the flags of its own to show. -/
def usage (command : Command) (own : List Flag) : Bytes :=
  let rows := below command
  let call := if command.isRunnable then
      utf8 "  " ++ command.path ++ command.parameters ++ [Bytes.lineFeed]
    else utf8 "  " ++ command.path ++ utf8 " [command]\n"
  let aliases := if command.aliases.isEmpty then []
    else utf8 "  " ++ Bytes.join (utf8 ", ") (command.name :: command.aliases) ++ [Bytes.lineFeed]
  let examples := command.examples.flatMap fun line => utf8 "  " ++ line ++ [Bytes.lineFeed]
  let footer := if rows.isEmpty then []
    else utf8 "\nUse \"" ++ command.path
      ++ utf8 " [command] --help\" for more information about a command.\n"
  utf8 "Usage:\n" ++ call ++ part "Aliases" aliases ++ part "Examples" examples
    ++ part "Available Commands" (rows.flatMap fun entry => row entry.1 entry.2)
    ++ part "Flags" (flagLines own) ++ part "Global Flags" (flagLines command.inheritedFlags)
    ++ footer

/-- **The explanation of a command.** -/
def text (command : Command) : Bytes :=
  command.long ++ utf8 "\n\n" ++ usage command (command.helpFlag :: command.ownFlags)

/-- Can a text stand between backquotes? -/
def fitsBackquotes (text : Bytes) : Bool :=
  (runes text).all fun
    | .stray _ => false
    | .char c =>
      c.toNat ≠ 0xFEFF && c.toNat ≠ 0x7F && c ≠ Char.ofNat 0x60 && (0x20 ≤ c.toNat || c = '\t')

/-- A word between backquotes if it fits there, else between double quotes. -/
def quotedWord (word : Bytes) : Bytes :=
  if fitsBackquotes word then 0x60 :: word ++ [0x60] else quoted word

/-- **The answer to a request about something that is no command.** -/
def unknownTopic (words : List Bytes) : Bytes :=
  utf8 "Unknown help topic [" ++ Bytes.join [Bytes.space] (words.map quotedWord) ++ utf8 "]\n"
    ++ usage .program Command.program.ownFlags

end Linewise.Help

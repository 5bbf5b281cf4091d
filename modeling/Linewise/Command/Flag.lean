import Linewise.Integer

/-!
# Flags

A flag has a long name and perhaps a letter. A switch needs no value; any other
flag takes what follows an equals sign, what follows its letter, or the next
argument. Flags and other arguments may be mixed, and two dashes end the flags.
Where a flag is given twice the last one counts.

## Main definitions

* `Flag` — a flag.
* `UsageError` — what can be wrong with a command line.
* `Flags.parse` — the flags and the other arguments of a command line.
* `Flags.Given` — what was given.
-/

namespace Linewise

/-- What a flag takes. -/
inductive Flag.Sort where
  /-- Nothing, or a truth value after an equals sign. -/
  | switch
  /-- A text. -/
  | text
  /-- A number. -/
  | number
deriving DecidableEq, Repr

/-- **A flag.** -/
structure Flag where
  /-- Its long name. -/
  name : Bytes
  /-- The letter it can be given by. -/
  letter : Option UInt8 := none
  /-- What it takes. -/
  sort : Flag.Sort
  /-- One line on what it does. -/
  usage : Bytes
deriving DecidableEq, Repr

/-- A switch, without a letter. -/
def Flag.switch (name usage : String) : Flag :=
  { name := utf8 name, sort := .switch, usage := utf8 usage }

/-- A flag that takes a text, without a letter. -/
def Flag.text (name usage : String) : Flag :=
  { name := utf8 name, sort := .text, usage := utf8 usage }

/-- A flag that takes a number, without a letter. -/
def Flag.number (name usage : String) : Flag :=
  { name := utf8 name, sort := .number, usage := utf8 usage }

/-- The same flag with a letter. -/
def Flag.withLetter (flag : Flag) (letter : Char) : Flag :=
  { flag with letter := some (ascii letter) }

/-- A flag as messages show it. -/
def Flag.shown (flag : Flag) : Bytes :=
  match flag.letter with
  | some letter => ascii '-' :: letter :: utf8 ", --" ++ flag.name
  | none => utf8 "--" ++ flag.name

/-- **What can be wrong with a command line.** -/
inductive UsageError where
  /-- No flag has this name. -/
  | unknownFlag (name : Bytes)
  /-- No flag has this letter, the first of a group. -/
  | unknownLetter (letter : UInt8) (group : Bytes)
  /-- An argument begins like a flag and is none. -/
  | malformedFlag (argument : Bytes)
  /-- The value of a flag is missing. -/
  | missingValue (argument : Bytes)
  /-- The value of a flag that is given by its letter is missing. -/
  | missingLetterValue (letter : UInt8) (group : Bytes)
  /-- The value of a switch is no truth value. -/
  | badSwitch (flag : Flag) (value : Bytes)
  /-- The value of a flag is no number. -/
  | badNumber (flag : Flag) (value : Bytes) (error : Integer.Error)
  /-- There is no such command; these have similar names. -/
  | unknownCommand (name parent : Bytes) (similar : List Bytes)
  /-- There are too many arguments. -/
  | tooManyArguments (most received : Nat)
deriving DecidableEq, Repr

namespace UsageError

/-- A byte between single quotes, as the character of the same number. -/
def quotedLetter (letter : UInt8) : Bytes :=
  let c := Char.ofNat letter.toNat
  let inside :=
    if c = '\'' then utf8 "\\'"
    else if c = '"' then [ascii '"']
    else Quoted.escape (.char c)
  ascii '\'' :: inside ++ [ascii '\'']

/-- The beginning of a message on a value. -/
def badValue (flag : Flag) (value reason : Bytes) : Bytes :=
  utf8 "invalid argument " ++ quoted value ++ utf8 " for " ++ quoted flag.shown
    ++ utf8 " flag: " ++ reason

/-- **The wording of an error.** -/
def message : UsageError → Bytes
  | unknownFlag name => utf8 "unknown flag: --" ++ name
  | unknownLetter letter group =>
    utf8 "unknown shorthand flag: " ++ quotedLetter letter ++ utf8 " in -" ++ group
  | malformedFlag argument => utf8 "bad flag syntax: " ++ argument
  | missingValue argument => utf8 "flag needs an argument: " ++ argument
  | missingLetterValue letter group =>
    utf8 "flag needs an argument: " ++ quotedLetter letter ++ utf8 " in -" ++ group
  | badSwitch flag value =>
    badValue flag value
      (utf8 "strconv.ParseBool: parsing " ++ quoted value ++ utf8 ": invalid syntax")
  | badNumber flag value error => badValue flag value (error.message value)
  | unknownCommand name parent similar =>
    utf8 "unknown command " ++ quoted name ++ utf8 " for " ++ quoted parent
      ++ if similar.isEmpty then []
        else utf8 "\n\nDid you mean this?\n"
          ++ similar.flatMap fun other => utf8 "\t" ++ other ++ [Bytes.lineFeed]
  | tooManyArguments most received =>
    utf8 "accepts at most " ++ Bytes.ofNat most ++ utf8 " arg(s), received "
      ++ Bytes.ofNat received

end UsageError

namespace Flags

/-- **The value of a flag.** -/
inductive Value where
  /-- Of a switch. -/
  | switch (on : Bool)
  /-- A text. -/
  | text (s : Bytes)
  /-- A number. -/
  | number (n : Int)
deriving DecidableEq, Repr

/-- **What was given** on a command line. -/
structure Given where
  /-- The flags in order, with their values. -/
  values : List (Bytes × Value) := []
  /-- The other arguments, in order. -/
  arguments : List Bytes := []
deriving DecidableEq, Repr

/-- The value that a flag was given last. -/
def Given.value? (given : Given) (name : String) : Option Value :=
  (given.values.reverse.find? fun entry => entry.1 = utf8 name).map Prod.snd

/-- The text that a flag was given last. -/
def Given.text? (given : Given) (name : String) : Option Bytes :=
  match given.value? name with
  | some (.text s) => some s
  | _ => none

/-- The number that a flag was given last. -/
def Given.number? (given : Given) (name : String) : Option Int :=
  match given.value? name with
  | some (.number n) => some n
  | _ => none

/-- Is a switch on? -/
def Given.isOn (given : Given) (name : String) : Bool :=
  given.value? name = some (.switch true)

/-- The words for true. -/
def trueWords : List Bytes :=
  ["1", "t", "T", "TRUE", "true", "True"].map utf8

/-- The words for false. -/
def falseWords : List Bytes :=
  ["0", "f", "F", "FALSE", "false", "False"].map utf8

/-- The value that a text is for a flag. -/
def valueOf (flag : Flag) (text : Bytes) : Except UsageError (Bytes × Value) :=
  match flag.sort with
  | .text => .ok (flag.name, .text text)
  | .switch =>
    if trueWords.contains text then .ok (flag.name, .switch true)
    else if falseWords.contains text then .ok (flag.name, .switch false)
    else .error (.badSwitch flag text)
  | .number =>
    match Integer.parse text with
    | .ok n => .ok (flag.name, .number n)
    | .error error => .error (.badNumber flag text error)

/-- What one argument gave, and whether it took the next one as a value. -/
abbrev Taken := List (Bytes × Value) × Bool

/-- The flag of a name. -/
def named? (flags : List Flag) (name : Bytes) : Option Flag :=
  flags.find? fun flag => flag.name = name

/-- The flag of a letter. -/
def lettered? (flags : List Flag) (letter : UInt8) : Option Flag :=
  flags.find? fun flag => flag.letter = some letter

/-- A flag given by its long name; `inside` is what follows the dashes. -/
def long (flags : List Flag) (next : Option Bytes) (inside : Bytes) : Except UsageError Taken :=
  let name := inside.takeWhile (· ≠ ascii '=')
  let argument := utf8 "--" ++ inside
  if inside.head?.any fun b => b = ascii '-' || b = ascii '=' then
    .error (.malformedFlag argument)
  else
    match named? flags name, next with
    | none, _ => .error (.unknownFlag name)
    | some flag, next =>
      if name.length < inside.length then
        (valueOf flag (inside.drop (name.length + 1))).map fun value => ([value], false)
      else if flag.sort = .switch then .ok ([(flag.name, .switch true)], false)
      else
        match next with
        | some text => (valueOf flag text).map fun value => ([value], true)
        | none => .error (.missingValue argument)

/-- The beginning of a group of letters that is passed over. -/
def ignoredGroup : Bytes := utf8 "test."

/-- Flags given by their letters, all in one group. -/
def short (flags : List Flag) (next : Option Bytes) : (group : Bytes) → Except UsageError Taken
  | [] => .ok ([], false)
  | letter :: more =>
    if ignoredGroup.isPrefixOf (letter :: more) then .ok ([], false)
    else
      match lettered? flags letter with
      | none => .error (.unknownLetter letter (letter :: more))
      | some flag =>
        if more.head? = some (ascii '=') && 1 < more.length then
          (valueOf flag more.tail).map fun value => ([value], false)
        else if flag.sort = .switch then
          match short flags next more with
          | .error error => .error error
          | .ok (values, took) => .ok ((flag.name, .switch true) :: values, took)
        else if !more.isEmpty then (valueOf flag more).map fun value => ([value], false)
        else
          match next with
          | some text => (valueOf flag text).map fun value => ([value], true)
          | none => .error (.missingLetterValue letter [letter])

/-- Two dashes, after which nothing is a flag. -/
def terminator : Bytes := utf8 "--"

/-- Does an argument begin like a flag? A single dash does not. -/
def isFlag (argument : Bytes) : Bool :=
  argument.head? = some (ascii '-') && 1 < argument.length

/-- What an argument that begins like a flag gives. -/
def take (flags : List Flag) (next : Option Bytes) (argument : Bytes) : Except UsageError Taken :=
  match Bytes.afterStart? terminator argument with
  | some inside => long flags next inside
  | none => short flags next argument.tail

/-- Reads the arguments after those that gave `given`. -/
def parseFrom (flags : List Flag) (given : Given) : List Bytes → Except UsageError Given
  | [] => .ok given
  | argument :: rest =>
    if argument = terminator then .ok { given with arguments := given.arguments ++ rest }
    else if !isFlag argument then
      parseFrom flags { given with arguments := given.arguments ++ [argument] } rest
    else
      match take flags rest.head? argument with
      | .error error => .error error
      | .ok (values, took) =>
        let given := { given with values := given.values ++ values }
        match took, rest with
        | true, _ :: after => parseFrom flags given after
        | _, rest => parseFrom flags given rest

/-- **The flags and the other arguments of a command line.** -/
def parse (flags : List Flag) (arguments : List Bytes) : Except UsageError Given :=
  parseFrom flags {} arguments

end Flags

end Linewise

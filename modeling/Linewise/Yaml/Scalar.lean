import Linewise.Yaml.Chars

/-!
# Scalars

The three ways to write a scalar: plain, between quotes, and as a block of
indented lines. Each is read from the characters that remain and gives the text
and the number of characters it took. Where a line ends inside a plain or quoted
scalar, one line break becomes a space and further ones stay.

## Main definitions

* `Yaml.Pending` — blanks and line breaks whose meaning is still open.
* `Yaml.plain?` — a plain scalar.
* `Yaml.singleQuoted?`, `Yaml.doubleQuoted?` — a quoted scalar.
* `Yaml.block?` — a block scalar.
-/

namespace Linewise.Yaml

/-- **Blanks and line breaks whose meaning is still open**, since it depends on what follows. -/
inductive Pending where
  /-- Blanks on the current line, last first. -/
  | blanks (reversed : List Char)
  /-- A line break, unless it was escaped, and the ones after it, last first. -/
  | breaks (first : Option Char) (reversed : List Char)
deriving DecidableEq, Repr

namespace Pending

/-- Nothing is open. -/
def nothing : Pending := blanks []

/-- Has a line ended? -/
def isFolded : Pending → Bool
  | breaks .. => true
  | blanks _ => false

/-- Is anything open? -/
def isOpen : Pending → Bool
  | breaks .. => true
  | blanks reversed => !reversed.isEmpty

/-- One more blank, which only counts before the first line break. -/
def blank (c : Char) : Pending → Pending
  | blanks reversed => blanks (c :: reversed)
  | folded => folded

/-- One more line break. -/
def newline (c : Char) : Pending → Pending
  | blanks _ => breaks (some c) []
  | breaks first reversed => breaks first (c :: reversed)

/-- **What it stands for when more text follows**, last character first. A single line feed is a
space. -/
def joined : Pending → List Char
  | blanks reversed => reversed
  | breaks none reversed => reversed
  | breaks (some c) reversed =>
    if c = '\n' then if reversed.isEmpty then [' '] else reversed else reversed ++ [c]

end Pending

/-- **A scalar that was read.** -/
structure Read where
  /-- Its text. -/
  text : List Char
  /-- How many characters it took. -/
  length : Nat
  /-- A line ended after the last of its text. -/
  folded : Bool := false
deriving DecidableEq, Repr

/-- Characters that end a plain scalar inside brackets. -/
def isFlowIndicator (c : Char) : Bool :=
  c = ',' || c = '?' || c = '[' || c = ']' || c = '{' || c = '}'

/-- Does a plain scalar end before this place? -/
def endsPlain (flow : Bool) (indent : Int) (column : Nat) (pending : Pending) (c : Char)
    (rest : List Char) : Bool :=
  (pending.isOpen && (!flow && (column : Int) < indent || c = '#'
      || column = 0 && atMarker (c :: rest)))
    || c = ':' && atGap rest
    || flow && isFlowIndicator c

/-- The loop of `plain?`: `text` is reversed. A tab may not stand where indentation is due. -/
def plainLoop (flow : Bool) (indent : Int) : (column : Nat) → (text : List Char) → Pending →
    (length : Nat) → List Char → Option Read
  | _, text, pending, length, [] => some ⟨text.reverse, length, pending.isFolded⟩
  | column, text, pending, length, c :: rest =>
    if isBlank c then
      if pending.isFolded && (column : Int) < indent && c = '\t' then none
      else plainLoop flow indent (column + 1) text (pending.blank c) (length + 1) rest
    else if isBreak c then plainLoop flow indent 0 text (pending.newline c) (length + 1) rest
    else if endsPlain flow indent column pending c rest then
      some ⟨text.reverse, length, pending.isFolded⟩
    else
      plainLoop flow indent (column + 1) (c :: (pending.joined ++ text)) .nothing (length + 1) rest

/-- **Reads a plain scalar**, inside brackets or not, whose further lines have to be indented. -/
def plain? (flow : Bool) (indent : Int) (column : Nat) (rest : List Char) : Option Read :=
  plainLoop flow indent column [] .nothing 0 rest

/-- The loop of `singleQuoted?`. -/
def singleLoop : (column : Nat) → (text : List Char) → Pending → (length : Nat) → List Char →
    Option Read
  | _, _, _, _, [] => none
  | column, text, pending, length, c :: rest =>
    if isBlank c then singleLoop (column + 1) text (pending.blank c) (length + 1) rest
    else if isBreak c then singleLoop 0 text (pending.newline c) (length + 1) rest
    else if column = 0 && atMarker (c :: rest) then none
    else if c = '\'' then
      match rest with
      | '\'' :: rest =>
        singleLoop (column + 2) ('\'' :: (pending.joined ++ text)) .nothing (length + 2) rest
      | _ => some { text := (pending.joined ++ text).reverse, length := length + 1 }
    else singleLoop (column + 1) (c :: (pending.joined ++ text)) .nothing (length + 1) rest

/-- **Reads a scalar between single quotes**, the first of which is already taken. A quote inside
is written twice. -/
def singleQuoted? (column : Nat) (rest : List Char) : Option Read :=
  singleLoop column [] .nothing 0 rest

/-- The character of a one-letter escape. -/
def escaped? (c : Char) : Option Char :=
  if c = '0' then some '\x00'
  else if c = 'a' then some '\x07'
  else if c = 'b' then some '\x08'
  else if c = 't' || c = '\t' then some '\t'
  else if c = 'n' then some '\n'
  else if c = 'v' then some '\x0b'
  else if c = 'f' then some '\x0c'
  else if c = 'r' then some '\x0d'
  else if c = 'e' then some '\x1b'
  else if c = ' ' || c = '"' || c = '\'' || c = '\\' then some c
  else if c = 'N' then some '\u0085'
  else if c = '_' then some '\u00a0'
  else if c = 'L' then some '\u2028'
  else if c = 'P' then some '\u2029'
  else none

/-- How many hexadecimal digits follow a letter. -/
def escapeDigits? (c : Char) : Option Nat :=
  if c = 'x' then some 2 else if c = 'u' then some 4 else if c = 'U' then some 8 else none

/-- The value of a hexadecimal digit in either case. -/
def hexValue? (c : Char) : Option Nat :=
  if '0' ≤ c && c ≤ '9' then some (c.toNat - '0'.toNat)
  else if 'a' ≤ c && c ≤ 'f' then some (c.toNat - 'a'.toNat + 10)
  else if 'A' ≤ c && c ≤ 'F' then some (c.toNat - 'A'.toNat + 10)
  else none

/-- The character with the code given by hexadecimal digits. -/
def codeChar? (digits : List Char) : Option Char :=
  match digits.foldlM (fun value c => (hexValue? c).map (16 * value + ·)) 0 with
  | some code =>
    if code.isValidChar then some (Char.ofNat code) else none
  | none => none

/-- The character of the escape named by a letter, and how many characters after the letter it
takes. -/
def escape? (c : Char) (rest : List Char) : Option (Char × Nat) :=
  match escaped? c, escapeDigits? c with
  | some c, _ => some (c, 0)
  | none, some digits =>
    if (rest.take digits).length = digits then
      (codeChar? (rest.take digits)).map fun c => (c, digits)
    else none
  | none, none => none

/-- The loop of `doubleQuoted?`: `skip` characters belong to an escape already read. -/
def doubleLoop : (skip column : Nat) → (text : List Char) → Pending → (length : Nat) →
    List Char → Option Read
  | _, _, _, _, _, [] => none
  | skip + 1, column, text, pending, length, _ :: rest =>
    doubleLoop skip (column + 1) text pending (length + 1) rest
  | 0, column, text, pending, length, c :: rest =>
    if isBlank c then doubleLoop 0 (column + 1) text (pending.blank c) (length + 1) rest
    else if isBreak c then doubleLoop 0 0 text (pending.newline c) (length + 1) rest
    else if column = 0 && atMarker (c :: rest) then none
    else if c = '"' then some { text := (pending.joined ++ text).reverse, length := length + 1 }
    else if c = '\\' then
      match rest with
      | [] => none
      | name :: rest =>
        if isBreak name then
          doubleLoop 0 0 (pending.joined ++ text) (.breaks none []) (length + 2) rest
        else
          match escape? name rest with
          | none => none
          | some (c, digits) =>
            doubleLoop digits (column + 2) (c :: (pending.joined ++ text)) .nothing (length + 2) rest
    else doubleLoop 0 (column + 1) (c :: (pending.joined ++ text)) .nothing (length + 1) rest

/-- **Reads a scalar between double quotes**, the first of which is already taken. -/
def doubleQuoted? (column : Nat) (rest : List Char) : Option Read :=
  doubleLoop 0 column [] .nothing 0 rest

/-- **How a block scalar treats its last line breaks.** -/
inductive Chomping where
  /-- All of them go. -/
  | strip
  /-- The first one stays. -/
  | clip
  /-- All of them stay. -/
  | keep
deriving DecidableEq, Repr

/-- The header of a block scalar: how to treat the last line breaks, the indentation if it is
given, and how many characters this took. -/
structure BlockHeader where
  /-- The treatment of the last line breaks. -/
  chomping : Chomping
  /-- The given indentation, relative to what surrounds the block; zero for none. -/
  increment : Nat
  /-- How many characters it took. -/
  length : Nat

/-- The sign that says how to treat the last line breaks. -/
def chomping? (c : Char) : Option Chomping :=
  if c = '+' then some .keep else if c = '-' then some .strip else none

/-- Reads the two signs of a block header, in either order. An indentation of zero is an error. -/
def blockSigns? : List Char → Option BlockHeader
  | [] => some ⟨.clip, 0, 0⟩
  | c :: rest =>
    match chomping? c with
    | some chomping =>
      match rest with
      | d :: _ =>
        if d = '0' then none
        else if d.isDigit then some ⟨chomping, d.toNat - '0'.toNat, 2⟩
        else some ⟨chomping, 0, 1⟩
      | [] => some ⟨chomping, 0, 1⟩
    | none =>
      if c = '0' then none
      else if c.isDigit then
        match rest with
        | d :: _ =>
          match chomping? d with
          | some chomping => some ⟨chomping, c.toNat - '0'.toNat, 2⟩
          | none => some ⟨.clip, c.toNat - '0'.toNat, 1⟩
        | [] => some ⟨.clip, c.toNat - '0'.toNat, 1⟩
      else some ⟨.clip, 0, 0⟩

/-- The rest of a header line: blanks, perhaps a comment, and the end of the line. The result says
how many characters this is. -/
def headerEnd? (rest : List Char) : Option Nat :=
  let blanks := (rest.takeWhile isBlank).length
  match rest.drop blanks with
  | [] => some blanks
  | c :: rest =>
    if isBreak c then some (blanks + 1)
    else if c = '#' then
      let comment := ((c :: rest).takeWhile fun c => !isBreak c).length
      some (blanks + comment + (((c :: rest).drop comment).take 1).length)
    else none

/-- The gap before a line of a block: the line breaks in it, the widest indentation seen, the
column it ends in, its length and what follows it. -/
structure Gap where
  /-- The line breaks, last first. -/
  breaks : List Char
  /-- The widest indentation. -/
  widest : Nat
  /-- The column in which it ends. -/
  column : Nat
  /-- How many characters it took. -/
  length : Nat
  /-- What follows. -/
  rest : List Char

/-- Takes indentation and empty lines; `indent` is zero while it is unknown. A tab may not stand
where indentation is due. -/
def gapLoop? (indent : Nat) : (breaks : List Char) → (widest column length : Nat) → List Char →
    Option Gap
  | breaks, widest, column, length, [] =>
    some ⟨breaks, max widest column, column, length, []⟩
  | breaks, widest, column, length, c :: rest =>
    let due := indent = 0 || column < indent
    if due && c = ' ' then
      gapLoop? indent breaks (max widest (column + 1)) (column + 1) (length + 1) rest
    else if due && c = '\t' then none
    else if isBreak c then gapLoop? indent (c :: breaks) (max widest column) 0 (length + 1) rest
    else some ⟨breaks, max widest column, column, length, c :: rest⟩

/-- The gap before the next line of a block. -/
def gap? (indent : Nat) (rest : List Char) : Option Gap :=
  gapLoop? indent [] 0 0 0 rest

/-- The state of a block scalar between two lines. -/
structure BlockState where
  /-- The text so far, reversed. -/
  text : List Char := []
  /-- The line break after the last line. -/
  lineEnd : List Char := []
  /-- The line breaks of the empty lines after it, last first. -/
  emptyLines : List Char
  /-- The last line began with a blank. -/
  indented : Bool := false
  /-- How many characters were taken. -/
  length : Nat

/-- What stands between the last line and the next one, reversed: in a folded block a single line
feed between two lines that do not begin with a blank is a space. -/
def BlockState.between (state : BlockState) (literal : Bool) (line : List Char) : List Char :=
  let startsBlank := line.head?.any isBlank
  if !literal && !state.indented && !startsBlank && state.lineEnd = ['\n'] then
    state.emptyLines ++ if state.emptyLines.isEmpty then [' '] else []
  else state.emptyLines ++ state.lineEnd

/-- The text of a block at its end. -/
def BlockState.finish (state : BlockState) (chomping : Chomping) : Read :=
  let tail :=
    match chomping with
    | .strip => []
    | .clip => state.lineEnd
    | .keep => state.emptyLines ++ state.lineEnd
  { text := (tail ++ state.text).reverse, length := state.length }

/-- Takes the lines of a block as long as they are indented; `fuel` bounds their number. -/
def blockLoop? (literal : Bool) (chomping : Chomping) (indent : Nat) : (fuel : Nat) →
    (column : Nat) → BlockState → List Char → Option Read
  | 0, _, state, _ => some (state.finish chomping)
  | fuel + 1, column, state, rest =>
    if column ≠ indent || rest.isEmpty then some (state.finish chomping)
    else
      let line := rest.takeWhile fun c => !isBreak c
      let after := rest.drop line.length
      let lineEnd := after.take 1
      match gap? indent (after.drop 1) with
      | none => none
      | some gap =>
        blockLoop? literal chomping indent fuel gap.column
          { text := line.reverse ++ (state.between literal line ++ state.text)
            lineEnd
            emptyLines := gap.breaks
            indented := line.head?.any isBlank
            length := state.length + line.length + lineEnd.length + gap.length }
          gap.rest

/-- **Reads a block scalar**, its sign already taken; `parent` is the indentation of what surrounds
it. -/
def block? (literal : Bool) (parent : Int) (rest : List Char) : Option Read := do
  let header ← blockSigns? rest
  let headerLine := header.length + (← headerEnd? (rest.drop header.length))
  let given := if header.increment = 0 then 0 else (max parent 0).toNat + header.increment
  let gap ← gap? given (rest.drop headerLine)
  let indent := if given = 0 then max (max gap.widest (parent + 1).toNat) 1 else given
  blockLoop? literal header.chomping indent rest.length gap.column
    { emptyLines := gap.breaks, length := headerLine + gap.length } gap.rest

end Linewise.Yaml

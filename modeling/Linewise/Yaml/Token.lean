import Linewise.Yaml.Scalar

/-!
# Tokens

The characters of a document are cut into tokens. Indentation becomes tokens that
open and close blocks. Where a scalar, an alias or a bracketed collection turns
out to be the key of a map, because a colon follows it on the same line, the
tokens that say so go before it: the scanner remembers where such a key could
begin.

## Main definitions

* `Yaml.Token` — a token.
* `Yaml.Scanner` — the state between two tokens.
* `Yaml.Scanner.next?` — takes the next token.
* `Yaml.tokens` — the tokens of a document, up to an error if there is one.
-/

namespace Linewise.Yaml

/-- **A token.** -/
inductive Token where
  /-- The end of the text. -/
  | streamEnd
  /-- A line that names the version of the format. -/
  | version (major minor : Nat)
  /-- A line that gives a handle for tags. -/
  | handle (name uri : List Char)
  /-- A line that begins a document. -/
  | documentStart
  /-- A line that ends a document. -/
  | documentEnd
  /-- A list of indented entries begins. -/
  | sequenceStart
  /-- A map of indented entries begins. -/
  | mappingStart
  /-- An indented list or map ends. -/
  | blockEnd
  /-- An opening bracket. -/
  | flowSequenceStart
  /-- A closing bracket. -/
  | flowSequenceEnd
  /-- An opening brace. -/
  | flowMappingStart
  /-- A closing brace. -/
  | flowMappingEnd
  /-- A dash before an entry. -/
  | entry
  /-- A comma. -/
  | comma
  /-- A key follows. -/
  | key
  /-- A value follows. -/
  | value
  /-- A reference to an anchor. -/
  | reference (name : List Char)
  /-- A name for the node that follows. -/
  | anchor (name : List Char)
  /-- A tag for the node that follows. -/
  | tag (handle suffix : List Char)
  /-- A scalar, plain or not. -/
  | scalar (text : List Char) (plain : Bool)
  /-- No token can be read here. -/
  | broken
deriving DecidableEq, Repr

/-- **A place where a key could begin.** -/
structure Candidate where
  /-- It has to be a key, since it begins where the entries of a map do. -/
  required : Bool
  /-- How many tokens stand before it. -/
  place : Nat
  /-- How many characters stand before it. -/
  index : Nat
  /-- Its line. -/
  line : Nat
  /-- Its column. -/
  column : Nat
deriving DecidableEq, Repr

/-- **The state between two tokens.** -/
structure Scanner where
  /-- The characters that remain. -/
  rest : List Char
  /-- How many characters were taken. -/
  index : Nat := 0
  /-- The line, from zero. -/
  line : Nat := 0
  /-- The column, from zero. -/
  column : Nat := 0
  /-- The indentation of the innermost block. -/
  indent : Int := -1
  /-- The indentations of the blocks around it. -/
  indents : List Int := []
  /-- A key may begin here. -/
  keyAllowed : Bool := true
  /-- Where a key of the innermost collection could begin. -/
  candidate : Option Candidate := none
  /-- The same for the collections around it; one for every open bracket. -/
  outer : List (Option Candidate) := []
  /-- The tokens so far, last first. -/
  tokens : List Token := []

namespace Scanner

/-- Is the place inside brackets? -/
def inFlow (s : Scanner) : Bool :=
  !s.outer.isEmpty

/-- Takes one character. -/
def advance (s : Scanner) : Scanner :=
  match s.rest with
  | [] => s
  | c :: rest =>
    if isBreak c then { s with rest, index := s.index + 1, line := s.line + 1, column := 0 }
    else { s with rest, index := s.index + 1, column := s.column + 1 }

/-- Takes some characters. -/
def advanceBy : Nat → Scanner → Scanner
  | 0, s => s
  | n + 1, s => advanceBy n s.advance

/-- Adds a token. -/
def push (token : Token) (s : Scanner) : Scanner :=
  { s with tokens := token :: s.tokens }

/-- Adds a token at a place among the others. -/
def insertAt (place : Nat) (token : Token) (s : Scanner) : Scanner :=
  let after := s.tokens.length - place
  { s with tokens := s.tokens.take after ++ token :: s.tokens.drop after }

/-- Closes the blocks that are indented deeper than a column; `fuel` bounds their number. -/
def unrollLoop (column : Int) : Nat → Scanner → Scanner
  | 0, s => s
  | fuel + 1, s =>
    if column < s.indent then
      unrollLoop column fuel
        { s.push .blockEnd with indent := s.indents.headD (-1), indents := s.indents.tail }
    else s

/-- Closes the blocks that are indented deeper than a column. Brackets ignore indentation. -/
def unroll (column : Int) (s : Scanner) : Scanner :=
  if s.inFlow then s else unrollLoop column (s.indents.length + 1) s

/-- Opens a block at a column that is deeper than the innermost one; its token goes to a place
among the others. -/
def roll (column place : Nat) (token : Token) (s : Scanner) : Scanner :=
  if !s.inFlow && s.indent < column then
    { s.insertAt place token with indent := column, indents := s.indent :: s.indents }
  else s

/-- Opens a block at the current column. -/
def rollHere (token : Token) (s : Scanner) : Scanner :=
  s.roll s.column s.tokens.length token

/-- Gives up a place where a key could begin; fails where one has to. -/
def dropCandidate (s : Scanner) : Option Scanner :=
  match s.candidate with
  | some candidate => if candidate.required then none else some { s with candidate := none }
  | none => some s

/-- The current place as one where a key could begin. -/
def here (s : Scanner) : Candidate :=
  { required := !s.inFlow && s.indent = s.column
    place := s.tokens.length
    index := s.index
    line := s.line
    column := s.column }

/-- Remembers the current place as one where a key could begin, if it may. -/
def saveCandidate (s : Scanner) : Option Scanner :=
  if s.keyAllowed then (dropCandidate s).map fun t => { t with candidate := some s.here }
  else some s

/-- The number of characters within which the colon of a key has to follow. -/
def keyReach : Nat := 1024

/-- May the remembered place still be a key? It has to be on the current line and near. The outer
result is `none` when it has to be a key and cannot. -/
def validCandidate (s : Scanner) : Option (Option Candidate) :=
  match s.candidate with
  | none => some none
  | some candidate =>
    if candidate.line < s.line || candidate.index + keyReach < s.index then
      if candidate.required then none else some none
    else some (some candidate)

/-- Takes blanks, comments and line ends; `fuel` bounds their number. A tab counts as a blank where
no key may begin. -/
def skipLoop : (fuel : Nat) → Scanner → Scanner
  | 0, s => s
  | fuel + 1, s =>
    match s.rest with
    | [] => s
    | c :: rest =>
      if c = '\ufeff' && s.column = 0 then skipLoop fuel s.advance
      else if c = ' ' || c = '\t' && (s.inFlow || !s.keyAllowed) then skipLoop fuel s.advance
      else if c = '#' then
        skipLoop fuel (s.advanceBy ((c :: rest).takeWhile fun c => !isBreak c).length)
      else if isBreak c then
        skipLoop fuel { s.advance with keyAllowed := s.keyAllowed || !s.inFlow }
      else s

/-- Goes to the next token. -/
def skip (s : Scanner) : Scanner :=
  skipLoop s.rest.length s

/-- A token of one character before which no key may end. -/
def mark (token : Token) (keyAllowed : Bool) (s : Scanner) : Option Scanner :=
  (dropCandidate s).map fun s => { s.advance.push token with keyAllowed }

/-- The end of the text. -/
def streamEnd (s : Scanner) : Option Scanner :=
  (dropCandidate (s.unroll (-1))).map fun s => { s.push .streamEnd with keyAllowed := false }

/-- A line that begins or ends a document. -/
def documentMark (token : Token) (s : Scanner) : Option Scanner :=
  (dropCandidate (s.unroll (-1))).map fun s =>
    { (s.advanceBy 3).push token with keyAllowed := false }

/-- An opening bracket or brace. -/
def openFlow (token : Token) (s : Scanner) : Option Scanner :=
  s.saveCandidate.map fun s =>
    { s.advance.push token with
      outer := s.candidate :: s.outer, candidate := none, keyAllowed := true }

/-- A closing bracket or brace. -/
def closeFlow (token : Token) (s : Scanner) : Option Scanner :=
  (dropCandidate s).map fun s =>
    match s.outer with
    | [] => { s.advance.push token with keyAllowed := false }
    | candidate :: outer => { s.advance.push token with candidate, outer, keyAllowed := false }

/-- A dash before an entry. -/
def entryMark (s : Scanner) : Option Scanner :=
  if s.inFlow then mark .entry true s
  else if s.keyAllowed then mark .entry true (s.rollHere .sequenceStart)
  else none

/-- A question mark before a key. -/
def keyMark (s : Scanner) : Option Scanner :=
  if s.inFlow then mark .key false s
  else if s.keyAllowed then mark .key true (s.rollHere .mappingStart)
  else none

/-- Puts the tokens of a key before the place where it begins. -/
def openKey (candidate : Candidate) (s : Scanner) : Scanner :=
  { (s.insertAt candidate.place .key).roll candidate.column candidate.place .mappingStart with
    candidate := none, keyAllowed := false }

/-- A colon before a value. -/
def valueMark (s : Scanner) : Option Scanner :=
  match validCandidate s with
  | none => none
  | some (some candidate) => some ((s.openKey candidate).advance.push .value)
  | some none =>
    let s := { s with candidate := none }
    if s.inFlow then some { s.advance.push .value with keyAllowed := false }
    else if s.keyAllowed then
      some { (s.rollHere .mappingStart).advance.push .value with keyAllowed := true }
    else none

/-- Characters of a name. -/
def isNameChar (c : Char) : Bool :=
  c.isAlphanum || c = '_' || c = '-'

/-- An anchor or an alias: a name after its sign. -/
def nameMark (make : List Char → Token) (s : Scanner) : Option Scanner := do
  let s ← s.saveCandidate
  let name := (s.rest.drop 1).takeWhile isNameChar
  let after := s.rest.drop (name.length + 1)
  let ends := atGap after || after.head?.any fun c => "?:,]\x7d%@\x60".toList.contains c
  if name.isEmpty || !ends then none
  else some { (s.advanceBy (name.length + 1)).push (make name) with keyAllowed := false }

/-- Characters of a tag. -/
def isTagChar (c : Char) : Bool :=
  isNameChar c || ";/?:@&=+$,.!~*'()[]".toList.contains c

/-- Reads the characters of a tag, those after a percent sign by their code; the second result is
how many were taken. -/
def tagText? : (skip : Nat) → (bytes : Bytes) → (length : Nat) → List Char →
    Option (Bytes × Nat)
  | _, bytes, length, [] => some (bytes.reverse, length)
  | skip + 1, bytes, length, _ :: rest => tagText? skip bytes (length + 1) rest
  | 0, bytes, length, c :: rest =>
    if c = '%' then
      match rest with
      | a :: b :: _ =>
        match hexValue? a, hexValue? b with
        | some x, some y => tagText? 2 (UInt8.ofNat (16 * x + y) :: bytes) (length + 1) rest
        | _, _ => none
      | _ => none
    else if isTagChar c then
      tagText? 0 ((String.utf8EncodeChar c).reverse ++ bytes) (length + 1) rest
    else some (bytes.reverse, length)

/-- Reads the characters of a tag, which have to spell valid text. -/
def tagUri? (rest : List Char) : Option (List Char × Nat) :=
  match tagText? 0 [] 0 rest with
  | some (bytes, length) => if isValidUtf8 bytes then some (shownChars bytes, length) else none
  | none => none

/-- Reads a tag: its handle, its suffix and how many characters it took. -/
def tag? (rest : List Char) : Option (List Char × List Char × Nat) :=
  match rest.drop 1 with
  | '<' :: after =>
    match tagUri? after with
    | some (uri, length) =>
      if !uri.isEmpty && (after.drop length).head? = some '>' then some ([], uri, length + 3)
      else none
    | none => none
  | after =>
    let name := after.takeWhile isNameChar
    if (after.drop name.length).head? = some '!' then
      match tagUri? (after.drop (name.length + 1)) with
      | some (uri, length) =>
        if uri.isEmpty then none
        else some ('!' :: name ++ ['!'], uri, name.length + 2 + length)
      | none => none
    else
      match tagUri? after with
      | some (uri, length) =>
        if uri.isEmpty then some ([], ['!'], 1) else some (['!'], uri, length + 1)
      | none => none

/-- A tag. -/
def tagMark (s : Scanner) : Option Scanner := do
  let s ← s.saveCandidate
  let (handle, suffix, length) ← tag? s.rest
  if atGap (s.rest.drop length) then
    some { (s.advanceBy length).push (.tag handle suffix) with keyAllowed := false }
  else none

/-- A scalar between quotes. -/
def quotedScalar (read : Nat → List Char → Option Read) (s : Scanner) : Option Scanner := do
  let s ← s.saveCandidate
  let scalar ← read (s.column + 1) (s.rest.drop 1)
  some { (s.advanceBy (scalar.length + 1)).push (.scalar scalar.text false) with
    keyAllowed := false }

/-- A plain scalar. A key may begin after it if a line ended. -/
def plainScalar (s : Scanner) : Option Scanner := do
  let s ← s.saveCandidate
  let scalar ← plain? s.inFlow (s.indent + 1) s.column s.rest
  some { (s.advanceBy scalar.length).push (.scalar scalar.text true) with
    keyAllowed := scalar.folded }

/-- A block scalar. -/
def blockScalar (literal : Bool) (s : Scanner) : Option Scanner := do
  let s ← dropCandidate s
  let scalar ← block? literal s.indent (s.rest.drop 1)
  some { (s.advanceBy (scalar.length + 1)).push (.scalar scalar.text false) with
    keyAllowed := true }

/-- The number that a row of at most nine digits is. -/
def versionNumber? (digits : List Char) : Option Nat :=
  if digits.isEmpty || 9 < digits.length then none
  else some (digits.foldl (fun n c => 10 * n + (c.toNat - '0'.toNat)) 0)

/-- Reads the two numbers of a version and how many characters they took. -/
def version? (rest : List Char) : Option (Token × Nat) := do
  let blanks := (rest.takeWhile isBlank).length
  let rest := rest.drop blanks
  let major := rest.takeWhile Char.isDigit
  match rest.drop major.length with
  | '.' :: after =>
    let minor := after.takeWhile Char.isDigit
    return (.version (← versionNumber? major) (← versionNumber? minor),
      blanks + major.length + 1 + minor.length)
  | _ => none

/-- Reads a handle for tags with its text and how many characters they took. -/
def handle? (rest : List Char) : Option (Token × Nat) := do
  let blanks := (rest.takeWhile isBlank).length
  let rest := rest.drop blanks
  match rest with
  | '!' :: after =>
    let name := after.takeWhile isNameChar
    let closed := (after.drop name.length).head? = some '!'
    if !closed && !name.isEmpty then none
    let handle := if closed then '!' :: name ++ ['!'] else ['!']
    let after := rest.drop handle.length
    let gap := (after.takeWhile isBlank).length
    if gap = 0 then none
    let (uri, length) ← tagUri? (after.drop gap)
    if uri.isEmpty || !atGap (after.drop (gap + length)) then none
    return (.handle handle uri, blanks + handle.length + gap + length)
  | _ => none

/-- A line that is about the document and not part of it. -/
def directive (s : Scanner) : Option Scanner := do
  let s ← dropCandidate (s.unroll (-1))
  let name := (s.rest.drop 1).takeWhile isNameChar
  let after := s.rest.drop (name.length + 1)
  if !atGap after then none
  let (token, length) ←
    if name = "YAML".toList then version? after
    else if name = "TAG".toList then handle? after
    else none
  let tail ← headerEnd? (after.drop length)
  some { (s.advanceBy (name.length + 1 + length + tail)).push token with keyAllowed := false }

/-- Characters that may not begin a plain scalar. -/
def isIndicator (c : Char) : Bool :=
  "-?:,[]\x7b\x7d#&*!|>'\"%@`".toList.contains c

/-- May a plain scalar begin here? Some signs may, when text follows them directly. -/
def startsPlain (flow : Bool) (c : Char) (rest : List Char) : Bool :=
  !(isBlank c || isBreak c || isIndicator c)
    || c = '-' && !rest.head?.any isBlank
    || !flow && (c = '?' || c = ':') && !atGap rest

/-- Takes the token that begins with a character. -/
def tokenAt (c : Char) (rest : List Char) (s : Scanner) : Option Scanner :=
  if s.column = 0 && c = '%' then s.directive
  else if s.column = 0 && atTriple '-' (c :: rest) then s.documentMark .documentStart
  else if s.column = 0 && atTriple '.' (c :: rest) then s.documentMark .documentEnd
  else if c = '[' then s.openFlow .flowSequenceStart
  else if c = '{' then s.openFlow .flowMappingStart
  else if c = ']' then s.closeFlow .flowSequenceEnd
  else if c = '}' then s.closeFlow .flowMappingEnd
  else if c = ',' then s.mark .comma true
  else if c = '-' && atGap rest then s.entryMark
  else if c = '?' && (s.inFlow || atGap rest) then s.keyMark
  else if c = ':' && (s.inFlow || atGap rest) then s.valueMark
  else if c = '*' then s.nameMark .reference
  else if c = '&' then s.nameMark .anchor
  else if c = '!' then s.tagMark
  else if c = '|' && !s.inFlow then s.blockScalar true
  else if c = '>' && !s.inFlow then s.blockScalar false
  else if c = '\'' then s.quotedScalar singleQuoted?
  else if c = '"' then s.quotedScalar doubleQuoted?
  else if startsPlain s.inFlow c rest then s.plainScalar
  else none

/-- **Takes the next token**, closing blocks first where the indentation says so. -/
def next? (s : Scanner) : Option Scanner :=
  let s := s.skip
  let s := s.unroll s.column
  match s.rest with
  | [] => s.streamEnd
  | c :: rest => s.tokenAt c rest

/-- Takes all tokens; `fuel` bounds their number. The reader looks two tokens ahead, so an error
hides the two tokens before it. -/
def run : (fuel : Nat) → Scanner → List Token
  | 0, s => s.tokens.reverse
  | fuel + 1, s =>
    match s.next? with
    | none => (.broken :: s.tokens.drop 2).reverse
    | some s =>
      match s.tokens with
      | .streamEnd :: _ => s.tokens.reverse
      | _ => run fuel s

end Scanner

/-- **The tokens of a document.** -/
def tokens (text : List Char) : List Token :=
  Scanner.run (text.length + 1) { rest := text }

end Linewise.Yaml

import Linewise.Yaml.Chars
import Linewise.Yaml.Value

/-!
# Writing documents

A document is written as indented maps of scalars. A text is written plain when it
then reads back as itself, as a literal block when it has several lines, and else
between quotes: single ones where nothing has to be escaped, double ones otherwise.

## Main definitions

* `Yaml.Traits` — what of a text decides how it can be written.
* `Yaml.Style`, `Yaml.styleOf` — the ways to write a text, and the one taken.
* `Yaml.scalarText` — a text as it is written.
* `Yaml.Item`, `Yaml.render` — a document of scalars and maps, and its text.
-/

namespace Linewise.Yaml

/-- Characters that may stand in a document unescaped. -/
def isPrintable (c : Char) : Bool :=
  let code := c.toNat
  code = 0x0A || (0x20 ≤ code && code ≤ 0x7E)
    || (0xA0 ≤ code && code ≤ 0xFFFD && code ≠ 0xFEFF)

/-- Characters that end a line when they are written. -/
def isWrittenBreak (c : Char) : Bool :=
  c = '\r' || c = '\n' || c = '\u0085' || c = '\u2028' || c = '\u2029'

/-- A sign that a plain text may not begin with. -/
def isForbiddenStart (c : Char) : Bool :=
  "#,[]\x7b\x7d&*!|>'\"%@`".toList.contains c

/-- **What of a text decides how it can be written.** -/
structure Traits where
  /-- It would be taken for something else than a scalar outside brackets. -/
  indicators : Bool := false
  /-- It has several lines. -/
  multiline : Bool := false
  /-- It has a tab. -/
  tab : Bool := false
  /-- It has a character that must be escaped. -/
  special : Bool := false
  /-- It begins or ends with a space or a line break. -/
  edge : Bool := false
  /-- It ends with a space. -/
  trailingSpace : Bool := false
  /-- A space follows a line break. -/
  breakSpace : Bool := false
  /-- A line break follows a space. -/
  spaceBreak : Bool := false
deriving DecidableEq, Repr

/-- Is the character, after the one before it and before the rest, a sign that a plain text may not
hold there? -/
def isIndicatorAt (before : Option Char) (c : Char) (rest : List Char) : Bool :=
  match before with
  | none => isForbiddenStart c || (c = '?' || c = ':' || c = '-') && gapFollows
  | some before => c = ':' && gapFollows || c = '#' && (isBlank before || isWrittenBreak before)
where
  /-- A blank or the end follows. -/
  gapFollows : Bool := rest.isEmpty || rest.head?.any isBlank

/-- The traits of a text, given the character before it. -/
def traitsLoop : (before : Option Char) → Traits → List Char → Traits
  | _, traits, [] => traits
  | before, traits, c :: rest =>
    let isEdge := before.isNone || rest.isEmpty
    traitsLoop (some c)
      { indicators := traits.indicators || isIndicatorAt before c rest
        multiline := traits.multiline || isWrittenBreak c
        tab := traits.tab || c = '\t'
        special := traits.special || c ≠ '\t' && !isPrintable c
        edge := traits.edge || isEdge && (c = ' ' || isWrittenBreak c)
        trailingSpace := traits.trailingSpace || rest.isEmpty && c = ' '
        breakSpace := traits.breakSpace || c = ' ' && before.any isWrittenBreak
        spaceBreak := traits.spaceBreak || isWrittenBreak c && before = some ' ' } rest

/-- Does the text begin like a line that begins or ends a document? -/
def startsLikeMarker (text : List Char) : Bool :=
  "---".toList.isPrefixOf text || "...".toList.isPrefixOf text

/-- The traits of a text. -/
def Traits.of (text : List Char) : Traits :=
  traitsLoop none { indicators := startsLikeMarker text } text

/-- May the text be written plain? -/
def Traits.plainAllowed (traits : Traits) : Bool :=
  !(traits.edge || traits.breakSpace || traits.spaceBreak || traits.tab || traits.special
    || traits.multiline || traits.indicators)

/-- May the text be written between single quotes? -/
def Traits.singleAllowed (traits : Traits) : Bool :=
  !(traits.breakSpace || traits.spaceBreak || traits.tab || traits.special)

/-- May the text be written as a block? -/
def Traits.blockAllowed (traits : Traits) : Bool :=
  !(traits.trailingSpace || traits.spaceBreak || traits.special)

/-- **The ways to write a text.** -/
inductive Style where
  /-- As it is. -/
  | plain
  /-- Between single quotes. -/
  | single
  /-- Between double quotes. -/
  | double
  /-- As indented lines. -/
  | literal
deriving DecidableEq, Repr

/-- The words that once were booleans. -/
def oldBooleans : List String :=
  ["y", "Y", "yes", "Yes", "YES", "on", "On", "ON", "n", "N", "no", "No", "NO", "off", "Off", "OFF"]

/-- Is the text a row of parts of sixty, each after a colon, with perhaps a fraction? -/
def sixtiesFollow : Bytes → Bool
  | 0x3A :: rest =>
    match rest with
    | a :: b :: rest =>
      if Bytes.isDigit a && Bytes.isDigit b then
        a ≤ 0x35 && (rest.isEmpty || fractionFollows rest || sixtiesFollow rest)
      else Bytes.isDigit a && (fractionFollows (b :: rest) || sixtiesFollow (b :: rest))
    | [a] => Bytes.isDigit a
    | [] => false
  | _ => false
where
  /-- A point with digits and underscores after it. -/
  fractionFollows : Bytes → Bool
    | 0x2E :: rest => rest.all fun b => Bytes.isDigit b || b = ascii '_'
    | _ => false

/-- Is the text a number in base sixty, as it once could be written? -/
def isSexagesimal (text : Bytes) : Bool :=
  match (Integer.sign text).2 with
  | [] => false
  | b :: rest =>
    Bytes.isDigit b &&
      sixtiesFollow (rest.dropWhile fun b => Bytes.isDigit b || b = ascii '_')

/-- Does the text, written plain, read back as text, also by readers of older versions? -/
def readsAsText (text : Bytes) : Bool :=
  (resolve text).kind = .text && !isSexagesimal text
    && !oldBooleans.any fun word => utf8 word = text

/-- The style for a text, given the one wished for: what is not allowed gives way to quotes. -/
def allowedStyle (traits : Traits) : Style → Style
  | .plain =>
    if traits.plainAllowed then .plain
    else if traits.singleAllowed then .single
    else .double
  | .literal => if traits.blockAllowed then .literal else .double
  | style => style

/-- **The style in which a text is written.** -/
def styleOf (text : Bytes) : Style :=
  let traits := Traits.of (shownChars text)
  if text.contains Bytes.lineFeed then allowedStyle traits .literal
  else if readsAsText text then allowedStyle traits .plain
  else .double

/-- The letter of an escape. -/
def escapeLetter? (c : Char) : Option Char :=
  if c = '\x00' then some '0'
  else if c = '\x07' then some 'a'
  else if c = '\x08' then some 'b'
  else if c = '\t' then some 't'
  else if c = '\n' then some 'n'
  else if c = '\x0b' then some 'v'
  else if c = '\x0c' then some 'f'
  else if c = '\r' then some 'r'
  else if c = '\x1b' then some 'e'
  else if c = '"' then some '"'
  else if c = '\\' then some '\\'
  else if c = '\u0085' then some 'N'
  else if c = '\u2028' then some 'L'
  else if c = '\u2029' then some 'P'
  else none

/-- A hexadecimal number in capital letters. -/
def capitalHex (places n : Nat) : Bytes :=
  (Bytes.hex places n).map fun b => if 0x61 ≤ b then b - 0x20 else b

/-- A character between double quotes. -/
def escapeChar (c : Char) : Bytes :=
  match escapeLetter? c with
  | some letter => [ascii '\\', ascii letter]
  | none =>
    if isPrintable c then String.utf8EncodeChar c
    else if c.toNat ≤ 0xFF then utf8 "\\x" ++ capitalHex 2 c.toNat
    else if c.toNat ≤ 0xFFFF then utf8 "\\u" ++ capitalHex 4 c.toNat
    else utf8 "\\U" ++ capitalHex 8 c.toNat

/-- The inside of a single-quoted text: a quote is written twice, and what follows a line break is
indented. -/
def singleInside (indent : Nat) : (afterBreak : Bool) → List Char → Bytes
  | _, [] => []
  | afterBreak, c :: rest =>
    if isWrittenBreak c then String.utf8EncodeChar c ++ singleInside indent true rest
    else
      (if afterBreak then Bytes.spaces indent else [])
        ++ (if c = '\'' then [ascii '\''] else []) ++ String.utf8EncodeChar c
        ++ singleInside indent false rest

/-- The lines of a literal block, each indented; an empty line is not. `fresh` at the start of the
block, whose header ends with the line break before the first line. -/
def literalLines (indent : Nat) : (fresh afterBreak : Bool) → List Char → Bytes
  | _, _, [] => []
  | fresh, afterBreak, c :: rest =>
    if isWrittenBreak c then String.utf8EncodeChar c ++ literalLines indent false true rest
    else
      (if fresh then [Bytes.lineFeed] else [])
        ++ (if afterBreak then Bytes.spaces indent else []) ++ String.utf8EncodeChar c
        ++ literalLines indent false false rest

/-- The number of spaces by which each level is indented. -/
def step : Nat := 4

/-- The sign that says what becomes of the last line breaks. -/
def chompingSign (text : List Char) : Bytes :=
  match text.reverse with
  | last :: before =>
    if !isWrittenBreak last then [ascii '-']
    else
      match before with
      | [] => [ascii '+']
      | c :: _ => if isWrittenBreak c then [ascii '+'] else []
  | [] => [ascii '-']

/-- The header of a literal block: the indentation is given when the text itself begins with a space
or a line break. -/
def literalHeader (text : List Char) : Bytes :=
  [ascii '|'] ++ (if text.head?.any fun c => c = ' ' || isWrittenBreak c then Bytes.ofNat step
    else []) ++ chompingSign text

/-- Does the written form of a text end its last line? -/
def endsLine (style : Style) (text : List Char) : Bool :=
  style = .literal && text.getLast?.any isWrittenBreak

/-- **A text in a given style**, with a line break after it. The first line stands after a key, and
further ones are indented. -/
def styled (indent : Nat) (style : Style) (text : List Char) : Bytes :=
  let written := match style with
    | .plain => ofChars text
    | .single => ascii '\'' :: singleInside indent false text ++ [ascii '\'']
    | .double => ascii '"' :: text.flatMap escapeChar ++ [ascii '"']
    | .literal => literalHeader text ++ literalLines indent true true text
  written ++ if endsLine style text then [] else [Bytes.lineFeed]

/-- The letter of the base-64 alphabet for a number. -/
def base64Letter (n : Nat) : UInt8 :=
  if n < 26 then UInt8.ofNat (0x41 + n)
  else if n < 52 then UInt8.ofNat (0x61 + (n - 26))
  else if n < 62 then UInt8.ofNat (0x30 + (n - 52))
  else if n = 62 then ascii '+'
  else ascii '/'

/-- The base-64 form of a byte string. -/
def base64 : Bytes → Bytes
  | [] => []
  | [a] =>
    let n := a.toNat * 65536
    [base64Letter (n / 262144), base64Letter (n / 4096 % 64), ascii '=', ascii '=']
  | [a, b] =>
    let n := a.toNat * 65536 + b.toNat * 256
    [base64Letter (n / 262144), base64Letter (n / 4096 % 64), base64Letter (n / 64 % 64), ascii '=']
  | a :: b :: c :: rest =>
    let n := a.toNat * 65536 + b.toNat * 256 + c.toNat
    base64Letter (n / 262144) :: base64Letter (n / 4096 % 64) :: base64Letter (n / 64 % 64)
      :: base64Letter (n % 64) :: base64 rest

/-- The longest line of base-64 text. -/
def base64Line : Nat := 70

/-- Long base-64 text in lines, each of them ended; `fuel` bounds their number. -/
def base64Lines : (fuel : Nat) → Bytes → Bytes
  | 0, text => text
  | fuel + 1, text =>
    if text.isEmpty then []
    else text.take base64Line ++ Bytes.lineFeed :: base64Lines fuel (text.drop base64Line)

/-- **A text as it is written** after a key, with its line break. Bytes that are not valid text are
written in base 64, with a tag that says so. -/
def scalarText (indent : Nat) (text : Bytes) : Bytes :=
  if isValidUtf8 text then styled indent (styleOf text) (shownChars text)
  else
    let encoded := base64 text
    let tag := utf8 "!!binary "
    if encoded.length < base64Line then tag ++ styled indent .plain (shownChars encoded)
    else tag ++ styled indent .literal (shownChars (base64Lines encoded.length encoded))

/-- **An entry of a document**: a scalar, or a map of scalars under a key. -/
inductive Item where
  /-- A text. -/
  | text (key value : Bytes)
  /-- A whole number. -/
  | int (key : Bytes) (value : Int)
deriving DecidableEq, Repr

/-- The text of an entry at an indentation. -/
def Item.render (indent : Nat) : Item → Bytes
  | text key value =>
    Bytes.spaces indent ++ key ++ utf8 ": " ++ scalarText (indent + step) value
  | int key value =>
    Bytes.spaces indent ++ key ++ utf8 ": " ++ Bytes.decimal value ++ [Bytes.lineFeed]

/-- A section of a document: the entries under a key, or entries at the top. -/
inductive Section where
  /-- Entries under a key. -/
  | nested (key : Bytes) (items : List Item)
  /-- Entries at the top. -/
  | top (items : List Item)
deriving DecidableEq, Repr

/-- The text of a section; one without entries has none. -/
def Section.render : Section → Bytes
  | nested key items =>
    if items.isEmpty then []
    else key ++ utf8 ":\n" ++ items.flatMap (Item.render step)
  | top items => items.flatMap (Item.render 0)

/-- **The text of a document**; one without entries is a pair of braces. -/
def render (sections : List Section) : Bytes :=
  let text := sections.flatMap Section.render
  if text.isEmpty then utf8 "\x7b\x7d\n" else text

end Linewise.Yaml

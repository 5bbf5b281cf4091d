import Linewise.Yaml.Token

/-!
# Nodes

The tokens of a document form a tree of scalars, lists and maps. A node may carry
a name, by which an alias further on refers to it, and a tag that fixes its type.

## Main definitions

* `Yaml.Node` — a node.
* `Yaml.Node.State` — the tokens that remain and the names given so far.
* `Yaml.Node.parse?` — one node.
* `Yaml.document?` — the first document of a text.
-/

namespace Linewise.Yaml

/-- **A node of a document.** -/
inductive Node where
  /-- A scalar with its tag, which is empty when none is given; `plain` if it was not quoted. -/
  | scalar (tag text : List Char) (plain : Bool)
  /-- A list. -/
  | sequence (items : List Node)
  /-- A map: keys and values. -/
  | mapping (entries : List (Node × Node))
  /-- A reference to a named node. -/
  | reference (name : List Char) (target : Node)
deriving Repr

namespace Node

/-- An empty scalar. -/
def empty : Node := scalar [] [] true

/-- **What is left to read, and what is known.** -/
structure State where
  /-- The tokens that remain. -/
  tokens : List Token
  /-- The names given so far, latest first; `none` while the node is being read. -/
  anchors : List (List Char × Option Node) := []
  /-- The handles for tags. -/
  handles : List (List Char × List Char)

/-- A step of reading that may fail. -/
abbrev Parser := StateT State Option

/-- The next token. Where there is none, none can be read. -/
def peek : Parser Token := do
  return (← get).tokens.headD .broken

/-- Takes the next token. -/
def drop : Parser Unit :=
  modify fun state => { state with tokens := state.tokens.tail }

/-- Gives a node its name. -/
def bindAnchor (name : Option (List Char)) (node : Option Node) : Parser Unit :=
  match name with
  | some name => modify fun state => { state with anchors := (name, node) :: state.anchors }
  | none => return

/-- The node that a name refers to. A name refers to nothing before its node is complete. -/
def resolveAlias (name : List Char) : Parser Node := do
  match (← get).anchors.find? fun entry => entry.1 = name with
  | some (_, some target) => return .reference name target
  | _ => failure

/-- The handles that every document knows. -/
def standardHandles : List (List Char × List Char) :=
  [(['!'], ['!']), (['!', '!'], "tag:yaml.org,2002:".toList)]

/-- The tag in full. -/
def fullTag (handle suffix : List Char) : Parser (List Char) := do
  if handle.isEmpty then return suffix
  match (← get).handles.find? fun entry => entry.1 = handle with
  | some (_, uri) => return uri ++ suffix
  | none => failure

/-- The name and the tag in front of a node. -/
structure Properties where
  /-- The name. -/
  anchor : Option (List Char) := none
  /-- The tag, in full. -/
  tag : Option (List Char) := none

/-- Reads the name and the tag in front of a node, in either order. -/
def properties : Parser Properties := do
  match ← peek with
  | .anchor name =>
    drop
    match ← peek with
    | .tag handle suffix =>
      drop
      return { anchor := some name, tag := some (← fullTag handle suffix) }
    | _ => return { anchor := some name }
  | .tag handle suffix =>
    drop
    match ← peek with
    | .anchor name =>
      drop
      return { anchor := some name, tag := some (← fullTag handle suffix) }
    | _ => return { tag := some (← fullTag handle suffix) }
  | _ => return {}

/-- The beginning of the tags of the format itself. -/
def standardUri : List Char := "tag:yaml.org,2002:".toList

/-- A tag of the format itself begins with two exclamation marks in short. -/
def shortTag (tag : List Char) : List Char :=
  if standardUri.isPrefixOf tag then "!!".toList ++ tag.drop standardUri.length else tag

/-- The tag of a scalar; a lone exclamation mark is none. -/
def scalarTag (properties : Properties) : List Char :=
  match properties.tag with
  | some ['!'] => []
  | some tag => shortTag tag
  | none => []

/-- Reads what follows the properties of a node as a collection: names it before and after. -/
def named (properties : Properties) (content : Parser Node) : Parser Node := do
  bindAnchor properties.anchor none
  let node ← content
  bindAnchor properties.anchor (some node)
  return node

/-- Does a value of an indented map end here, before it began? -/
def endsBlockValue : Token → Bool
  | .key | .value | .blockEnd => true
  | _ => false

mutual

/-- **Reads one node.** Indented collections are possible only where `block` says so, and a list
whose dashes are not indented only where `indentless` does. -/
def parse (fuel : Nat) (block indentless : Bool) : Parser Node := do
  match fuel with
  | 0 => failure
  | fuel + 1 =>
    match ← peek with
    | .reference name =>
      drop
      resolveAlias name
    | _ =>
      let properties ← properties
      match ← peek, block, indentless with
      | .entry, _, true => named properties (return sequence (← indentlessEntries fuel))
      | .scalar text plain, _, _ =>
        drop
        let node := scalar (scalarTag properties) text plain
        bindAnchor properties.anchor (some node)
        return node
      | .flowSequenceStart, _, _ =>
        drop
        named properties (return sequence (← flowItems fuel true))
      | .flowMappingStart, _, _ =>
        drop
        named properties (return mapping (← flowEntries fuel true))
      | .sequenceStart, true, _ =>
        drop
        named properties (return sequence (← blockItems fuel))
      | .mappingStart, true, _ =>
        drop
        named properties (return mapping (← blockEntries fuel))
      | _, _, _ =>
        if properties.anchor.isSome || properties.tag.isSome then
          let node := scalar (scalarTag properties) [] true
          bindAnchor properties.anchor (some node)
          return node
        else failure

/-- The entries of a list whose dashes stand in the column of the map around it. -/
def indentlessEntries (fuel : Nat) : Parser (List Node) := do
  match fuel with
  | 0 => failure
  | fuel + 1 =>
    match ← peek with
    | .entry =>
      drop
      let token ← peek
      let item ←
        if token = .entry || endsBlockValue token then pure empty else parse fuel true false
      return item :: (← indentlessEntries fuel)
    | _ => return []

/-- The entries of an indented list. -/
def blockItems (fuel : Nat) : Parser (List Node) := do
  match fuel with
  | 0 => failure
  | fuel + 1 =>
    match ← peek with
    | .entry =>
      drop
      let token ← peek
      let item ←
        if token = .entry || token = .blockEnd then pure empty else parse fuel true false
      return item :: (← blockItems fuel)
    | .blockEnd =>
      drop
      return []
    | _ => failure

/-- The entries of an indented map. -/
def blockEntries (fuel : Nat) : Parser (List (Node × Node)) := do
  match fuel with
  | 0 => failure
  | fuel + 1 =>
    match ← peek with
    | .key =>
      drop
      let key ← if endsBlockValue (← peek) then pure empty else parse fuel true true
      let value ←
        if (← peek) = .value then
          drop
          if endsBlockValue (← peek) then pure empty else parse fuel true true
        else pure empty
      return (key, value) :: (← blockEntries fuel)
    | .blockEnd =>
      drop
      return []
    | _ => failure

/-- The items of a bracketed list; `first` before the first of them. -/
def flowItems (fuel : Nat) (first : Bool) : Parser (List Node) := do
  match fuel with
  | 0 => failure
  | fuel + 1 =>
    if (← peek) = .flowSequenceEnd then
      drop
      return []
    else
      if !first then
        if (← peek) = .comma then drop else failure
      match ← peek with
      | .flowSequenceEnd =>
        drop
        return []
      | .key =>
        drop
        let item ← flowPair fuel
        return item :: (← flowItems fuel false)
      | _ =>
        let item ← parse fuel false false
        return item :: (← flowItems fuel false)

/-- A map of a single entry inside a bracketed list. -/
def flowPair (fuel : Nat) : Parser Node := do
  match fuel with
  | 0 => failure
  | fuel + 1 =>
    let key ←
      match ← peek with
      | .value | .comma | .flowSequenceEnd =>
        drop
        pure empty
      | _ => parse fuel false false
    let value ←
      if (← peek) = .value then
        drop
        match ← peek with
        | .comma | .flowSequenceEnd => pure empty
        | _ => parse fuel false false
      else pure empty
    return mapping [(key, value)]

/-- The entries of a map in braces; `first` before the first of them. -/
def flowEntries (fuel : Nat) (first : Bool) : Parser (List (Node × Node)) := do
  match fuel with
  | 0 => failure
  | fuel + 1 =>
    if (← peek) = .flowMappingEnd then
      drop
      return []
    else
      if !first then
        if (← peek) = .comma then drop else failure
      match ← peek with
      | .flowMappingEnd =>
        drop
        return []
      | .key =>
        drop
        let key ←
          match ← peek with
          | .value | .comma | .flowMappingEnd => pure empty
          | _ => parse fuel false false
        let value ←
          if (← peek) = .value then
            drop
            match ← peek with
            | .comma | .flowMappingEnd => pure empty
            | _ => parse fuel false false
          else pure empty
        return (key, value) :: (← flowEntries fuel false)
      | _ =>
        let key ← parse fuel false false
        return (key, empty) :: (← flowEntries fuel false)

end

/-- The lines in front of a document: the handles it gives for tags, and whether it names a
version. Only version 1.1 is known, and nothing may be given twice. -/
def directives : (tokens : List Token) → (versioned : Bool) →
    (handles : List (List Char × List Char)) →
    Option (List Token × List (List Char × List Char))
  | .version major minor :: rest, versioned, handles =>
    if versioned || major ≠ 1 || minor ≠ 1 then none else directives rest true handles
  | .handle name uri :: rest, versioned, handles =>
    if handles.any fun entry => entry.1 = name then none
    else directives rest versioned (handles ++ [(name, uri)])
  | tokens, _, handles => some (tokens, handles)

/-- Is a document empty when this token follows its first line? -/
def endsDocument : Token → Bool
  | .version .. | .handle .. | .documentStart | .documentEnd | .streamEnd => true
  | _ => false

/-- Reads the root of a document from its tokens; a token has to follow it. -/
def root? (tokens : List Token) (handles : List (List Char × List Char)) : Option Node :=
  match (parse (4 * tokens.length + 4) true false).run { tokens, handles } with
  | some (node, state) => if state.tokens.head?.any (· ≠ .broken) then some node else none
  | none => none

end Node

/-- **The first document of a text**: `some none` when there is none. -/
def document? (text : List Char) : Option (Option Node) :=
  match tokens text with
  | .streamEnd :: _ => some none
  | all =>
    match Node.directives all false [] with
    | none => none
    | some (.documentStart :: rest, handles) =>
      if rest.head?.any Node.endsDocument then some (some Node.empty)
      else (Node.root? rest (handles ++ Node.standardHandles)).map some
    | some (rest, handles) =>
      if rest.length = all.length then
        (Node.root? rest (handles ++ Node.standardHandles)).map some
      else none

end Linewise.Yaml

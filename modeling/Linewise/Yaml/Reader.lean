import Linewise.Yaml.Node
import Linewise.Yaml.Value

/-!
# Reading documents

A document becomes a value: scalars are resolved by their tag or by how they are
written, a map may not give a key twice, and a merge key brings in the entries of
other maps, which yield to the map's own.

## Main definitions

* `Yaml.scalarValue?` — the value of a scalar.
* `Yaml.Reading` — counts the work, so that aliases cannot multiply it without bound.
* `Yaml.value?` — the value of a node.
* `Yaml.readMap?` — the entries of a document that is a map, or empty.
-/

namespace Linewise.Yaml

/-- The value of a letter of the base-64 alphabet. -/
def base64Value? (c : Char) : Option Nat :=
  if 'A' ≤ c && c ≤ 'Z' then some (c.toNat - 'A'.toNat)
  else if 'a' ≤ c && c ≤ 'z' then some (c.toNat - 'a'.toNat + 26)
  else if '0' ≤ c && c ≤ '9' then some (c.toNat - '0'.toNat + 52)
  else if c = '+' then some 62
  else if c = '/' then some 63
  else none

/-- Decodes groups of four letters, the last one perhaps filled up with equals signs. -/
def base64Groups? : List Char → Option Bytes
  | [] => some []
  | [a, b, '=', '='] => do
    let n := (← base64Value? a) * 64 + (← base64Value? b)
    return [UInt8.ofNat (n / 16)]
  | [a, b, c, '='] => do
    let n := ((← base64Value? a) * 64 + (← base64Value? b)) * 64 + (← base64Value? c)
    return [UInt8.ofNat (n / 1024), UInt8.ofNat (n / 4 % 256)]
  | a :: b :: c :: d :: rest => do
    let n := (((← base64Value? a) * 64 + (← base64Value? b)) * 64 + (← base64Value? c)) * 64
      + (← base64Value? d)
    return UInt8.ofNat (n / 65536) :: UInt8.ofNat (n / 256 % 256) :: UInt8.ofNat (n % 256)
      :: (← base64Groups? rest)
  | _ => none

/-- Decodes base-64 text; line ends do not count. -/
def base64? (text : List Char) : Option Bytes :=
  base64Groups? (text.filter fun c => c ≠ '\n' && c ≠ '\r')

/-- The type that a tag demands. -/
def tagKind? (tag : List Char) : Option Kind :=
  if tag = "!!str".toList then some .text
  else if tag = "!!bool".toList then some .bool
  else if tag = "!!int".toList then some .int
  else if tag = "!!float".toList then some .float
  else if tag = "!!null".toList then some .null
  else if tag = "!!timestamp".toList then some .time
  else none

/-- The value of a text as a given type, if it is one: a whole number will do as a fraction. Only a
demand for a timestamp makes a timestamp of a text. -/
def demanded? (kind : Kind) (text : Bytes) : Option Value :=
  let value := match resolve text with
    | .time => if kind = .time then .time else (number? text).getD (.text text)
    | value => value
  if kind = .text then some (.text text)
  else if value.kind = kind then some value
  else
    match kind, value with
    | .float, .int n => if n < Integer.signedBound then some (.float (Binary64.ofInt n)) else none
    | _, _ => none

/-- **The value of a scalar**: by its tag if it has one, as text if it is quoted, and else by how it
is written. A tag that is not of the format makes it text. -/
def scalarValue? (tag text : List Char) (plain : Bool) : Option Value :=
  let bytes := ofChars text
  if tag.isEmpty then some (if plain then resolve bytes else .text bytes)
  else if tag = "!!binary".toList then (base64? text).map .text
  else
    match tagKind? tag with
    | some kind => demanded? kind bytes
    | none => some (.text bytes)

/-- **How much was read so far.** -/
structure Reading where
  /-- Nodes read. -/
  nodes : Nat := 0
  /-- Nodes read inside aliases. -/
  aliased : Nat := 0

/-- The number of nodes up to which nearly all of them may come from aliases. -/
def lenientNodes : Nat := 400000

/-- The number of nodes from which on few of them may come from aliases. -/
def strictNodes : Nat := 4000000

/-- Is too much of what was read due to aliases? The share allowed falls from 99 to 10 in a
hundred. -/
def Reading.isExcessive (reading : Reading) : Bool :=
  100 < reading.aliased && 1000 < reading.nodes &&
    if reading.nodes ≤ lenientNodes then 99 * reading.nodes < 100 * reading.aliased
    else if strictNodes ≤ reading.nodes then 10 * reading.nodes < 100 * reading.aliased
    else
      (99 * (strictNodes - lenientNodes) - 89 * (reading.nodes - lenientNodes)) * reading.nodes
        < 100 * (strictNodes - lenientNodes) * reading.aliased

/-- A step of reading that may fail. -/
abbrev Reader := StateT Reading Option

/-- Counts a node. -/
def count (inAlias : Bool) : Reader Unit := do
  let reading ← get
  let reading : Reading :=
    ⟨reading.nodes + 1, if inAlias then reading.aliased + 1 else reading.aliased⟩
  if reading.isExcessive then failure
  set reading

/-- The text by which two keys are compared, with the sort of node it is. -/
def keyText : Node → Nat × List Char
  | .scalar _ text _ => (0, text)
  | .sequence _ => (1, [])
  | .mapping _ => (2, [])
  | .reference name _ => (3, name)

/-- Does some key occur twice? -/
def hasDuplicate : List (Nat × List Char) → Bool
  | [] => false
  | key :: rest => rest.contains key || hasDuplicate rest

/-- Is the key a merge key? -/
def isMerge : Node → Bool
  | .scalar tag text plain =>
    text = ['<', '<'] && (tag.isEmpty && plain || tag = "!!merge".toList)
  | _ => false

/-- The name of a key: the text of a scalar, which has to have a value. A list or a map cannot be
a key. -/
def keyName? : Node → Option Bytes
  | .scalar tag text plain =>
    if tag = "!!binary".toList then base64? text
    else (scalarValue? tag text plain).map fun _ => ofChars text
  | .reference _ target => keyName? target
  | _ => none

/-- Sets the value of a name. -/
def setEntry (name : Bytes) (value : Value) : List (Bytes × Value) → List (Bytes × Value)
  | [] => [(name, value)]
  | entry :: rest =>
    if entry.1 = name then (name, value) :: rest else entry :: setEntry name value rest

/-- Is there a value of this name? -/
def hasEntry (name : Bytes) (entries : List (Bytes × Value)) : Bool :=
  entries.any fun entry => entry.1 = name

mutual

/-- **The value of a node.** -/
def value? (inAlias : Bool) : Node → Reader Value
  | .scalar tag text plain => do
    count inAlias
    scalarValue? tag text plain
  | .sequence items => do
    count inAlias
    return .list (← values? inAlias items)
  | .mapping entries => do
    count inAlias
    if hasDuplicate (entries.map fun entry => keyText entry.1) then failure
    let own ← ownEntries? inAlias entries []
    return .map (← mergeEntries? inAlias entries own)
  | .reference _ target => do
    count inAlias
    value? true target

/-- The values of a list of nodes. -/
def values? (inAlias : Bool) : List Node → Reader (List Value)
  | [] => return []
  | node :: rest => return (← value? inAlias node) :: (← values? inAlias rest)

/-- The entries that a map gives itself, added to those in `done`. -/
def ownEntries? (inAlias : Bool) : List (Node × Node) → List (Bytes × Value) →
    Reader (List (Bytes × Value))
  | [], done => return done
  | (key, node) :: rest, done => do
    if isMerge key then ownEntries? inAlias rest done
    else
      count inAlias
      let name ← keyName? key
      let value ← value? inAlias node
      ownEntries? inAlias rest (setEntry name value done)

/-- The entries of a map with those that its merge key brings in. -/
def mergeEntries? (inAlias : Bool) : List (Node × Node) → List (Bytes × Value) →
    Reader (List (Bytes × Value))
  | [], done => return done
  | (key, node) :: rest, done => do
    if isMerge key then
      let done ← mergeNode? inAlias node done
      mergeEntries? inAlias rest done
    else mergeEntries? inAlias rest done

/-- The entries of a merged node that are not there yet, added to those in `done`. The node is a
map, an alias of one, or a list of them. -/
def mergeNode? (inAlias : Bool) : Node → List (Bytes × Value) → Reader (List (Bytes × Value))
  | .mapping entries, done => mergeMap? inAlias entries done
  | .reference _ (.mapping entries), done => do
    count inAlias
    mergeMap? true entries done
  | .sequence items, done => mergeItems? inAlias items done
  | _, _ => failure

/-- Merges the maps of a list one after the other. -/
def mergeItems? (inAlias : Bool) : List Node → List (Bytes × Value) →
    Reader (List (Bytes × Value))
  | [], done => return done
  | .mapping entries :: rest, done => do
    mergeItems? inAlias rest (← mergeMap? inAlias entries done)
  | .reference _ (.mapping entries) :: rest, done => do
    count inAlias
    mergeItems? inAlias rest (← mergeMap? true entries done)
  | _ :: _, _ => failure

/-- Adds the entries of a map that are not there yet, first its own and then those it merges. -/
def mergeMap? (inAlias : Bool) (entries : List (Node × Node)) (done : List (Bytes × Value)) :
    Reader (List (Bytes × Value)) := do
  count inAlias
  if hasDuplicate (entries.map fun entry => keyText entry.1) then failure
  let done ← newEntries? inAlias entries done
  mergeEntries? inAlias entries done

/-- Adds the entries that a map gives itself and that are not there yet. -/
def newEntries? (inAlias : Bool) : List (Node × Node) → List (Bytes × Value) →
    Reader (List (Bytes × Value))
  | [], done => return done
  | (key, node) :: rest, done => do
    if isMerge key then newEntries? inAlias rest done
    else
      count inAlias
      let name ← keyName? key
      if hasEntry name done then newEntries? inAlias rest done
      else
        let value ← value? inAlias node
        newEntries? inAlias rest (setEntry name value done)

end

/-- **The entries of a document that is a map**; an empty document has none. Anything else, and
anything that is not well formed, is no such document. -/
def readMap? (text : Bytes) : Option (List (Bytes × Value)) :=
  match chars? text with
  | none => none
  | some cs =>
    match document? cs with
    | none => none
    | some none => some []
    | some (some node) =>
      match (value? false node).run {} with
      | some (.map entries, _) => some entries
      | some (.null, _) => some []
      | _ => none

end Linewise.Yaml

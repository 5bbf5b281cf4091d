import Linewise.Proofs.Tokens
import Linewise.Yaml.Node

/-!
# The tree of a map of maps

The tokens of a document of lines and indented lines form a map: each line an entry of two
scalars, each part under a key an entry whose value is a map of its own. No node has a name
or a tag, so neither the names nor the handles change on the way. Every entry has more
tokens than it takes fuel, which is why the fuel suffices.

## Main definitions

* `Yaml.Line.entry`, `Yaml.Part.entries`: the entries of a line and of a part

## Main results

* `Yaml.Node.blockEntries_parts`: the entries of a block
* `Yaml.document?_parts`: the tree of a document
-/

namespace Linewise.Yaml

/-- The entry of a line. -/
def Line.entry (line : Line) : Node × Node :=
  (.scalar [] line.key true, .scalar [] line.text (line.style = .plain))

/-- The entries of a part: those of its lines, or the map of them. -/
def Part.entries : Part → List (Node × Node)
  | top first lines => (first :: lines).map Line.entry
  | nested key first lines =>
    [(.scalar [] key true, .mapping ((first :: lines).map Line.entry))]

namespace Node

variable (anchors : List (List Char × Option Node)) (handles : List (List Char × List Char))

/-! ## One node -/

theorem parse_scalar (fuel : Nat) (block indentless : Bool) (text : List Char) (plain : Bool)
    (rest : List Token) :
    (parse (fuel + 1) block indentless).run ⟨.scalar text plain :: rest, anchors, handles⟩
      = some (.scalar [] text plain, ⟨rest, anchors, handles⟩) :=
  rfl

variable {anchors handles}

theorem parse_mapping {fuel : Nat} {rest more : List Token} {entries : List (Node × Node)}
    (indentless : Bool)
    (hentries : (blockEntries fuel).run ⟨rest, anchors, handles⟩
      = some (entries, ⟨more, anchors, handles⟩)) :
    (parse (fuel + 1) true indentless).run ⟨.mappingStart :: rest, anchors, handles⟩
      = some (.mapping entries, ⟨more, anchors, handles⟩) := by
  rw [parse]
  simp [peek, drop, properties, named, bindAnchor, hentries]

/-! ## Entries -/

/-- **An entry of a block** is a key and the node that follows its colon. -/
theorem blockEntries_cons {fuel : Nat} {key : List Char} {token : Token} {rest more : List Token}
    {value : Node} {entries : List (Node × Node)} {state : State}
    (htoken : endsBlockValue token = false)
    (hvalue : (parse (fuel + 1) true true).run ⟨token :: rest, anchors, handles⟩
      = some (value, ⟨more, anchors, handles⟩))
    (hrest : (blockEntries (fuel + 1)).run ⟨more, anchors, handles⟩ = some (entries, state)) :
    (blockEntries (fuel + 2)).run
        ⟨.key :: .scalar key true :: .value :: token :: rest, anchors, handles⟩
      = some ((.scalar [] key true, value) :: entries, state) := by
  have hkey : endsBlockValue (.scalar key true) = false := rfl
  rw [blockEntries]
  simp [peek, drop, parse_scalar, hkey, htoken, hvalue, hrest]

variable (anchors handles) in
theorem blockEntries_end (fuel : Nat) (rest : List Token) :
    (blockEntries (fuel + 1)).run ⟨.blockEnd :: rest, anchors, handles⟩
      = some ([], ⟨rest, anchors, handles⟩) :=
  rfl

theorem blockEntries_lines (lines : List Line) {fuel : Nat} {rest : List Token}
    {entries : List (Node × Node)} {state : State}
    (hrest : (blockEntries (fuel + 1)).run ⟨rest, anchors, handles⟩ = some (entries, state)) :
    (blockEntries (fuel + 1 + lines.length)).run
        ⟨lines.flatMap Line.tokens ++ rest, anchors, handles⟩
      = some (lines.map Line.entry ++ entries, state) := by
  induction lines with
  | nil => exact hrest
  | cons line lines ih =>
    have hfuel : fuel + 1 + (line :: lines).length = fuel + lines.length + 2 := by
      rw [List.length_cons]
      omega
    rw [hfuel, List.flatMap_cons, List.append_assoc]
    refine blockEntries_cons rfl (parse_scalar _ _ _ _ _ _ _ _) ?_
    rw [Nat.add_right_comm]
    exact ih

theorem length_le_length_tokens (lines : List Line) :
    lines.length ≤ (lines.flatMap Line.tokens).length := by
  induction lines with
  | nil => exact le_rfl
  | cons line lines ih =>
    rw [List.flatMap_cons, List.length_append, List.length_cons]
    have : line.tokens.length = 4 := rfl
    omega

/-- **The entries of a block** of parts. -/
theorem blockEntries_parts (parts : List Part) {fuel : Nat}
    (hfuel : (parts.flatMap Part.tokens).length + 1 ≤ fuel) (rest : List Token) :
    (blockEntries fuel).run ⟨parts.flatMap Part.tokens ++ .blockEnd :: rest, anchors, handles⟩
      = some (parts.flatMap Part.entries, ⟨rest, anchors, handles⟩) := by
  induction parts generalizing fuel with
  | nil =>
    obtain ⟨fuel, rfl⟩ := Nat.exists_eq_add_of_le' hfuel
    exact blockEntries_end anchors handles fuel rest
  | cons part parts ih =>
    rw [List.flatMap_cons, List.length_append] at hfuel
    rw [List.flatMap_cons, List.append_assoc, List.flatMap_cons]
    cases part with
    | top first lines =>
      have hcount := length_le_length_tokens (first :: lines)
      rw [Part.tokens] at hfuel
      obtain ⟨spare, hspare⟩ : ∃ spare, fuel = spare + 1 + (first :: lines).length :=
        ⟨fuel - (first :: lines).length - 1, by omega⟩
      rw [hspare]
      exact blockEntries_lines (first :: lines) (ih (by omega))
    | nested key first lines =>
      have hcount := length_le_length_tokens (first :: lines)
      simp only [Part.tokens, List.length_cons, List.length_append] at hfuel hcount
      obtain ⟨spare, hspare⟩ : ∃ spare, fuel = spare + 1 + (first :: lines).length + 2 :=
        ⟨fuel - (first :: lines).length - 3, by rw [List.length_cons]; omega⟩
      have hinside := blockEntries_lines (first :: lines) (blockEntries_end anchors handles
        spare (parts.flatMap Part.tokens ++ .blockEnd :: rest))
      rw [List.append_nil] at hinside
      rw [hspare, Part.tokens, List.cons_append, List.cons_append, List.cons_append,
        List.cons_append, List.append_assoc]
      refine blockEntries_cons rfl (parse_mapping true hinside) (ih ?_)
      rw [List.length_cons] at hspare ⊢
      omega

end Node

/-! ## Documents -/

/-- **The tree of a document** of one or more parts. -/
theorem document?_parts {parts : List Part} (hparts : ∀ part ∈ parts, part.Legible)
    (hne : parts ≠ []) :
    document? (parts.flatMap Part.chars)
      = some (some (.mapping (parts.flatMap Part.entries))) := by
  let block := parts.flatMap Part.tokens ++ [.blockEnd, .streamEnd]
  have htokens : tokens (parts.flatMap Part.chars) = .mappingStart :: block :=
    tokens_parts hparts hne
  have hblock : (Node.blockEntries (4 * (Token.mappingStart :: block).length + 3)).run
      ⟨parts.flatMap Part.tokens ++ .blockEnd :: [.streamEnd], [], Node.standardHandles⟩
      = some (parts.flatMap Part.entries, ⟨[.streamEnd], [], Node.standardHandles⟩) := by
    apply Node.blockEntries_parts
    simp only [block, List.length_cons, List.length_append]
    omega
  have hroot : Node.root? (.mappingStart :: block) Node.standardHandles
      = some (.mapping (parts.flatMap Part.entries)) := by
    rw [Node.root?, Node.parse_mapping false hblock]
    rfl
  rw [document?, htokens]
  simp [Node.directives, hroot]

end Linewise.Yaml

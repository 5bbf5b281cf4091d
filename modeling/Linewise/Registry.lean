import Linewise.Transform

/-!
# The registry of transformations

Transformations are found by the name they are registered under, which need not
be the name they give themselves. Registering a name again replaces what it
stood for. Names are listed in byte order.

## Main definitions

* `Registry` — the registered transformations, in the order of their names.
* `Registry.register`, `Registry.find?`, `Registry.names`, `Registry.list`.
* `Registry.builtin` — the registry the program starts with.
-/

namespace Linewise

/-- **The registered transformations**, in byte order of the names they are registered under. -/
structure Registry where
  /-- Names and what they stand for. -/
  entries : List (Bytes × Transform)

namespace Registry

/-- A list of entries with one more, in its place; an entry of the same name is replaced. -/
def insert (name : Bytes) (transform : Transform) :
    List (Bytes × Transform) → List (Bytes × Transform)
  | [] => [(name, transform)]
  | entry :: rest =>
    if name = entry.1 then (name, transform) :: rest
    else if Bytes.le name entry.1 then (name, transform) :: entry :: rest
    else entry :: insert name transform rest

/-- The empty registry. -/
def empty : Registry := ⟨[]⟩

/-- Makes a transformation available under a name. -/
def register (registry : Registry) (name : Bytes) (transform : Transform) : Registry :=
  ⟨insert name transform registry.entries⟩

/-- **The registry the program starts with.** -/
def builtin : Registry :=
  (empty.register Transform.binary.name Transform.binary).register Transform.squeeze.name
    Transform.squeeze

/-- The registered names, in byte order. -/
def names (registry : Registry) : List Bytes :=
  registry.entries.map Prod.fst

/-- What a name stands for. -/
def find? (registry : Registry) (name : Bytes) : Option Transform :=
  (registry.entries.find? fun entry => entry.1 = name).map Prod.snd

/-- What a name stands for; a name that is not registered is a failure that lists those that
are. -/
def get (registry : Registry) (name : Bytes) : Except Fault Transform :=
  match registry.find? name with
  | some transform => .ok transform
  | none => .error (.unknownTransform name registry.names)

/-- A registered name with the description of what it stands for. -/
structure Info where
  /-- The name it is registered under. -/
  name : Bytes
  /-- One line on what it does. -/
  description : Bytes
deriving DecidableEq, Repr

/-- All registered transformations, in byte order of their names. -/
def list (registry : Registry) : List Info :=
  registry.entries.map fun entry => ⟨entry.1, entry.2.description⟩

end Registry

end Linewise

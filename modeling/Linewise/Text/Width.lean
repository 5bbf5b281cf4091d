import Linewise.Text.Cluster
import Linewise.Text.Rune

/-!
# The width of a line on a terminal

A line fills as many cells as its clusters are wide. Control characters and
terminal control sequences fill none.

## Main definitions

* `Width.ofCluster` — the cells of the cluster a text begins with.
* `displayWidth` — the cells of a line.
-/

namespace Linewise

namespace Width

/-- The cells of a single character of a class. -/
def ofCode (class' : Cluster.Class) (code : Nat) : Nat :=
  match class' with
  | .control | .extend | .joiner => 0
  | .regional => 2
  | .pictograph => if Cluster.isEmoji code then 2 else 1
  | _ =>
    if code = 0x2E3A then 3
    else if code = 0x2E3B then 4
    else if Cluster.isWide code then 2
    else 1

/-- The cells of a cluster after one more character: a pictograph takes the presentation that a
selector asks for, a flag and a Hangul syllable do not grow, and anything else does. -/
def grow (first : Cluster.Class) (cells : Nat) (class' : Cluster.Class) (code : Nat) : Nat :=
  if first = .pictograph then
    if code = 0xFE0E then 1 else if code = 0xFE0F then 2 else cells
  else if first = .regional || first = .hangulL then cells
  else cells + ofCode class' code

/-- The rest of a cluster: its cells and its length in bytes. -/
def clusterLoop (first : Cluster.Class) : (state : Cluster.State) → (cells length : Nat) →
    List Rune → Nat × Nat
  | _, cells, length, [] => (cells, length)
  | state, cells, length, r :: rest =>
    let code := r.toChar.toNat
    let class' := Cluster.classOf code
    if Cluster.joins state class' then
      clusterLoop first (state.next class') (grow first cells class' code)
        (length + r.bytes.length) rest
    else (cells, length)

/-- The cells and the length in bytes of the cluster that a text begins with. -/
def ofCluster : List Rune → Nat × Nat
  | [] => (0, 0)
  | r :: rest =>
    let code := r.toChar.toNat
    let first := Cluster.classOf code
    clusterLoop first (.first first) (ofCode first code) r.bytes.length rest

/-- **Where a terminal is in a control sequence.** -/
inductive Mode where
  /-- In plain text. -/
  | ground
  /-- After an escape character. -/
  | escape
  /-- After an escape character and an intermediate byte. -/
  | intermediate
  /-- In a sequence with parameters. -/
  | parameters
  /-- In an operating system command, which a bell may end. -/
  | command
  /-- In another control string. -/
  | string
deriving DecidableEq, Repr

/-- Is the terminal in a control string, where any byte but the ending ones is taken? -/
def Mode.isString : Mode → Bool
  | command | string => true
  | _ => false

/-- The mode after a byte that begins no cluster. -/
def Mode.next (mode : Mode) (b : UInt8) : Mode :=
  if b = 0x18 || b = 0x1A || b = 0x9C then ground
  else if b = 0x1B then escape
  else if mode = command then if b = 0x07 then ground else command
  else if mode = string then string
  else if b = 0x9B then parameters
  else if b = 0x9D then command
  else if b = 0x90 || b = 0x98 || b = 0x9E || b = 0x9F then string
  else if 0x80 ≤ b then ground
  else if b < 0x20 || b = 0x7F then mode
  else
    match mode with
    | escape =>
      if b < 0x30 then intermediate
      else if b = ascii '[' then parameters
      else if b = ascii ']' then command
      else if b = ascii 'P' || b = ascii 'X' || b = ascii '^' || b = ascii '_' then string
      else ground
    | intermediate => if b < 0x30 then intermediate else ground
    | parameters => if b < 0x40 then parameters else ground
    | _ => ground

/-- Does the byte begin the spelling of a character of two bytes or more? -/
def isLead (b : UInt8) : Bool :=
  0xC2 ≤ b && b ≤ 0xF4

/-- One pass of `displayWidth`: `skip` bytes belong to a cluster already counted. -/
def loop : (mode : Mode) → (cells skip : Nat) → Bytes → Nat
  | _, cells, _, [] => cells
  | mode, cells, skip + 1, _ :: rest => loop mode cells skip rest
  | mode, cells, 0, b :: rest =>
    if isLead b && !mode.isString then
      let cluster := ofCluster (runes (b :: rest))
      loop .ground (cells + cluster.1) (cluster.2 - 1) rest
    else
      let cell := if mode = .ground && 0x20 ≤ b && b < 0x7F then 1 else 0
      loop (mode.next b) (cells + cell) 0 rest

end Width

/-- **The cells that a line fills on a terminal.** -/
def displayWidth (line : Bytes) : Nat :=
  Width.loop .ground 0 0 line

end Linewise

import ChipEight.Yaml.Node.Reader
import ChipEight.Yaml.Token.Scan

/-!
# References in YAML texts

An anchor gets a number: how many names anchors before it have. A name that is given again adds none
to these, so anchors may come to share a number. A reference carries the number that its name has
where it stands, and leads to the last node of the whole text whose anchor has this number.
-/
namespace ChipEight.Yaml

/-- The names of the anchors so far with their numbers, each name once. -/
abbrev AnchorNames := List (String × Nat)

/-- The names behind an anchor, with its number. -/
def AnchorNames.add (names : AnchorNames) : Option String → Option Nat × AnchorNames
  | none => (none, names)
  | some name => (some names.length, (name, names.length) :: names.filter (·.1 ≠ name))

namespace Node

mutual

/-- A node with numbers for names, and the names behind it. There must be an anchor before each
reference to it. -/
def number? (names : AnchorNames) : Node String → Option (Node Nat × AnchorNames)
  | .reference name => (names.lookup name).map fun number => (.reference number, names)
  | .scalar p style text =>
    let (anchor, names) := names.add p.anchor
    some (.scalar ⟨anchor, p.tag⟩ style text, names)
  | .list p items => do
    let (anchor, names) := names.add p.anchor
    let (items, names) ← numberItems? names items
    return (.list ⟨anchor, p.tag⟩ items, names)
  | .record p entries => do
    let (anchor, names) := names.add p.anchor
    let (entries, names) ← numberEntries? names entries
    return (.record ⟨anchor, p.tag⟩ entries, names)

def numberItems? (names : AnchorNames) :
    List (Node String) → Option (List (Node Nat) × AnchorNames)
  | [] => some ([], names)
  | item :: items => do
    let (item, names) ← number? names item
    let (items, names) ← numberItems? names items
    return (item :: items, names)

def numberEntries? (names : AnchorNames) :
    List (Node String × Node String) → Option (List (Node Nat × Node Nat) × AnchorNames)
  | [] => some ([], names)
  | (key, value) :: entries => do
    let (key, names) ← number? names key
    let (value, names) ← number? names value
    let (entries, names) ← numberEntries? names entries
    return ((key, value) :: entries, names)

end

def anchor : Node Nat → Option Nat
  | .reference _ => none
  | .scalar p _ _ => p.anchor
  | .list p _ => p.anchor
  | .record p _ => p.anchor

mutual

/-- The nodes within a node in front of some others, in the order of the text, itself first. -/
def nodes (node : Node Nat) (others : List (Node Nat)) : List (Node Nat) :=
  match node with
  | .reference number => .reference number :: others
  | .scalar p style text => .scalar p style text :: others
  | .list p items => .list p items :: itemNodes items others
  | .record p entries => .record p entries :: entryNodes entries others

def itemNodes (items : List (Node Nat)) (others : List (Node Nat)) : List (Node Nat) :=
  match items with
  | [] => others
  | item :: items => nodes item (itemNodes items others)

def entryNodes (entries : List (Node Nat × Node Nat)) (others : List (Node Nat)) :
    List (Node Nat) :=
  match entries with
  | [] => others
  | (key, value) :: entries => nodes key (nodes value (entryNodes entries others))

end

end Node

/-- The nodes of a text and where its references lead. -/
structure Graph where
  root : Node Nat
  /-- The nodes with anchors by their numbers, the last one of the text first. -/
  anchored : List (Nat × Node Nat)
  maxFollowed : Nat

/-- What is read with a count of the references that were followed, if there is anything to be
read. -/
abbrev Walk (α : Type) := StateT Nat Option α

namespace Graph

/-- The graph of a node. References may be followed a hundred times as often as the node is long. -/
def ofNode? (node : Node String) : Option Graph := do
  let (root, _) ← node.number? []
  let anchored := (root.nodes []).filterMap fun node => node.anchor.map (·, node)
  return ⟨root, anchored.reverse, 100 * root.extent⟩

/-- The graph of a text. Where there is no document it is the one of a node that was left out. -/
def read? (text : String) : Option Graph := do
  let tokens ← Token.scan? text.toList
  ofNode? ((← Node.ofTokens? tokens).getD .omitted)

/-- The node itself or what it refers to. -/
def follow (g : Graph) : Node Nat → Walk (Node Nat)
  | .reference number => fun followed =>
    if followed < g.maxFollowed then (g.anchored.lookup number).map (·, followed + 1) else none
  | node => pure node

end Graph

end ChipEight.Yaml

import ChipEight.Yaml.Graph
import ChipEight.Yaml.Scalar

/-!
# Values of YAML texts

What the nodes of a text mean to a reader that expects nothing in particular: the tag and the form
of a scalar tell what kind of value it is. A reader that expects a number or a truth value looks for
it in any plain scalar, and in a block whose lines are kept if its tag says so.
-/
namespace ChipEight.Yaml

inductive Value
  | null
  | boolean (value : Bool)
  /-- A whole number of at most sixty-four bits. -/
  | integer (value : Int)
  | real (written : String)
  | text (value : String)
  | list (items : List Value)
  | record (entries : List (Value × Value))

namespace Value

/-- A whole number as a value. One that has more than sixty-four bits, but not more than a hundred
and twenty-eight, has no value. -/
def ofInteger? (n : Integer) : Option Value := if n.fits 64 then some (.integer n.toInt) else none

/-- The value of a scalar by its form alone. Whole numbers beyond a hundred and twenty-eight bits
are real. -/
def ofForm? (text : String) : Option Value :=
  if text = "" ∨ Scalar.isNull text then some .null
  else
    match Scalar.boolean? text, (Scalar.integer? text).filter (·.fits 128) with
    | some b, _ => some (.boolean b)
    | none, some n => ofInteger? n
    | none, none => some (if Scalar.isReal text then .real text else .text text)

/-- The value of a scalar with a tag. It must be what the tag says. -/
def ofTagged? (tag : Tag) (style : Style) (text : String) : Option Value :=
  if tag = .boolean then (Scalar.boolean? text).map .boolean
  else if tag = .integer then (Scalar.integer? text).bind ofInteger?
  else if tag = .real then if Scalar.isReal text then some (.real text) else none
  else if tag = .null then if Scalar.isNull text then some .null else none
  else if tag.isPrivate ∧ style = .plain then ofForm? text
  else some (.text text)

def ofScalar? (tag : Option Tag) (style : Style) (text : String) : Option Value :=
  match tag with
  | some tag => ofTagged? tag style text
  | none => if style = .plain then ofForm? text else some (.text text)

end Value

namespace Properties

/-- Whether there is a tag that means nothing here: a node with such a tag has no value. -/
def isForeign (p : Properties Nat) : Bool := p.tag.any fun t => t.isPrivate ∧ t.isText

end Properties

namespace Graph

/-- The value of a scalar, unless its tag means nothing here. -/
def scalar (p : Properties Nat) (style : Style) (text : String) : Walk Value :=
  if p.isForeign then failure else StateT.lift (Value.ofScalar? p.tag style text)

/-- The value of a node whose lists and records are nested no deeper than some bound, references
followed. -/
def value (g : Graph) : Nat → Node Nat → Walk Value
  | 0, node => do
    match ← g.follow node with
    | .scalar p style text => scalar p style text
    | _ => failure
  | depth + 1, node => do
    match ← g.follow node with
    | .scalar p style text => scalar p style text
    | .list p items =>
      if p.isForeign then failure else return .list (← items.mapM (g.value depth))
    | .record p entries =>
      if p.isForeign then failure
      else return .record (← entries.mapM fun (key, value) => do
        return (← g.value depth key, ← g.value depth value))
    | .reference _ => failure

/-- The text of a scalar, whatever its tag and its form. -/
def text (g : Graph) (node : Node Nat) : Walk String := do
  match ← g.follow node with
  | .scalar _ _ text => return text
  | _ => failure

/-- The text of a scalar in which a value of an expected kind may be written. -/
def expected (g : Graph) (kind : Tag) (node : Node Nat) : Walk String := do
  match ← g.follow node with
  | .scalar p style text =>
    if style = .plain ∨ (style = .literal ∧ p.tag = some kind) then return text else failure
  | _ => failure

def integer (g : Graph) (node : Node Nat) : Walk Integer := do
  StateT.lift (Scalar.integer? (← g.expected .integer node))

def boolean (g : Graph) (node : Node Nat) : Walk Bool := do
  StateT.lift (Scalar.boolean? (← g.expected .boolean node))

def fields (g : Graph) (entries : List (Node Nat × Node Nat)) : Walk (List (String × Node Nat)) :=
  entries.mapM fun (key, value) => return (← g.text key, value)

end Graph

end ChipEight.Yaml

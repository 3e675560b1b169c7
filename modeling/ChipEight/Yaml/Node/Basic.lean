import ChipEight.Yaml.Token.Basic

/-!
# Nodes of YAML texts

A text as its author structured it: scalars, lists and records with their tags and anchors, and
references to anchors. What a scalar means is not yet decided. Anchors are names where a text is
read and numbers once it is known where references lead. Directives before a document may declare
shorthands for tags; two need no declaration.
-/
namespace ChipEight.Yaml

structure Properties (Anchor : Type) where
  anchor : Option Anchor
  tag : Option Tag

namespace Properties

def none {Anchor : Type} : Properties Anchor := ⟨.none, .none⟩

def isEmpty {Anchor : Type} (p : Properties Anchor) : Bool := p.anchor.isNone ∧ p.tag.isNone

end Properties

inductive Node (Anchor : Type)
  | reference (anchor : Anchor)
  | scalar (properties : Properties Anchor) (style : Style) (text : String)
  | list (properties : Properties Anchor) (items : List (Node Anchor))
  | record (properties : Properties Anchor) (entries : List (Node Anchor × Node Anchor))

namespace Node

/-- What is read where a node was left out. -/
def omitted {Anchor : Type} : Node Anchor := .scalar .none .plain ""

mutual

/-- The number of marks in a listing of the node: one for a scalar or a reference, two for a list or
a record besides those of its parts. -/
def extent {Anchor : Type} : Node Anchor → Nat
  | .reference _ => 1
  | .scalar .. => 1
  | .list _ items => 2 + itemsExtent items
  | .record _ entries => 2 + entriesExtent entries

def itemsExtent {Anchor : Type} : List (Node Anchor) → Nat
  | [] => 0
  | item :: items => extent item + itemsExtent items

def entriesExtent {Anchor : Type} : List (Node Anchor × Node Anchor) → Nat
  | [] => 0
  | (key, value) :: entries => extent key + extent value + entriesExtent entries

end

end Node

/-- The tags that shorthands stand for. -/
abbrev Shorthands := List (String × List UInt8)

namespace Shorthands

/-- The shorthands that need no directive. -/
def standard : Shorthands :=
  [("!", (Tag.ofAscii "!").bytes), ("!!", (Tag.ofAscii "tag:yaml.org,2002:").bytes)]

/-- A tag in full. -/
def expand? (s : Shorthands) (handle : String) (suffix : List UInt8) : Option Tag :=
  if handle = "" then some ⟨suffix⟩ else (s.lookup handle).map fun stem => ⟨stem ++ suffix⟩

/-- The shorthands that directives declare. The version may be given once and must be 1.1 or 1.2; a
shorthand may be declared once. -/
def ofDirectives? (versioned : Bool) (s : Shorthands) : List Token → Option Shorthands
  | [] => some (s ++ standard)
  | .version major minor :: rest =>
    if ¬ versioned ∧ major = 1 ∧ (minor = 1 ∨ minor = 2) then ofDirectives? true s rest else none
  | .shorthand handle stem :: rest =>
    if (s.lookup handle).isSome then none else ofDirectives? versioned ((handle, stem) :: s) rest
  | _ => none

end Shorthands

end ChipEight.Yaml

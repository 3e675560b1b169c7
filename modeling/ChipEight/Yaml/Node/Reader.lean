import ChipEight.Yaml.Node.Basic

/-!
# Reading nodes

The grammar of nodes over tokens. Parts of a list or a record may be left out, but an item within
brackets only behind the last comma. A text holds at most one document.
-/
namespace ChipEight.Yaml

def Token.isDirective : Token → Bool
  | .version .. | .shorthand .. => true
  | _ => false

namespace Node

/-- What stands before a node. An anchor and a tag may come in either order. -/
def properties? (s : Shorthands) : List Token → Option (Properties String × List Token)
  | .anchor name :: .tag handle suffix :: rest =>
    (s.expand? handle suffix).map fun tag => (⟨some name, some tag⟩, rest)
  | .tag handle suffix :: .anchor name :: rest =>
    (s.expand? handle suffix).map fun tag => (⟨some name, some tag⟩, rest)
  | .anchor name :: rest => some (⟨some name, none⟩, rest)
  | .tag handle suffix :: rest =>
    (s.expand? handle suffix).map fun tag => (⟨none, some tag⟩, rest)
  | rest => some (⟨none, none⟩, rest)

/-- The tokens behind the comma that parts the next item from those before it, if there are any. -/
def afterComma? (first : Bool) : List Token → Option (List Token)
  | .comma :: rest => if first then none else some rest
  | rest => if first then some rest else none

mutual

/-- The node at the front of some tokens. `block` tells whether it may be a block, and `flat`
whether it may be a list at the column of the record around it. -/
def read? (s : Shorthands) (block flat : Bool) :
    Nat → List Token → Option (Node String × List Token)
  | 0, _ => none
  | _, .alias name :: rest => some (.reference name, rest)
  | fuel + 1, tokens => do
    let (p, tokens) ← properties? s tokens
    match tokens, block, flat with
    | .scalar style text :: rest, _, _ => return (.scalar p style text, rest)
    | .listStart :: rest, _, _ =>
      let (items, rest) ← items? s true fuel rest
      return (.list p items, rest)
    | .recordStart :: rest, _, _ =>
      let (entries, rest) ← entries? s true fuel rest
      return (.record p entries, rest)
    | .dash :: _, _, true =>
      let (items, rest) ← flatItems? s fuel tokens
      return (.list p items, rest)
    | .blockListStart :: rest, true, _ =>
      let (items, rest) ← blockItems? s fuel rest
      return (.list p items, rest)
    | .blockRecordStart :: rest, true, _ =>
      let (entries, rest) ← blockEntries? s fuel rest
      return (.record p entries, rest)
    | _, _, _ => if p.isEmpty then none else return (.scalar p .plain "", tokens)

/-- The same, where a node may be left out before some tokens. -/
def part? (s : Shorthands) (block flat : Bool) (ends : List Token) :
    Nat → List Token → Option (Node String × List Token)
  | 0, _ => none
  | fuel + 1, tokens =>
    if tokens.head?.any (· ∈ ends) then some (omitted, tokens)
    else read? s block flat fuel tokens

/-- The value of an entry, where it and its mark may be left out. -/
def valuePart? (s : Shorthands) (block : Bool) (ends : List Token) :
    Nat → List Token → Option (Node String × List Token)
  | fuel + 1, .value :: rest => part? s block block ends fuel rest
  | _, tokens => some (omitted, tokens)

def blockItems? (s : Shorthands) : Nat → List Token → Option (List (Node String) × List Token)
  | _, .blockEnd :: rest => some ([], rest)
  | fuel + 1, .dash :: rest => do
    let (item, rest) ← part? s true false [.dash, .blockEnd] fuel rest
    let (items, rest) ← blockItems? s fuel rest
    return (item :: items, rest)
  | _, _ => none

/-- The items of a list at the column of its record, which has no end of its own. -/
def flatItems? (s : Shorthands) : Nat → List Token → Option (List (Node String) × List Token)
  | fuel + 1, .dash :: rest => do
    let (item, rest) ← part? s true false [.dash, .key, .value, .blockEnd] fuel rest
    let (items, rest) ← flatItems? s fuel rest
    return (item :: items, rest)
  | 0, .dash :: _ => none
  | _, tokens => some ([], tokens)

def blockEntries? (s : Shorthands) :
    Nat → List Token → Option (List (Node String × Node String) × List Token)
  | _, .blockEnd :: rest => some ([], rest)
  | fuel + 1, .key :: rest => do
    let (key, rest) ← part? s true true [.key, .value, .blockEnd] fuel rest
    let (value, rest) ← valuePart? s true [.key, .value, .blockEnd] fuel rest
    let (entries, rest) ← blockEntries? s fuel rest
    return ((key, value) :: entries, rest)
  | _, _ => none

/-- The items within square brackets. An item may be a record of one entry. -/
def items? (s : Shorthands) (first : Bool) :
    Nat → List Token → Option (List (Node String) × List Token)
  | 0, _ => none
  | _, .listEnd :: rest => some ([], rest)
  | fuel + 1, tokens => do
    match ← afterComma? first tokens with
    | .listEnd :: rest => return ([], rest)
    | .key :: rest =>
      let (entry, rest) ← entry? s fuel rest
      let (items, rest) ← items? s false fuel rest
      return (.record .none [entry] :: items, rest)
    | tokens =>
      let (item, rest) ← read? s false false fuel tokens
      let (items, rest) ← items? s false fuel rest
      return (item :: items, rest)

/-- The entry behind the mark of its key, within square brackets. A key that was left out takes the
token behind it along. -/
def entry? (s : Shorthands) : Nat → List Token → Option ((Node String × Node String) × List Token)
  | 0, _ => none
  | fuel + 1, tokens => do
    let leftOut := tokens.head?.any (· ∈ [Token.value, .comma, .listEnd])
    let (key, rest) ←
      if leftOut then some (omitted, tokens.tail) else read? s false false fuel tokens
    let (value, rest) ← valuePart? s false [.comma, .listEnd] fuel rest
    return ((key, value), rest)

def entries? (s : Shorthands) (first : Bool) :
    Nat → List Token → Option (List (Node String × Node String) × List Token)
  | 0, _ => none
  | _, .recordEnd :: rest => some ([], rest)
  | fuel + 1, tokens => do
    match ← afterComma? first tokens with
    | .recordEnd :: rest => return ([], rest)
    | .key :: rest =>
      let (key, rest) ← part? s false false [.value, .comma, .recordEnd] fuel rest
      let (value, rest) ← valuePart? s false [.comma, .recordEnd] fuel rest
      let (entries, rest) ← entries? s false fuel rest
      return ((key, value) :: entries, rest)
    | tokens =>
      let (key, rest) ← read? s false false fuel tokens
      let (entries, rest) ← entries? s false fuel rest
      return ((key, omitted) :: entries, rest)

end

/-- The node of a document behind the mark that opens it, if it has one. -/
def content? (s : Shorthands) (marked : Bool) (tokens : List Token) :
    Option (Node String × List Token) :=
  let ended := tokens.head?.all fun t => t.isDirective ∨ t = .documentStart ∨ t = .documentEnd
  if marked ∧ ended then some (omitted, tokens)
  else read? s true false (3 * tokens.length + 3) tokens

/-- The node of the only document, nothing if there is no document. Directives need the mark that
opens a document. Every call of the grammar takes a token or leads to one that does within two
further calls, so three times the number of tokens bounds the calls. -/
def ofTokens? (tokens : List Token) : Option (Option (Node String)) := do
  if tokens = [] then return none
  let directives := tokens.takeWhile Token.isDirective
  let shorthands ← Shorthands.ofDirectives? false [] directives
  let (node, rest) ← match tokens.dropWhile Token.isDirective with
    | .documentStart :: rest => content? shorthands true rest
    | rest => if directives = [] then content? shorthands false rest else none
  if rest.all (· = .documentEnd) then return some node else none

end Node

end ChipEight.Yaml

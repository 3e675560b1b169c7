import ChipEight.Proofs.Yaml.Tokens

/-!
# The nodes of written documents

The tokens of a written document are those of one node. It has no tags and no anchors, and no
reference stands in it, so its graph is the node itself. Its value is null or a whole number exactly
where the document is.
-/
namespace ChipEight

open Yaml (Node Graph Value Shorthands)

namespace Document

mutual

/-- The node of a document as it is written. -/
def node {Anchor : Type} : Document → Node Anchor
  | .text s => .scalar .none .quoted s
  | .list items => .list .none (itemsNodes items)
  | .record fields => .record .none (fieldsNodes fields)
  | d => .scalar .none .plain (word d)

def itemsNodes {Anchor : Type} : List Document → List (Node Anchor)
  | [] => []
  | item :: items => node item :: itemsNodes items

def fieldsNodes {Anchor : Type} : List (String × Document) → List (Node Anchor × Node Anchor)
  | [] => []
  | (name, value) :: fields => (.scalar .none .quoted name, node value) :: fieldsNodes fields

end

theorem node_of_isWord {Anchor : Type} {d : Document} (h : d.isWord) :
    (d.node : Node Anchor) = .scalar .none .plain d.word := by
  cases d with
  | null | boolean | integer | real => rfl
  | text | list | record => cases h

end Document

namespace Yaml.Node

/-- Whether a node starts with a token, in a text without blocks. -/
def opens : Token → Bool
  | .scalar .. | .listStart | .recordStart => true
  | _ => false

theorem opens_tokens (d : Document) : ∃ t ts, d.tokens = t :: ts ∧ opens t := by
  cases d with
  | null | boolean | integer | real | text | list | record => exact ⟨_, _, rfl, rfl⟩

section

variable (s : Shorthands) (block flat first : Bool) (fuel : Nat) (rest : List Token)

theorem read?_scalar (style : Style) (text : String) :
    read? s block flat (fuel + 1) (.scalar style text :: rest) =
      some (.scalar .none style text, rest) := by
  rw [read?] <;> simp [properties?, Properties.none]

theorem read?_list :
    read? s block flat (fuel + 1) (.listStart :: rest) =
      (items? s true fuel rest).map fun (items, rest) => (.list .none items, rest) := by
  rw [read?] <;> simp [properties?, Properties.none]
  cases items? s true fuel rest <;> rfl

theorem read?_record :
    read? s block flat (fuel + 1) (.recordStart :: rest) =
      (entries? s true fuel rest).map fun (entries, rest) => (.record .none entries, rest) := by
  rw [read?] <;> simp [properties?, Properties.none]
  cases entries? s true fuel rest <;> rfl

theorem items?_end : items? s first (fuel + 1) (.listEnd :: rest) = some ([], rest) := by
  rw [items?]
  nofun

theorem entries?_end : entries? s first (fuel + 1) (.recordEnd :: rest) = some ([], rest) := by
  rw [entries?]
  nofun

theorem afterComma?_append {t : Token} (ht : t ≠ .comma) :
    afterComma? first ((if first then [] else [.comma]) ++ t :: rest) = some (t :: rest) := by
  cases first with
  | false => rfl
  | true =>
    unfold afterComma?
    split
    · rename_i heq
      exact absurd (List.cons.inj heq).1 ht
    · rfl

theorem items?_item {t : Token} (ht : opens t) :
    items? s first (fuel + 1) ((if first then [] else [.comma]) ++ t :: rest) = do
      let (item, rest) ← read? s false false fuel (t :: rest)
      let (items, rest) ← items? s false fuel rest
      return (item :: items, rest) := by
  have hcomma := afterComma?_append first rest (t := t) (by rintro rfl; cases ht)
  have hne : t ≠ .listEnd := by
    rintro rfl
    cases ht
  rw [items?, hcomma]
  · cases t with
    | scalar | listStart | recordStart => rfl
    | _ => cases ht
  · cases first <;> simp [hne]

theorem entries?_entry :
    entries? s first (fuel + 1) ((if first then [] else [.comma]) ++ .key :: rest) = do
      let (key, rest) ← part? s false false [.value, .comma, .recordEnd] fuel rest
      let (value, rest) ← valuePart? s false [.comma, .recordEnd] fuel rest
      let (entries, rest) ← entries? s false fuel rest
      return ((key, value) :: entries, rest) := by
  have hcomma := afterComma?_append first rest (t := .key) nofun
  rw [entries?, hcomma]
  · rfl
  · cases first <;> simp

theorem part?_opens {t : Token} (ht : opens t) {ends : List Token} (hends : ∀ t ∈ ends, ¬ opens t) :
    part? s block flat ends (fuel + 1) (t :: rest) = read? s block flat fuel (t :: rest) := by
  rw [part?, if_neg]
  simpa using fun hmem => hends t hmem ht

theorem valuePart?_opens {t : Token} (ht : opens t) {ends : List Token}
    (hends : ∀ t ∈ ends, ¬ opens t) :
    valuePart? s block ends (fuel + 2) (.value :: t :: rest) =
      read? s block block fuel (t :: rest) := by
  rw [valuePart?, part?_opens s block block fuel rest ht hends]

end

open Document (itemsTokens fieldsTokens itemsNodes fieldsNodes)

section

variable (s : Shorthands) (rest : List Token)

/-- What is shown of each document by induction over its parts: two calls for each token are enough
to read its node. -/
def ReadBack (d : Document) : Prop :=
  ∀ (block flat : Bool) (fuel : Nat) (rest : List Token), 2 * d.tokens.length ≤ fuel →
    read? s block flat fuel (d.tokens ++ rest) = some (d.node, rest)

theorem length_tokens_pos (d : Document) : 0 < d.tokens.length := by
  obtain ⟨t, ts, heq, -⟩ := opens_tokens d
  rw [heq]
  exact Nat.succ_pos _

theorem items?_itemsTokens {items : List Document} (h : ∀ item ∈ items, ReadBack s item)
    (first : Bool) (fuel : Nat) (hfuel : 2 * (itemsTokens first items).length < fuel) :
    items? s first fuel (itemsTokens first items ++ .listEnd :: rest) =
      some (itemsNodes items, rest) := by
  induction items generalizing first fuel with
  | nil =>
    obtain ⟨fuel, rfl⟩ := Nat.exists_eq_add_one_of_ne_zero (Nat.ne_zero_of_lt hfuel)
    exact items?_end s first fuel rest
  | cons item items ih =>
    obtain ⟨fuel, rfl⟩ := Nat.exists_eq_add_one_of_ne_zero (Nat.ne_zero_of_lt hfuel)
    obtain ⟨hitem, hitems⟩ := List.forall_mem_cons.mp h
    obtain ⟨t, ts, hts, ht⟩ := opens_tokens item
    have hpos := length_tokens_pos item
    simp only [itemsTokens, List.length_append] at hfuel
    have hread := hitem false false fuel (itemsTokens false items ++ .listEnd :: rest) (by omega)
    have hrest := ih hitems false fuel (by omega)
    rw [itemsTokens, List.append_assoc, List.append_assoc]
    rw [hts] at hread ⊢
    rw [List.cons_append] at hread ⊢
    rw [items?_item s first fuel _ ht, hread]
    simp [hrest, itemsNodes]

theorem entries?_fieldsTokens {fields : List (String × Document)}
    (h : ∀ field ∈ fields, ReadBack s field.2) (first : Bool) (fuel : Nat)
    (hfuel : 2 * (fieldsTokens first fields).length < fuel) :
    entries? s first fuel (fieldsTokens first fields ++ .recordEnd :: rest) =
      some (fieldsNodes fields, rest) := by
  induction fields generalizing first fuel with
  | nil =>
    obtain ⟨fuel, rfl⟩ := Nat.exists_eq_add_one_of_ne_zero (Nat.ne_zero_of_lt hfuel)
    exact entries?_end s first fuel rest
  | cons field fields ih =>
    obtain ⟨name, value⟩ := field
    obtain ⟨hvalue, hfields⟩ := List.forall_mem_cons.mp h
    obtain ⟨t, ts, hts, ht⟩ := opens_tokens value
    simp only [fieldsTokens, List.length_append, List.length_cons, List.length_nil] at hfuel
    obtain ⟨fuel, rfl⟩ : ∃ k, fuel = k + 3 := ⟨fuel - 3, by omega⟩
    have hread := hvalue false false fuel (fieldsTokens false fields ++ .recordEnd :: rest)
      (by dsimp only; omega)
    have hrest := ih hfields false (fuel + 2) (by omega)
    rw [fieldsTokens, List.append_assoc, List.append_assoc, List.append_assoc]
    rw [hts, List.cons_append] at hread ⊢
    rw [List.cons_append, entries?_entry s first (fuel + 2)]
    simp only [List.cons_append, List.nil_append]
    rw [part?_opens s false false _ _ rfl (by decide), read?_scalar]
    simp only [Option.bind_eq_bind, Option.bind_some]
    rw [valuePart?_opens s false fuel _ ht (by decide), hread]
    simp [hrest, fieldsNodes]

theorem readBack_of_isWord {d : Document} (h : d.isWord) : ReadBack s d := by
  intro block flat fuel rest hfuel
  rw [Document.tokens_of_isWord h] at hfuel ⊢
  obtain ⟨fuel, rfl⟩ : ∃ k, fuel = k + 1 := ⟨fuel - 1, by simp at hfuel; omega⟩
  rw [Document.node_of_isWord h]
  exact read?_scalar s block flat fuel rest .plain d.word

theorem readBack (d : Document) : ReadBack s d := by
  induction d using Document.induction with
  | null | boolean | integer | real => exact readBack_of_isWord s rfl
  | text text =>
    intro block flat fuel rest hfuel
    obtain ⟨fuel, rfl⟩ : ∃ k, fuel = k + 1 := ⟨fuel - 1, by simp [Document.tokens] at hfuel; omega⟩
    exact read?_scalar s block flat fuel rest .quoted text
  | list items ih =>
    intro block flat fuel rest hfuel
    simp only [Document.tokens, List.cons_append, List.length_cons, List.length_append] at hfuel
    obtain ⟨fuel, rfl⟩ : ∃ k, fuel = k + 1 := ⟨fuel - 1, by omega⟩
    have hitems := items?_itemsTokens s rest ih true fuel (by omega)
    rw [Document.tokens, List.cons_append, List.cons_append, List.append_assoc, read?_list]
    simp [hitems, Document.node]
  | record fields ih =>
    intro block flat fuel rest hfuel
    simp only [Document.tokens, List.cons_append, List.length_cons, List.length_append] at hfuel
    obtain ⟨fuel, rfl⟩ : ∃ k, fuel = k + 1 := ⟨fuel - 1, by omega⟩
    have hfields := entries?_fieldsTokens s rest ih true fuel (by omega)
    rw [Document.tokens, List.cons_append, List.cons_append, List.append_assoc, read?_record]
    simp [hfields, Document.node]

/-- The tokens of a document are one document, without directives. -/
theorem ofTokens?_tokens (d : Document) : ofTokens? d.tokens = some (some d.node) := by
  obtain ⟨t, ts, hts, ht⟩ := opens_tokens d
  have hread := readBack Shorthands.standard d true false (3 * d.tokens.length + 3) [] (by omega)
  rw [List.append_nil] at hread
  have hcontent : content? Shorthands.standard false d.tokens = some (d.node, []) := by
    rw [content?]
    simpa using hread
  rw [hts] at hcontent ⊢
  cases t with
  | scalar | listStart | recordStart =>
    simp [ofTokens?, Token.isDirective, Shorthands.ofDirectives?, hcontent]
  | _ => cases ht

end

theorem number?_scalar (names : AnchorNames) (style : Style) (text : String) :
    number? names (.scalar .none style text) = some (.scalar .none style text, names) := rfl

theorem numberItems?_itemsNodes {items : List Document} (names : AnchorNames)
    (h : ∀ item ∈ items, number? names item.node = some (item.node, names)) :
    numberItems? names (itemsNodes items) = some (itemsNodes items, names) := by
  induction items with
  | nil => rfl
  | cons item items ih =>
    obtain ⟨hitem, hitems⟩ := List.forall_mem_cons.mp h
    rw [itemsNodes, itemsNodes, numberItems?, hitem]
    simp [ih hitems]

theorem numberEntries?_fieldsNodes {fields : List (String × Document)} (names : AnchorNames)
    (h : ∀ field ∈ fields, number? names field.2.node = some (field.2.node, names)) :
    numberEntries? names (fieldsNodes fields) = some (fieldsNodes fields, names) := by
  induction fields with
  | nil => rfl
  | cons field fields ih =>
    obtain ⟨hfield, hfields⟩ := List.forall_mem_cons.mp h
    rw [fieldsNodes, fieldsNodes, numberEntries?, number?_scalar]
    simp [hfield, ih hfields]

/-- Without anchors and references numbering changes nothing. -/
theorem number?_node (d : Document) (names : AnchorNames) :
    number? names d.node = some (d.node, names) := by
  induction d using Document.induction with
  | null | boolean | integer | real | text => rfl
  | list items ih =>
    rw [Document.node, Document.node, number?]
    simp [numberItems?_itemsNodes names ih, Properties.none, AnchorNames.add]
  | record fields ih =>
    rw [Document.node, Document.node, number?]
    simp [numberEntries?_fieldsNodes names ih, Properties.none, AnchorNames.add]

end Yaml.Node

namespace Yaml.Graph

/-- The graph of a written document. -/
theorem exists_read?_write {d : Document} (h : d.isPlain) :
    ∃ g, read? d.write = some g ∧ g.root = d.node := by
  rw [read?, Document.scan?_write h]
  simp only [Option.bind_eq_bind, Option.bind_some, Node.ofTokens?_tokens, Option.getD_some,
    ofNode?, Node.number?_node]
  exact ⟨_, rfl, rfl⟩

variable (g : Graph)

theorem follow_node (d : Document) : g.follow d.node = pure d.node := by
  cases d with
  | null | boolean | integer | real | text | list | record => rfl

theorem exists_mapM_eq_pure {m : Type → Type} [Monad m] [LawfulMonad m] {α β : Type} {f : α → m β}
    {l : List α} (h : ∀ a ∈ l, ∃ b, f a = pure b) : ∃ bs, l.mapM f = pure bs := by
  induction l with
  | nil => exact ⟨[], rfl⟩
  | cons a l ih =>
    obtain ⟨⟨b, hb⟩, hl⟩ := List.forall_mem_cons.mp h
    obtain ⟨bs, hbs⟩ := ih hl
    exact ⟨b :: bs, by simp [List.mapM_cons, hb, hbs]⟩

theorem itemsNodes_eq_map {Anchor : Type} (items : List Document) :
    (Document.itemsNodes items : List (Node Anchor)) = items.map Document.node := by
  induction items with
  | nil => rfl
  | cons item items ih => rw [Document.itemsNodes, ih, List.map_cons]

theorem fieldsNodes_eq_map {Anchor : Type} (fields : List (String × Document)) :
    (Document.fieldsNodes fields : List (Node Anchor × Node Anchor)) =
      fields.map fun field => (.scalar .none .quoted field.1, field.2.node) := by
  induction fields with
  | nil => rfl
  | cons field fields ih => rw [Document.fieldsNodes, ih, List.map_cons]

theorem itemsDepth_le {items : List Document} {depth : Nat} :
    Document.itemsDepth items ≤ depth ↔ ∀ item ∈ items, item.depth ≤ depth := by
  induction items with
  | nil => simp [Document.itemsDepth]
  | cons item items ih => simp [Document.itemsDepth, ih]

theorem fieldsDepth_le {fields : List (String × Document)} {depth : Nat} :
    Document.fieldsDepth fields ≤ depth ↔ ∀ field ∈ fields, field.2.depth ≤ depth := by
  induction fields with
  | nil => simp [Document.fieldsDepth]
  | cons field fields ih => simp [Document.fieldsDepth, ih]

theorem value_scalar (depth : Nat) (style : Style) (text : String) :
    g.value depth (.scalar .none style text) = StateT.lift (Value.ofScalar? none style text) := by
  cases depth <;> rfl

theorem value_list (depth : Nat) (items : List (Node Nat)) :
    g.value (depth + 1) (.list .none items) = do
      return .list (← items.mapM (g.value depth)) := rfl

theorem value_record (depth : Nat) (entries : List (Node Nat × Node Nat)) :
    g.value (depth + 1) (.record .none entries) = do
      return .record (← entries.mapM fun (key, value) => do
        return (← g.value depth key, ← g.value depth value)) := rfl

theorem exists_value_of_isWord {d : Document} (hd : d.isWord) (hplain : d.isPlain) (depth : Nat) :
    ∃ v, g.value depth d.node = pure v ∧ d.Agrees v := by
  obtain ⟨v, hv, hagrees⟩ := Document.exists_agrees_word hd hplain
  refine ⟨v, ?_, hagrees⟩
  rw [Document.node_of_isWord hd, value_scalar, Value.ofScalar?, if_pos rfl, hv]
  rfl

/-- A document that is nested no deeper than the bound has a value, and the two agree. -/
theorem exists_value {d : Document} (hplain : d.isPlain) {depth : Nat} (hdepth : d.depth ≤ depth) :
    ∃ v, g.value depth d.node = pure v ∧ d.Agrees v := by
  induction d using Document.induction generalizing depth with
  | null | boolean | integer | real => exact g.exists_value_of_isWord rfl hplain depth
  | text s => exact ⟨.text s, value_scalar g depth .quoted s, ⟨by simp, by simp⟩⟩
  | list items ih =>
    obtain ⟨depth, rfl⟩ := Nat.exists_eq_add_one_of_ne_zero (Nat.ne_zero_of_lt hdepth)
    have hitems := itemsDepth_le.mp (Nat.le_of_succ_le_succ hdepth)
    obtain ⟨vs, hvs⟩ : ∃ vs, (items.map Document.node).mapM (g.value depth) = pure vs := by
      refine exists_mapM_eq_pure fun node hnode => ?_
      obtain ⟨item, hitem, rfl⟩ := List.mem_map.mp hnode
      have hitem' := Document.isPlain_list hplain item hitem
      obtain ⟨v, hv, -⟩ := ih item hitem hitem' (hitems item hitem)
      exact ⟨v, hv⟩
    refine ⟨.list vs, ?_, ⟨by simp, by simp⟩⟩
    rw [Document.node, itemsNodes_eq_map, value_list, hvs]
    rfl
  | record fields ih =>
    obtain ⟨depth, rfl⟩ := Nat.exists_eq_add_one_of_ne_zero (Nat.ne_zero_of_lt hdepth)
    have hfields := fieldsDepth_le.mp (Nat.le_of_succ_le_succ hdepth)
    obtain ⟨vs, hvs⟩ : ∃ vs, (Document.fieldsNodes fields).mapM (fun (key, value) => do
        return (← g.value depth key, ← g.value depth value)) = pure vs := by
      rw [fieldsNodes_eq_map]
      refine exists_mapM_eq_pure fun entry hentry => ?_
      obtain ⟨field, hfield, rfl⟩ := List.mem_map.mp hentry
      have hfield' := (Document.isPlain_record hplain field hfield).2
      obtain ⟨v, hv, -⟩ := ih field hfield hfield' (hfields field hfield)
      exact ⟨(.text field.1, v), by simp only [value_scalar, hv]; rfl⟩
    refine ⟨.record vs, ?_, ⟨by simp, by simp⟩⟩
    rw [Document.node, value_record, hvs]
    rfl

/-- Where a scalar of some kind is expected, only words are looked at. -/
theorem expected_node (kind : Tag) (d : Document) :
    g.expected kind d.node = if d.isWord then pure d.word else failure := by
  cases d with
  | null | boolean | integer | real | text | list | record => rfl

theorem integer_node (d : Document) : g.integer d.node = StateT.lift d.integer? := by
  rw [integer, expected_node, ← Document.integer?_word]
  cases d with
  | null | boolean | integer | real | text | list | record => rfl

theorem boolean_node (d : Document) : g.boolean d.node = StateT.lift d.boolean? := by
  rw [boolean, expected_node, ← Document.boolean?_word]
  cases d with
  | null | boolean | integer | real | text | list | record => rfl

theorem fields_fieldsNodes (fields : List (String × Document)) :
    g.fields (Document.fieldsNodes fields) =
      pure (fields.map fun field => (field.1, field.2.node)) := by
  rw [fieldsNodes_eq_map, Graph.fields]
  induction fields with
  | nil => rfl
  | cons field fields ih =>
    rw [List.map_cons, List.mapM_cons, ih]
    rfl

end Yaml.Graph

end ChipEight

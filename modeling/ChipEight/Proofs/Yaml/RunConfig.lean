import ChipEight.Proofs.Yaml.Nodes
import Mathlib.Data.List.Forall2

/-!
# Run configurations that are written documents

A configuration whose text is a written document gives the options of the document: each number, key
and truth value is read as the document has it, and what is no configuration is refused.
-/
namespace ChipEight

namespace Fields

/-- Entries of the same kind with related values. -/
inductive Entry.Matches {α β : Type} (R : α → β → Prop) : Entry α → Entry β → Prop
  | absent : Matches R .absent .absent
  | once {a : α} {b : β} (h : R a b) : Matches R (.once a) (.once b)
  | repeated : Matches R .repeated .repeated

/-- Fields with the same names and related values have matching entries. -/
theorem find_matches {α β : Type} {R : α → β → Prop} {fields : List (String × α)}
    {fields' : List (String × β)}
    (h : List.Forall₂ (fun field field' => field.1 = field'.1 ∧ R field.2 field'.2) fields fields')
    (name : String) : Entry.Matches R (find fields name) (find fields' name) := by
  have hfilter : List.Forall₂ (fun field field' => field.1 = field'.1 ∧ R field.2 field'.2)
      (fields.filter (·.1 = name)) (fields'.filter (·.1 = name)) := by
    induction h with
    | nil => exact .nil
    | @cons field field' _ _ hfield _ ih =>
      by_cases hname : field.1 = name
      · rw [List.filter_cons_of_pos (by simpa using hname),
          List.filter_cons_of_pos (by simpa [hfield.1] using hname)]
        exact .cons hfield ih
      · rw [List.filter_cons_of_neg (by simpa using hname),
          List.filter_cons_of_neg (by simpa [hfield.1] using hname)]
        exact ih
  unfold find
  generalize fields.filter (·.1 = name) = found at hfilter ⊢
  generalize fields'.filter (·.1 = name) = found' at hfilter ⊢
  cases hfilter with
  | nil => exact .absent
  | cons hfirst hrest =>
    cases hrest with
    | nil => exact .once hfirst.2
    | cons => exact .repeated

end Fields

namespace RunConfig

/-- Whether reading gives a value or is refused, whatever references were followed before. -/
def Yields {α : Type} (r : Reading α) (o : Option α) : Prop :=
  ∀ followed, (r followed).toOption = o.map (·, followed)

namespace Yields

variable {α β : Type}

theorem pure (a : α) : Yields (pure a) (some a) := fun _ => rfl

theorem throw (e : Error) : Yields (throw e : Reading α) none := fun _ => rfl

theorem bind {r : Reading α} {o : Option α} (h : Yields r o) {f : α → Reading β} {f' : α → Option β}
    (hf : ∀ a, o = some a → Yields (f a) (f' a)) : Yields (r >>= f) (o >>= f') := by
  intro followed
  have hr := h followed
  show (r followed >>= fun result => f result.1 result.2).toOption = _
  cases hread : r followed with
  | error e =>
    cases o with
    | none => rfl
    | some a => rw [hread] at hr; cases hr
  | ok result =>
    cases o with
    | none => rw [hread] at hr; cases hr
    | some a =>
      rw [hread] at hr
      obtain rfl : result = (a, followed) := Option.some.inj hr
      exact hf a rfl followed

/-- What is read first is known. -/
theorem bind_some {r : Reading α} {a : α} (h : Yields r (some a)) {f : α → Reading β} {o : Option β}
    (hf : Yields (f a) o) : Yields (r >>= f) o := by
  show Yields (r >>= f) (some a >>= fun _ => o)
  exact h.bind fun _ ha => Option.some.inj ha ▸ hf

theorem mapM {γ : Type} {l : List α} {convert : α → γ} {f : γ → Reading β} {f' : α → Option β}
    (h : ∀ a ∈ l, Yields (f (convert a)) (f' a)) : Yields ((l.map convert).mapM f) (l.mapM f') := by
  induction l with
  | nil => exact pure []
  | cons a l ih =>
    obtain ⟨ha, hl⟩ := List.forall_mem_cons.mp h
    rw [List.map_cons, List.mapM_cons, List.mapM_cons]
    exact ha.bind fun b _ => (ih hl).bind fun bs _ => pure (b :: bs)

theorem orElse {walk : Yaml.Walk α} {o : Option α} (h : walk = StateT.lift o) (e : Error) :
    Yields (orElse walk e) o := by
  subst h
  intro followed
  cases o <;> rfl

theorem ofExcept {e : Except Error α} : Yields (liftM e : Reading α) e.toOption := by
  intro followed
  cases e <;> rfl

end Yields

open Headless (KeyEvent)

variable (g : Yaml.Graph)

/-- The fields of a record with their nodes. -/
def nodesOf (fields : List (String × Document)) : List (String × Yaml.Node Nat) :=
  fields.map fun field => (field.1, field.2.node)

theorem find_nodesOf (fields : List (String × Document)) (name : String) :
    Fields.Entry.Matches (fun d node => node = d.node) (Fields.find fields name)
      (Fields.find (nodesOf fields) name) := by
  refine Fields.find_matches ?_ name
  rw [nodesOf, List.forall₂_map_right_iff]
  exact List.forall₂_same.mpr fun field _ => ⟨rfl, rfl⟩

theorem required_yields {α : Type} {read : Yaml.Node Nat → Yaml.Walk α}
    {decode : Document → Option α} (h : ∀ d : Document, read d.node = StateT.lift (decode d))
    (fields : List (String × Document)) (name : String) :
    Yields (required (nodesOf fields) name read) (field? fields name decode) := by
  have hfind := find_nodesOf fields name
  unfold required field?
  generalize Fields.find fields name = entry at hfind ⊢
  generalize Fields.find (nodesOf fields) name = entry' at hfind ⊢
  cases hfind with
  | absent => exact .throw _
  | repeated => exact .throw _
  | once heq =>
    subst heq
    exact .orElse (h _) _

theorem follow_yields (d : Document) (e : Error) :
    Yields (orElse (g.follow d.node) e) (some d.node) :=
  .orElse (g.follow_node d) e

theorem lift_some {α : Type} (a : α) : (StateT.lift (some a) : Yaml.Walk α) = pure a := rfl

theorem fits_iff (n : Int) :
    (¬ decide (n < 0) ∧ Yaml.Integer.fits ⟨n < 0, n.natAbs⟩ 64) ↔
      0 ≤ n ∧ n ≤ 0xFFFFFFFFFFFFFFFF := by
  have hbound : Nat.pow 2 64 = 0x10000000000000000 := by decide
  by_cases hn : n < 0
  · have hsign : ¬ 0 ≤ n := by omega
    simp [hn, hsign]
  · have hsize : n.natAbs < Nat.pow 2 64 ↔ n ≤ 0xFFFFFFFFFFFFFFFF := by omega
    have hsign : 0 ≤ n := by omega
    simp [Yaml.Integer.fits, hn, hsign, hsize]

theorem count_node (d : Document) : count g d.node = StateT.lift (count? d) := by
  rw [count, Yaml.Graph.integer_node]
  cases d with
  | null | boolean | real | text | list | record => rfl
  | integer n =>
    rw [Document.integer?, lift_some, pure_bind, count?, Document.toWord]
    by_cases hn : 0 ≤ n ∧ n ≤ 0xFFFFFFFFFFFFFFFF
    · have hsize : (UInt64.ofNat n.toNat).toNat = n.natAbs := by
        rw [UInt64.toNat_ofNat']
        omega
      rw [if_pos ((fits_iff n).mpr hn), if_pos hn]
      exact congrArg pure hsize.symm
    · rw [if_neg fun h => hn ((fits_iff n).mp h), if_neg hn]
      rfl

theorem key_node (d : Document) : key g d.node = StateT.lift d.toKey.toOption := by
  rw [key, Yaml.Graph.integer_node]
  cases d with
  | null | boolean | real | text | list | record => rfl
  | integer n =>
    rw [Document.integer?, lift_some, pure_bind, Document.toInt_eq, Document.toKey]
    by_cases hn : n < 0
    · rw [if_pos hn, if_pos hn]
      rfl
    · rw [if_neg hn, if_neg hn, show n.natAbs = n.toNat by omega]
      unfold Key.ofNat
      split <;> rfl

theorem event_yields (d : Document) : Yields (event g d.node) (event? d) := by
  refine (follow_yields g d _).bind_some ?_
  cases d with
  | null | boolean | integer | real | text | list => exact .throw _
  | record fields =>
    refine (Yields.orElse (g.fields_fieldsNodes fields) _).bind_some ?_
    refine (required_yields (count_node g) fields "frame").bind fun frame _ => ?_
    refine (required_yields (key_node g) fields "key").bind fun key _ => ?_
    refine (required_yields g.boolean_node fields "pressed").bind fun pressed _ => ?_
    exact .pure _

theorem word_ne_empty {d : Document} (h : d.isWord) : d.word ≠ "" := by
  obtain ⟨c, rest, hcs, -⟩ := (Document.looksPlain_word h).first
  intro hempty
  rw [hempty] at hcs
  obtain hcs | hcs := hcs <;> cases hcs

theorem events_yields (d : Document) : Yields (events g d.node) (events? d) := by
  have hword {d : Document} (h : d.isWord) : Yields (events g d.node) none := by
    have hne := word_ne_empty h
    refine (follow_yields g d _).bind_some ?_
    rw [Document.node_of_isWord h]
    generalize d.word = text at hne
    split
    · rename_i heq
      cases heq
    · rename_i heq
      cases heq
      exact absurd rfl hne
    · exact .throw _
  cases d with
  | null | boolean | integer | real => exact hword rfl
  | text | record => exact (follow_yields g _ _).bind_some (.throw _)
  | list items =>
    refine (follow_yields g (.list items) _).bind_some ?_
    show Yields ((Document.itemsNodes items).mapM (event g)) _
    rw [Yaml.Graph.itemsNodes_eq_map]
    exact .mapM fun item _ => event_yields g item

theorem framesOf_yields (fields : List (String × Document)) :
    Yields (framesOf g (nodesOf fields)) (framesOf? fields) := by
  have hfind := find_nodesOf fields "frames"
  have hgiven := required_yields (count_node g) fields "frames"
  unfold framesOf framesOf?
  generalize Fields.find fields "frames" = entry at hfind ⊢
  generalize Fields.find (nodesOf fields) "frames" = entry' at hfind ⊢
  cases hfind with
  | absent => exact .pure _
  | once | repeated => exact hgiven

theorem keysOf_yields (fields : List (String × Document)) :
    Yields (keysOf g (nodesOf fields)) (keysOf? fields) := by
  have hfind := find_nodesOf fields "keys"
  unfold keysOf keysOf? field?
  generalize Fields.find fields "keys" = entry at hfind ⊢
  generalize Fields.find (nodesOf fields) "keys" = entry' at hfind ⊢
  cases hfind with
  | absent => exact .pure _
  | repeated => exact .throw _
  | once heq =>
    subst heq
    exact events_yields g _

/-- A document within the bounds of YAML and a value that agrees with it. -/
structure Denotes (d : Document) (value : Yaml.Value) : Prop where
  plain : d.isPlain
  agrees : d.Agrees value

/-- Fields with the values that their nodes have. -/
def Valued (fields : List (String × Document)) (values : List (String × Yaml.Value)) : Prop :=
  List.Forall₂ (fun field value => field.1 = value.1 ∧ Denotes field.2 value.2) fields values

/-- The fields that are neither frames nor keys. -/
def others {α : Type} (fields : List (String × α)) : List (String × α) :=
  fields.filter fun field => ¬ isRunOption field.1

/-- Fields that keep to the bounds of YAML. -/
def Bounded (fields : List (String × Document)) : Prop :=
  ∀ field ∈ fields, field.2.isPlain ∧ field.2.depth ≤ maxDepth - 1

theorem orElse_pure {α : Type} (a : α) (e : Error) : orElse (pure a) e = pure a := rfl

theorem otherFields_eq {fields : List (String × Document)} (h : Bounded (others fields)) :
    ∃ values, otherFields g (nodesOf fields) = pure values ∧ Valued (others fields) values := by
  have hothers : others (nodesOf fields) = nodesOf (others fields) := by
    rw [others, nodesOf, List.filter_map]
    rfl
  show ∃ values, (others (nodesOf fields)).mapM _ = pure values ∧ _
  rw [hothers]
  generalize others fields = fields at h
  induction fields with
  | nil => exact ⟨[], rfl, .nil⟩
  | cons field fields ih =>
    obtain ⟨⟨hplain, hdepth⟩, hrest⟩ := List.forall_mem_cons.mp h
    obtain ⟨value, hvalue, hagrees⟩ := g.exists_value hplain hdepth
    obtain ⟨values, hvalues, hvalued⟩ := ih hrest
    refine ⟨(field.1, value) :: values, ?_, .cons ⟨rfl, hplain, hagrees⟩ hvalued⟩
    rw [nodesOf, List.map_cons, List.mapM_cons]
    dsimp only
    rw [hvalue, orElse_pure, pure_bind, pure_bind]
    exact congrArg (· >>= fun rest => pure ((field.1, value) :: rest)) hvalues

theorem optionalWord_eq {fields : List (String × Document)} {values : List (String × Yaml.Value)}
    (h : Valued fields values) (name : String) :
    (optionalWord values name).toOption =
      (Document.optionalField fields name Document.toWord).toOption := by
  have hfind := Fields.find_matches h name
  unfold optionalWord Document.optionalField
  generalize Fields.find fields name = entry at hfind ⊢
  generalize Fields.find values name = entry' at hfind ⊢
  cases hfind with
  | absent | repeated => rfl
  | @once d v hd =>
    obtain ⟨hplain, hnull, hinteger⟩ := hd
    cases d with
    | null =>
      obtain rfl := hnull.mpr rfl
      rfl
    | integer n =>
      obtain rfl := (hinteger n).mpr rfl
      have hn : Document.IsInteger n := of_decide_eq_true hplain
      by_cases hsign : n < 0
      · simp [Document.optional, Document.toWord, hsign, not_le.mpr hsign]
        rfl
      · simp [Document.optional, Document.toWord, hsign, not_lt.mp hsign, hn.2]
        rfl
    | boolean | real | text | list | record =>
      cases v with
      | null => cases hnull.mp rfl
      | integer n => cases (hinteger n).mp rfl
      | _ => rfl

theorem find_others (fields : List (String × Document)) {name : String} (h : ¬ isRunOption name) :
    Fields.find (others fields) name = Fields.find fields name := by
  have hfilter : (others fields).filter (·.1 = name) = fields.filter (·.1 = name) := by
    rw [others, List.filter_filter]
    refine List.filter_congr fun field _ => ?_
    by_cases hname : field.1 = name
    · simp [hname, h]
    · simp [hname]
  rw [Fields.find, hfilter, Fields.find]

theorem optionalField_ofDocument (fields : List (String × Document)) (name : String) :
    Document.optionalField fields name Frequency.ofDocument =
      (Document.optionalField fields name Document.toWord).map (Option.map Frequency.mk) := by
  unfold Document.optionalField
  cases Fields.find fields name with
  | absent | repeated => rfl
  | once d =>
    cases d with
    | null => rfl
    | boolean | real | text | list | record => rfl
    | integer n =>
      show ((Document.toWord (.integer n)).map Frequency.mk).map some =
        ((Document.toWord (.integer n)).map some).map (Option.map Frequency.mk)
      cases Document.toWord (.integer n) <;> rfl

theorem machineOf_eq {fields : List (String × Document)} {values : List (String × Yaml.Value)}
    (h : Valued (others fields) values) :
    (machineOf values).toOption = (Machine.Config.ofFields fields).toOption := by
  have hother (name : String) (hname : ¬ isRunOption name) :
      (optionalWord values name).toOption =
        (Document.optionalField fields name Document.toWord).toOption := by
    rw [optionalWord_eq h, Document.optionalField, find_others fields hname, Document.optionalField]
  have hrate := hother "clock_frequency" (by decide)
  have hseed := hother "seed" (by decide)
  rw [machineOf, Machine.Config.ofFields, optionalField_ofDocument]
  generalize optionalWord values "clock_frequency" = rate at hrate ⊢
  generalize optionalWord values "seed" = seed at hseed ⊢
  generalize Document.optionalField fields "clock_frequency" Document.toWord = rate' at hrate ⊢
  generalize Document.optionalField fields "seed" Document.toWord = seed' at hseed ⊢
  cases rate <;> cases rate' <;> cases hrate
  · rfl
  · cases seed <;> cases seed' <;> cases hseed <;> rfl

theorem ofEntries_yields {fields : List (String × Document)} (h : Bounded (others fields)) :
    Yields (ofEntries g (Document.fieldsNodes fields)) (ofFields? fields) := by
  obtain ⟨values, hvalues, hvalued⟩ := otherFields_eq g h
  refine (Yields.orElse (g.fields_fieldsNodes fields) _).bind_some ?_
  refine (framesOf_yields g fields).bind fun frames _ => ?_
  refine (keysOf_yields g fields).bind fun keys _ => ?_
  have hothers : otherFields g (fields.map fun field => (field.1, field.2.node)) = pure values :=
    hvalues
  rw [hothers, pure_bind, ← machineOf_eq hvalued]
  exact (Yields.ofExcept).bind fun machine _ => .pure _

theorem bounded_others {fields : List (String × Document)} (h : isReadable (.record fields)) :
    Bounded (others fields) := by
  obtain ⟨hplain, hshallow⟩ := of_decide_eq_true h
  intro field hfield
  obtain ⟨hmem, hother⟩ := List.mem_filter.mp hfield
  have hdepth := of_decide_eq_true (List.all_eq_true.mp hshallow field hmem)
  exact ⟨(Document.isPlain_record hplain field hmem).2,
    hdepth.resolve_left (of_decide_eq_true hother)⟩

/-- A word is no record and no text of which nothing was written. -/
theorem ofGraph_of_isWord {d : Document} (h : d.isWord) (hroot : g.root = d.node) :
    ofGraph g = .error .notRecord := by
  have hne := word_ne_empty h
  rw [ofGraph, hroot, Document.node_of_isWord h]
  generalize d.word = text at hne
  split
  · rename_i heq
    cases heq
  · rename_i heq
    cases heq
    exact absurd rfl hne
  · rfl

theorem ofGraph_eq {d : Document} (h : isReadable d) (hroot : g.root = d.node) :
    (ofGraph g).toOption.map inOrder = ofDocument? d := by
  cases d with
  | null | boolean | integer | real =>
    rw [ofGraph_of_isWord g rfl hroot]
    rfl
  | text | list =>
    rw [ofGraph, hroot]
    rfl
  | record fields =>
    have hentries := ofEntries_yields g (bounded_others h) 0
    rw [ofGraph, hroot]
    show (((ofEntries g (Document.fieldsNodes fields)) 0).map Prod.fst).toOption.map inOrder =
      (ofFields? fields).map inOrder
    generalize ofEntries g (Document.fieldsNodes fields) 0 = entries at hentries ⊢
    generalize ofFields? fields = config at hentries ⊢
    cases entries <;> cases config <;> cases hentries <;> rfl

/-- A written document that keeps to the bounds of YAML is read as the options it has. -/
theorem read_write {d : Document} (h : isReadable d) : (read d.write).toOption = ofDocument? d := by
  obtain ⟨g, hread, hroot⟩ := Yaml.Graph.exists_read?_write (of_decide_eq_true h).1
  rw [← ofGraph_eq g h hroot, read, parse, hread]
  dsimp only
  cases ofGraph g <;> rfl

end RunConfig

end ChipEight

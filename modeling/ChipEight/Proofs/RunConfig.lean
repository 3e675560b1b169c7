import ChipEight.Proofs.Script
import ChipEight.Proofs.Yaml.RunConfig

/-!
# The options of a run

A configuration is accepted if and only if it is a record whose options are what they must be: rate
and seed whole numbers of sixty-four bits, null or missing, the number of frames such a number or
missing, and the keys missing or a list of events. What it gives are these values, the events by
frame and within a frame as they stand. Other fields and the order of fields have no part in it.
-/
namespace ChipEight

namespace Fields

variable {α : Type} {fields : List (String × α)} {name : String}

/-- Whether no field has a name. -/
def Missing (fields : List (String × α)) (name : String) : Prop := ∀ value, (name, value) ∉ fields

theorem filter_of_missing (h : Missing fields name) : fields.filter (·.1 = name) = [] := by
  rw [List.filter_eq_nil_iff]
  rintro ⟨name', value⟩ hmem hname
  simp only [decide_eq_true_eq] at hname
  exact h value (hname ▸ hmem)

theorem find_of_missing (h : Missing fields name) : find fields name = .absent := by
  rw [find, filter_of_missing h]

/-- A field is found by its name, where no other one has the name. -/
theorem find_of_mem (hnames : (fields.map Prod.fst).Nodup) {value : α}
    (h : (name, value) ∈ fields) : find fields name = .once value := by
  have hfilter : fields.filter (·.1 = name) = [(name, value)] := by
    induction fields with
    | nil => cases h
    | cons field fields ih =>
      obtain ⟨hfield, hfields⟩ := List.nodup_cons.mp hnames
      obtain rfl | hmem := List.mem_cons.mp h
      · have hmissing : Missing fields name := fun other hother =>
          hfield (List.mem_map.mpr ⟨_, hother, rfl⟩)
        rw [List.filter_cons_of_pos (by simp), filter_of_missing hmissing]
      · have hne : field.1 ≠ name := fun heq => hfield (List.mem_map.mpr ⟨_, hmem, heq.symm⟩)
        rw [List.filter_cons_of_neg (by simpa using hne), ih hfields hmem]
  rw [find, hfilter]

theorem find_cases (hnames : (fields.map Prod.fst).Nodup) (name : String) :
    (Missing fields name ∧ find fields name = .absent) ∨
      ∃ value, (name, value) ∈ fields ∧ find fields name = .once value := by
  by_cases h : Missing fields name
  · exact .inl ⟨h, find_of_missing h⟩
  · simp only [Missing, not_forall, not_not] at h
    obtain ⟨value, hmem⟩ := h
    exact .inr ⟨value, hmem, find_of_mem hnames hmem⟩

theorem eq_of_mem (hnames : (fields.map Prod.fst).Nodup) {value value' : α}
    (h : (name, value) ∈ fields) (h' : (name, value') ∈ fields) : value = value' :=
  Entry.once.inj ((find_of_mem hnames h).symm.trans (find_of_mem hnames h'))

end Fields

namespace RunConfig

open Fields (Missing)
open Headless (KeyEvent)

/-- A document that is a whole number of sixty-four bits. -/
def IsCount (d : Document) (n : Nat) : Prop := d = .ofNat n ∧ n ≤ 0xFFFFFFFFFFFFFFFF

/-- A document that is a key event. -/
def IsEvent (d : Document) (e : KeyEvent) : Prop :=
  ∃ fields, d = .record fields ∧ (∃ frame, ("frame", frame) ∈ fields ∧ IsCount frame e.frame) ∧
    ("key", .ofNat e.key) ∈ fields ∧ ("pressed", .boolean e.pressed) ∈ fields

/-- The records that are accepted. -/
structure Grammatical (fields : List (String × Document)) : Prop where
  rate : ∀ d, ("clock_frequency", d) ∈ fields → d = .null ∨ ∃ n, IsCount d n
  seed : ∀ d, ("seed", d) ∈ fields → d = .null ∨ ∃ n, IsCount d n
  frames : ∀ d, ("frames", d) ∈ fields → ∃ n, IsCount d n
  keys : ∀ d, ("keys", d) ∈ fields → ∃ items, d = .list items ∧ ∀ item ∈ items, ∃ e, IsEvent item e

/-- A number as a document, or null. -/
def written : Option UInt64 → Document
  | some n => .ofNat n.toNat
  | none => .null

/-- What a record says about an option that may be null or missing. -/
def Optional (fields : List (String × Document)) (name : String) (o : Option UInt64) : Prop :=
  (name, written o) ∈ fields ∨ Missing fields name ∧ o = none

/-- The key events of a record in the order of the text. -/
def Scripted (fields : List (String × Document)) (events : List KeyEvent) : Prop :=
  (∃ items, ("keys", .list items) ∈ fields ∧ List.Forall₂ IsEvent items events) ∨
    Missing fields "keys" ∧ events = []

/-- The number of frames of a record. -/
def Lasting (fields : List (String × Document)) (frames : Nat) : Prop :=
  (∃ d, ("frames", d) ∈ fields ∧ IsCount d frames) ∨ Missing fields "frames" ∧ frames = 600

/-- The options of a record, its key events in the order of the text. -/
structure Gives (fields : List (String × Document)) (c : RunConfig) : Prop where
  rate : Optional fields "clock_frequency" (c.machine.frequency.map Frequency.hertz)
  seed : Optional fields "seed" c.machine.seed
  frames : Lasting fields c.frames
  keys : Scripted fields c.keys

/-- Events by frame, those of one frame in the order they were given in. -/
structure StablyOrdered (given events : List KeyEvent) : Prop where
  perm : events.Perm given
  sorted : events.Pairwise (·.frame ≤ ·.frame)
  stable : ∀ frame, (events.filter fun e => e.frame = frame) = given.filter fun e => e.frame = frame

/-- What a run is configured with by a record. -/
structure Configures (fields : List (String × Document)) (c : RunConfig) : Prop where
  rate : Optional fields "clock_frequency" (c.machine.frequency.map Frequency.hertz)
  effective : c.frequency = c.machine.frequency.getD ⟨500⟩
  seed : Optional fields "seed" c.machine.seed
  frames : Lasting fields c.frames
  keys : ∃ given, Scripted fields given ∧ StablyOrdered given c.keys

/-- Whether two records have related values under a name, or both none. -/
def Agree (R : Document → Document → Prop) (name : String)
    (fields fields' : List (String × Document)) : Prop :=
  (∀ d, (name, d) ∈ fields → ∃ d', (name, d') ∈ fields' ∧ R d d') ∧
    ∀ d', (name, d') ∈ fields' → ∃ d, (name, d) ∈ fields ∧ R d d'

/-- Two documents that are the same as key events. -/
inductive SameEvent : Document → Document → Prop
  | refl (d : Document) : SameEvent d d
  | record {fields fields' : List (String × Document)}
      (h : ∀ name ∈ ["frame", "key", "pressed"], Agree Eq name fields fields') :
      SameEvent (.record fields) (.record fields')

/-- Two documents that are the same as lists of key events. -/
inductive SameKeys : Document → Document → Prop
  | refl (d : Document) : SameKeys d d
  | list {items items' : List Document} (h : List.Forall₂ SameEvent items items') :
      SameKeys (.list items) (.list items')

/-- Two records with the same options, in any order and among any other fields. -/
structure SameOptions (fields fields' : List (String × Document)) : Prop where
  numbers : ∀ name ∈ ["clock_frequency", "seed", "frames"], Agree Eq name fields fields'
  keys : Agree SameKeys "keys" fields fields'

/-- A way to read documents accepts exactly the grammar and gives the options that stand in it, for
the documents of a class. One event that is none refuses them all. Other fields and the order of
fields have no part in it. -/
structure Accepts (reads : Document → Option RunConfig) (asked : Document → Prop) : Prop where
  accepted_iff : ∀ d, asked d →
    ((∃ c, reads d = some c) ↔ ∃ fields, d = .record fields ∧ Grammatical fields)
  configures : ∀ d c, asked d → reads d = some c →
    ∃ fields, d = .record fields ∧ Configures fields c
  refused : ∀ fields items item, asked (.record fields) → ("keys", .list items) ∈ fields →
    item ∈ items → (∀ e, ¬ IsEvent item e) → reads (.record fields) = none
  same : ∀ fields fields', asked (.record fields) → asked (.record fields') →
    SameOptions fields fields' → reads (.record fields') = reads (.record fields)

section

variable {fields : List (String × Document)} {d : Document}

theorem toOption_toWord (i : Int) : (Document.integer i).toWord.toOption =
    if 0 ≤ i ∧ i ≤ 0xFFFFFFFFFFFFFFFF then some (UInt64.ofNat i.toNat) else none := by
  rw [Document.toWord]
  split <;> rfl

theorem toWord_eq_some_iff {n : UInt64} : d.toWord.toOption = some n ↔ d = .ofNat n.toNat := by
  cases d with
  | null | boolean | real | text | list | record => exact ⟨nofun, nofun⟩
  | integer i =>
    have hlt := n.toNat_lt
    rw [toOption_toWord, Option.ite_none_right_eq_some, Option.some.injEq, ← UInt64.toNat_inj,
      UInt64.toNat_ofNat', Document.ofNat, Document.integer.injEq]
    omega

theorem count?_eq_some_iff {n : Nat} : count? d = some n ↔ IsCount d n := by
  rw [count?, Option.map_eq_some_iff, IsCount]
  constructor
  · rintro ⟨word, hword, rfl⟩
    have hlt := word.toNat_lt
    exact ⟨toWord_eq_some_iff.mp hword, by omega⟩
  · rintro ⟨hd, hn⟩
    have hsize : (UInt64.ofNat n).toNat = n := UInt64.toNat_ofNat_of_lt' (Nat.lt_succ_of_le hn)
    exact ⟨UInt64.ofNat n, toWord_eq_some_iff.mpr (by rw [hsize, hd]), hsize⟩

theorem toOption_toKey (i : Int) : (Document.integer i).toKey.toOption =
    if h : 0 ≤ i ∧ i.toNat < Key.count then some ⟨i.toNat, h.2⟩ else none := by
  rw [Document.toKey]
  by_cases hneg : i < 0
  · rw [if_pos hneg, dif_neg (by omega)]
    rfl
  · rw [if_neg hneg, Key.ofNat]
    by_cases hcount : i.toNat < Key.count
    · rw [dif_pos hcount, dif_pos ⟨by omega, hcount⟩]
      rfl
    · rw [dif_neg hcount, dif_neg fun h => hcount h.2]
      rfl

theorem toKey_eq_some_iff {key : Key} : d.toKey.toOption = some key ↔ d = .ofNat key := by
  cases d with
  | null | boolean | real | text | list | record => exact ⟨nofun, nofun⟩
  | integer i =>
    have hlt := key.isLt
    simp only [toOption_toKey, Option.dite_none_right_eq_some, Option.some.injEq, Fin.ext_iff,
      Document.ofNat, Document.integer.injEq]
    constructor
    · rintro ⟨h, heq⟩
      omega
    · rintro rfl
      exact ⟨⟨by omega, hlt⟩, rfl⟩

theorem boolean?_eq_some_iff {b : Bool} : d.boolean? = some b ↔ d = .boolean b := by
  cases d <;> simp [Document.boolean?]

theorem field?_eq_some_iff {α : Type} (hnames : (fields.map Prod.fst).Nodup) {name : String}
    {decode : Document → Option α} {a : α} :
    field? fields name decode = some a ↔ ∃ d, (name, d) ∈ fields ∧ decode d = some a := by
  unfold field?
  obtain ⟨hmissing, hfind⟩ | ⟨value, hmem, hfind⟩ := Fields.find_cases hnames name
  · rw [hfind]
    exact ⟨nofun, fun ⟨d, hd, _⟩ => absurd hd (hmissing d)⟩
  · rw [hfind]
    exact ⟨fun h => ⟨value, hmem, h⟩, fun ⟨d, hd, h⟩ => Fields.eq_of_mem hnames hmem hd ▸ h⟩

theorem nodup_of_namesDiffer (h : (Document.record fields).namesDiffer) :
    (fields.map Prod.fst).Nodup ∧ ∀ field ∈ fields, field.2.namesDiffer := by
  rw [Document.namesDiffer, Document.everywhere, Bool.and_eq_true] at h
  exact ⟨of_decide_eq_true h.1, Document.everywhere_fields.mp h.2⟩

theorem namesDiffer_items {items : List Document} (h : (Document.list items).namesDiffer) :
    ∀ item ∈ items, item.namesDiffer := by
  rw [Document.namesDiffer, Document.everywhere, Bool.and_eq_true] at h
  exact Document.everywhere_items.mp h.2

theorem event?_eq_some_iff (h : d.namesDiffer) {e : KeyEvent} :
    event? d = some e ↔ IsEvent d e := by
  cases d with
  | null | boolean | integer | real | text | list => exact ⟨nofun, nofun⟩
  | record fields =>
    have hnames := (nodup_of_namesDiffer h).1
    simp only [event?, Option.bind_eq_bind, Option.bind_eq_some_iff, field?_eq_some_iff hnames,
      count?_eq_some_iff, toKey_eq_some_iff, boolean?_eq_some_iff, Option.pure_def,
      Option.some.injEq]
    constructor
    · rintro ⟨frame, hframe, key, ⟨_, hkey, rfl⟩, pressed, ⟨_, hpressed, rfl⟩, rfl⟩
      exact ⟨fields, rfl, hframe, hkey, hpressed⟩
    · rintro ⟨_, heq, hframe, hkey, hpressed⟩
      cases heq
      exact ⟨_, hframe, _, ⟨_, hkey, rfl⟩, _, ⟨_, hpressed, rfl⟩, rfl⟩

theorem mapM_eq_some_iff {α β : Type} {l : List α} {f : α → Option β} {bs : List β} :
    l.mapM f = some bs ↔ List.Forall₂ (fun a b => f a = some b) l bs := by
  induction l generalizing bs with
  | nil =>
    rw [List.mapM_nil, List.forall₂_nil_left_iff]
    exact Option.some.injEq [] bs ▸ eq_comm
  | cons a l ih =>
    simp only [List.mapM_cons, Option.bind_eq_bind, Option.bind_eq_some_iff, ih, Option.pure_def,
      Option.some.injEq, List.forall₂_cons_left_iff]
    constructor
    · rintro ⟨b, hb, bs, hbs, rfl⟩
      exact ⟨b, bs, hb, hbs, rfl⟩
    · rintro ⟨b, bs, hb, hbs, rfl⟩
      exact ⟨b, hb, bs, hbs, rfl⟩

theorem forall₂_congr_left {α β : Type} {R S : α → β → Prop} {l : List α} {bs : List β}
    (h : ∀ a ∈ l, ∀ b, R a b ↔ S a b) : List.Forall₂ R l bs ↔ List.Forall₂ S l bs := by
  induction l generalizing bs with
  | nil => simp
  | cons a l ih =>
    obtain ⟨ha, hl⟩ := List.forall_mem_cons.mp h
    simp only [List.forall₂_cons_left_iff, ha, ih hl]

theorem events?_eq_some_iff (h : d.namesDiffer) {events : List KeyEvent} :
    events? d = some events ↔ ∃ items, d = .list items ∧ List.Forall₂ IsEvent items events := by
  cases d with
  | null | boolean | integer | real | text | record => exact ⟨nofun, nofun⟩
  | list items =>
    rw [events?, mapM_eq_some_iff,
      forall₂_congr_left fun item hitem _ => event?_eq_some_iff (namesDiffer_items h item hitem)]
    exact ⟨fun h => ⟨items, rfl, h⟩, fun ⟨_, heq, h⟩ => Document.list.inj heq ▸ h⟩

theorem framesOf?_eq_some_iff (hnames : (fields.map Prod.fst).Nodup) {n : Nat} :
    framesOf? fields = some n ↔ Lasting fields n := by
  simp only [framesOf?, Lasting, ← count?_eq_some_iff, ← field?_eq_some_iff hnames]
  obtain ⟨hmissing, hfind⟩ | ⟨value, hmem, hfind⟩ := Fields.find_cases hnames "frames"
  · simp only [hfind, field?, hmissing, true_and]
    exact ⟨fun h => .inr (Option.some.inj h).symm,
      fun h => congrArg some (h.resolve_left nofun).symm⟩
  · have hgiven : ¬ Missing fields "frames" := fun hmissing => hmissing value hmem
    simp only [hfind, hgiven, false_and, or_false]

theorem keysOf?_eq_some_iff (h : (Document.record fields).namesDiffer) {events : List KeyEvent} :
    keysOf? fields = some events ↔ Scripted fields events := by
  obtain ⟨hnames, hvalues⟩ := nodup_of_namesDiffer h
  unfold keysOf? field? Scripted
  obtain ⟨hmissing, hfind⟩ | ⟨value, hmem, hfind⟩ := Fields.find_cases hnames "keys"
  · rw [hfind]
    constructor
    · intro heq
      exact .inr ⟨hmissing, (Option.some.inj heq).symm⟩
    · rintro (⟨items, hitems, -⟩ | ⟨-, rfl⟩)
      · exact absurd hitems (hmissing _)
      · rfl
  · rw [hfind]
    refine (events?_eq_some_iff (hvalues _ hmem)).trans ?_
    constructor
    · rintro ⟨items, rfl, hitems⟩
      exact .inl ⟨items, hmem, hitems⟩
    · rintro (⟨items, hitems, hevents⟩ | ⟨hmissing, -⟩)
      · exact ⟨items, Fields.eq_of_mem hnames hmem hitems, hevents⟩
      · exact absurd hmem (hmissing _)

theorem toOption_map {ε α β : Type} (f : α → β) (x : Except ε α) :
    (x.map f).toOption = x.toOption.map f := by
  cases x <;> rfl

theorem toOption_bind_eq_some_iff {ε α β : Type} {x : Except ε α} {f : α → Except ε β} {b : β} :
    (x >>= f).toOption = some b ↔ ∃ a, x.toOption = some a ∧ (f a).toOption = some b := by
  cases x with
  | error => exact ⟨nofun, fun ⟨_, h, _⟩ => nomatch h⟩
  | ok a => exact ⟨fun h => ⟨a, rfl, h⟩, fun ⟨_, heq, h⟩ => Option.some.inj heq ▸ h⟩

theorem optional_eq_some_iff {o : Option UInt64} :
    (Document.optional Document.toWord d).toOption = some o ↔ d = written o := by
  have hword : (d.toWord.map some).toOption = some o ↔ ∃ n, d = .ofNat n.toNat ∧ some n = o := by
    rw [toOption_map, Option.map_eq_some_iff]
    simp only [toWord_eq_some_iff]
  cases d with
  | null => cases o with
    | none => exact iff_of_true rfl rfl
    | some n => exact iff_of_false nofun nofun
  | boolean | integer | real | text | list | record =>
    refine hword.trans ⟨?_, fun heq => ?_⟩
    · rintro ⟨n, heq, rfl⟩
      exact heq
    · cases o with
      | none => cases heq
      | some n => exact ⟨n, heq, rfl⟩

theorem optionalField_eq_some_iff (hnames : (fields.map Prod.fst).Nodup) {name : String}
    {o : Option UInt64} :
    (Document.optionalField fields name Document.toWord).toOption = some o ↔
      Optional fields name o := by
  unfold Document.optionalField Optional
  obtain ⟨hmissing, hfind⟩ | ⟨value, hmem, hfind⟩ := Fields.find_cases hnames name
  · rw [hfind]
    exact ⟨fun heq => .inr ⟨hmissing, (Option.some.inj heq).symm⟩, fun hgiven =>
      hgiven.elim (fun hmem => absurd hmem (hmissing _)) fun hnone => congrArg some hnone.2.symm⟩
  · rw [hfind]
    refine optional_eq_some_iff.trans ⟨fun heq => .inl (heq ▸ hmem), fun hgiven => ?_⟩
    exact hgiven.elim (Fields.eq_of_mem hnames hmem) fun hnone => absurd hmem (hnone.1 _)

theorem ofFields_eq_some_iff (hnames : (fields.map Prod.fst).Nodup) {c : Machine.Config} :
    (Machine.Config.ofFields fields).toOption = some c ↔
      Optional fields "clock_frequency" (c.frequency.map Frequency.hertz) ∧
        Optional fields "seed" c.seed := by
  obtain ⟨frequency, seed⟩ := c
  simp only [Machine.Config.ofFields, optionalField_ofDocument, toOption_bind_eq_some_iff,
    toOption_map, Option.map_eq_some_iff, optionalField_eq_some_iff hnames]
  constructor
  · rintro ⟨_, ⟨rate, hrate, rfl⟩, seed', hseed, heq⟩
    cases heq
    have hhertz : (rate.map Frequency.mk).map Frequency.hertz = rate := by cases rate <;> rfl
    exact ⟨hhertz.symm ▸ hrate, hseed⟩
  · rintro ⟨hrate, hseed⟩
    have hfrequency : (frequency.map Frequency.hertz).map Frequency.mk = frequency := by
      cases frequency <;> rfl
    exact ⟨_, ⟨_, hrate, hfrequency⟩, seed, hseed, rfl⟩

/-- The options are read if and only if the record gives them. -/
theorem ofFields?_eq_some_iff (h : (Document.record fields).namesDiffer) {c : RunConfig} :
    ofFields? fields = some c ↔ Gives fields c := by
  have hnames := (nodup_of_namesDiffer h).1
  obtain ⟨machine, frames, keys⟩ := c
  simp only [ofFields?, Option.bind_eq_bind, Option.bind_eq_some_iff, framesOf?_eq_some_iff hnames,
    keysOf?_eq_some_iff h, ofFields_eq_some_iff hnames, Option.pure_def, Option.some.injEq]
  constructor
  · rintro ⟨_, hframes, _, hkeys, machine, ⟨hrate, hseed⟩, heq⟩
    cases heq
    exact ⟨hrate, hseed, hframes, hkeys⟩
  · rintro ⟨hrate, hseed, hframes, hkeys⟩
    exact ⟨_, hframes, _, hkeys, machine, ⟨hrate, hseed⟩, rfl⟩

theorem exists_optional_iff (hnames : (fields.map Prod.fst).Nodup) (name : String) :
    (∃ o, Optional fields name o) ↔
      ∀ d, (name, d) ∈ fields → d = .null ∨ ∃ n, IsCount d n := by
  constructor
  · rintro ⟨o, hmem | ⟨hmissing, -⟩⟩ d hd
    · obtain rfl := Fields.eq_of_mem hnames hd hmem
      cases o with
      | none => exact .inl rfl
      | some n =>
        have hlt := n.toNat_lt
        exact .inr ⟨n.toNat, rfl, by omega⟩
    · exact absurd hd (hmissing d)
  · intro h
    obtain ⟨hmissing, -⟩ | ⟨d, hd, -⟩ := Fields.find_cases hnames name
    · exact ⟨none, .inr ⟨hmissing, rfl⟩⟩
    · obtain rfl | ⟨n, rfl, hn⟩ := h d hd
      · exact ⟨none, .inl hd⟩
      · have hsize : (UInt64.ofNat n).toNat = n := UInt64.toNat_ofNat_of_lt' (Nat.lt_succ_of_le hn)
        exact ⟨some (UInt64.ofNat n), .inl (by rwa [written, hsize])⟩

theorem exists_forall₂_iff {α β : Type} {R : α → β → Prop} {l : List α} :
    (∃ bs, List.Forall₂ R l bs) ↔ ∀ a ∈ l, ∃ b, R a b := by
  induction l with
  | nil => exact iff_of_true ⟨[], .nil⟩ nofun
  | cons a l ih =>
    rw [List.forall_mem_cons, ← ih]
    constructor
    · rintro ⟨_, _ | ⟨hb, hbs⟩⟩
      exact ⟨⟨_, hb⟩, ⟨_, hbs⟩⟩
    · rintro ⟨⟨b, hb⟩, ⟨bs, hbs⟩⟩
      exact ⟨b :: bs, .cons hb hbs⟩

theorem exists_scripted_iff (hnames : (fields.map Prod.fst).Nodup) :
    (∃ events, Scripted fields events) ↔ ∀ d, ("keys", d) ∈ fields →
      ∃ items, d = .list items ∧ ∀ item ∈ items, ∃ e, IsEvent item e := by
  constructor
  · rintro ⟨events, ⟨items, hmem, hevents⟩ | ⟨hmissing, -⟩⟩ d hd
    · exact ⟨items, Fields.eq_of_mem hnames hd hmem, exists_forall₂_iff.mp ⟨events, hevents⟩⟩
    · exact absurd hd (hmissing d)
  · intro h
    obtain ⟨hmissing, -⟩ | ⟨d, hd, -⟩ := Fields.find_cases hnames "keys"
    · exact ⟨[], .inr ⟨hmissing, rfl⟩⟩
    · obtain ⟨items, rfl, hitems⟩ := h d hd
      obtain ⟨events, hevents⟩ := exists_forall₂_iff.mpr hitems
      exact ⟨events, .inl ⟨items, hd, hevents⟩⟩

theorem exists_lasting_iff (hnames : (fields.map Prod.fst).Nodup) :
    (∃ n, Lasting fields n) ↔ ∀ d, ("frames", d) ∈ fields → ∃ n, IsCount d n := by
  constructor
  · rintro ⟨n, ⟨d', hd', hn⟩ | ⟨hmissing, -⟩⟩ d hd
    · exact ⟨n, Fields.eq_of_mem hnames hd hd' ▸ hn⟩
    · exact absurd hd (hmissing d)
  · intro h
    obtain ⟨hmissing, -⟩ | ⟨d, hd, -⟩ := Fields.find_cases hnames "frames"
    · exact ⟨600, .inr ⟨hmissing, rfl⟩⟩
    · obtain ⟨n, hn⟩ := h d hd
      exact ⟨n, .inl ⟨d, hd, hn⟩⟩

/-- A record gives options if and only if it is one of those that are accepted. -/
theorem exists_gives_iff (hnames : (fields.map Prod.fst).Nodup) :
    (∃ c, Gives fields c) ↔ Grammatical fields := by
  constructor
  · rintro ⟨c, hrate, hseed, hframes, hkeys⟩
    exact ⟨(exists_optional_iff hnames _).mp ⟨_, hrate⟩,
      (exists_optional_iff hnames _).mp ⟨_, hseed⟩, (exists_lasting_iff hnames).mp ⟨_, hframes⟩,
      (exists_scripted_iff hnames).mp ⟨_, hkeys⟩⟩
  · rintro ⟨hrate, hseed, hframes, hkeys⟩
    obtain ⟨rate, hrate⟩ := (exists_optional_iff hnames _).mpr hrate
    obtain ⟨seed, hseed⟩ := (exists_optional_iff hnames _).mpr hseed
    obtain ⟨frames, hframes⟩ := (exists_lasting_iff hnames).mpr hframes
    obtain ⟨keys, hkeys⟩ := (exists_scripted_iff hnames).mpr hkeys
    have hhertz : (rate.map Frequency.mk).map Frequency.hertz = rate := by
      cases rate <;> rfl
    exact ⟨⟨⟨rate.map Frequency.mk, seed⟩, frames, keys⟩, hhertz.symm ▸ hrate, hseed, hframes,
      hkeys⟩

theorem stablyOrdered_sortEvents (given : List KeyEvent) :
    StablyOrdered given (sortEvents given) where
  perm := List.mergeSort_perm _ _
  sorted := Headless.Script.inOrder_sortEvents given
  stable frame := by
    -- the events of one frame are in order, so they still follow each other after sorting
    have hordered : (given.filter fun e => e.frame = frame).Pairwise
        (fun a b => Headless.Script.byFrame a b) := by
      refine List.pairwise_of_forall_mem_list fun a ha b hb => ?_
      have hframe := (List.mem_filter.mp ha).2
      have hframe' := (List.mem_filter.mp hb).2
      simp only [decide_eq_true_eq] at hframe hframe'
      simp [Headless.Script.byFrame, hframe, hframe']
    have hsublist : (given.filter fun e => e.frame = frame).Sublist (sortEvents given) :=
      List.sublist_mergeSort Headless.Script.byFrame_trans Headless.Script.byFrame_total hordered
        List.filter_sublist
    have hkept := hsublist.filter fun e => decide (e.frame = frame)
    rw [List.filter_filter] at hkept
    simp only [Bool.and_self] at hkept
    exact (hkept.eq_of_length ((List.mergeSort_perm given _).filter _).length_eq.symm).symm

theorem ofDocument?_eq_some_iff (h : d.namesDiffer) {c : RunConfig} :
    ofDocument? d = some c ↔
      ∃ fields given, d = .record fields ∧ Gives fields given ∧ inOrder given = c := by
  cases d with
  | null | boolean | integer | real | text | list => exact ⟨nofun, nofun⟩
  | record fields =>
    rw [ofDocument?, Option.map_eq_some_iff]
    simp only [ofFields?_eq_some_iff h]
    constructor
    · rintro ⟨given, hgiven, rfl⟩
      exact ⟨fields, given, rfl, hgiven, rfl⟩
    · rintro ⟨_, given, heq, hgiven, rfl⟩
      cases heq
      exact ⟨given, hgiven, rfl⟩

/-- Accepted is what follows the grammar. -/
theorem exists_ofDocument?_iff (h : d.namesDiffer) :
    (∃ c, ofDocument? d = some c) ↔ ∃ fields, d = .record fields ∧ Grammatical fields := by
  simp only [ofDocument?_eq_some_iff h]
  constructor
  · rintro ⟨_, fields, given, rfl, hgiven, -⟩
    exact ⟨fields, rfl, (exists_gives_iff (nodup_of_namesDiffer h).1).mp ⟨given, hgiven⟩⟩
  · rintro ⟨fields, rfl, hgrammar⟩
    obtain ⟨given, hgiven⟩ := (exists_gives_iff (nodup_of_namesDiffer h).1).mpr hgrammar
    exact ⟨_, fields, given, rfl, hgiven, rfl⟩

/-- One item that is no event is enough for all to be refused. -/
theorem ofDocument?_of_no_event (h : (Document.record fields).namesDiffer) {items : List Document}
    (hkeys : ("keys", .list items) ∈ fields) {item : Document} (hitem : item ∈ items)
    (hbad : ∀ e, ¬ IsEvent item e) : ofDocument? (.record fields) = none := by
  rw [Option.eq_none_iff_forall_ne_some]
  intro c hc
  obtain ⟨_, heq, hgrammar⟩ := (exists_ofDocument?_iff h).mp ⟨c, hc⟩
  obtain rfl := Document.record.inj heq
  obtain ⟨_, heq, hevents⟩ := hgrammar.keys _ hkeys
  obtain ⟨e, he⟩ := hevents item (Document.list.inj heq ▸ hitem)
  exact hbad e he

theorem Gives.configures {given : RunConfig} (h : Gives fields given) :
    Configures fields (inOrder given) where
  rate := h.rate
  effective := rfl
  seed := h.seed
  frames := h.frames
  keys := ⟨given.keys, h.keys, stablyOrdered_sortEvents given.keys⟩

section Agree

variable {fields' : List (String × Document)} {name : String}

theorem Agree.mem_iff (h : Agree Eq name fields fields') :
    (name, d) ∈ fields ↔ (name, d) ∈ fields' := by
  constructor
  · intro hd
    obtain ⟨_, hd', rfl⟩ := h.1 d hd
    exact hd'
  · intro hd
    obtain ⟨_, hd', rfl⟩ := h.2 d hd
    exact hd'

theorem Agree.missing_iff {R : Document → Document → Prop} (h : Agree R name fields fields') :
    Missing fields name ↔ Missing fields' name := by
  constructor
  · intro hmissing d' hd'
    obtain ⟨d, hd, -⟩ := h.2 d' hd'
    exact hmissing d hd
  · intro hmissing d hd
    obtain ⟨d', hd', -⟩ := h.1 d hd
    exact hmissing d' hd'

theorem SameEvent.isEvent_iff {d' : Document} (h : SameEvent d d') {e : KeyEvent} :
    IsEvent d e ↔ IsEvent d' e := by
  cases h with
  | refl => rfl
  | @record fields fields' h =>
    have hrecord (fields : List (String × Document)) : IsEvent (.record fields) e ↔
        (∃ frame, ("frame", frame) ∈ fields ∧ IsCount frame e.frame) ∧
          ("key", .ofNat e.key) ∈ fields ∧ ("pressed", .boolean e.pressed) ∈ fields :=
      ⟨fun ⟨_, heq, h⟩ => Document.record.inj heq ▸ h, fun h => ⟨fields, rfl, h⟩⟩
    simp only [hrecord, (h "frame" (by simp)).mem_iff, (h "key" (by simp)).mem_iff,
      (h "pressed" (by simp)).mem_iff]

theorem forall₂_isEvent_iff {items items' : List Document} (h : List.Forall₂ SameEvent items items')
    {events : List KeyEvent} :
    List.Forall₂ IsEvent items events ↔ List.Forall₂ IsEvent items' events := by
  induction h generalizing events with
  | nil => rfl
  | cons hitem _ ih => simp only [List.forall₂_cons_left_iff, hitem.isEvent_iff, ih]

theorem SameKeys.events_iff {d' : Document} (h : SameKeys d d') {events : List KeyEvent} :
    (∃ items, d = .list items ∧ List.Forall₂ IsEvent items events) ↔
      ∃ items, d' = .list items ∧ List.Forall₂ IsEvent items events := by
  cases h with
  | refl => rfl
  | @list items items' h =>
    have hlist (items : List Document) : (∃ items', Document.list items = .list items' ∧
        List.Forall₂ IsEvent items' events) ↔ List.Forall₂ IsEvent items events :=
      ⟨fun ⟨_, heq, h⟩ => Document.list.inj heq ▸ h, fun h => ⟨items, rfl, h⟩⟩
    rw [hlist, hlist, forall₂_isEvent_iff h]

theorem SameOptions.scripted_iff (h : SameOptions fields fields') {events : List KeyEvent} :
    Scripted fields events ↔ Scripted fields' events := by
  unfold Scripted
  rw [h.keys.missing_iff]
  refine or_congr_left ⟨?_, ?_⟩
  · rintro ⟨items, hmem, hevents⟩
    obtain ⟨d', hd', hsame⟩ := h.keys.1 _ hmem
    obtain ⟨items', rfl, hevents'⟩ := hsame.events_iff.mp ⟨items, rfl, hevents⟩
    exact ⟨items', hd', hevents'⟩
  · rintro ⟨items', hmem, hevents⟩
    obtain ⟨d, hd, hsame⟩ := h.keys.2 _ hmem
    obtain ⟨items, rfl, hevents'⟩ := hsame.events_iff.mpr ⟨items', rfl, hevents⟩
    exact ⟨items, hd, hevents'⟩

theorem SameOptions.gives_iff (h : SameOptions fields fields') {c : RunConfig} :
    Gives fields c ↔ Gives fields' c := by
  have hrate := h.numbers "clock_frequency" (by simp)
  have hseed := h.numbers "seed" (by simp)
  have hframes := h.numbers "frames" (by simp)
  have hgives (fields : List (String × Document)) : Gives fields c ↔
      Optional fields "clock_frequency" (c.machine.frequency.map Frequency.hertz) ∧
        Optional fields "seed" c.machine.seed ∧ Lasting fields c.frames ∧ Scripted fields c.keys :=
    ⟨fun ⟨hrate, hseed, hframes, hkeys⟩ => ⟨hrate, hseed, hframes, hkeys⟩,
      fun ⟨hrate, hseed, hframes, hkeys⟩ => ⟨hrate, hseed, hframes, hkeys⟩⟩
  simp only [hgives, Optional, Lasting, hrate.mem_iff, hrate.missing_iff, hseed.mem_iff,
    hseed.missing_iff, hframes.mem_iff, hframes.missing_iff, h.scripted_iff]

theorem SameOptions.ofDocument?_eq (h : SameOptions fields fields')
    (hnames : (Document.record fields).namesDiffer)
    (hnames' : (Document.record fields').namesDiffer) :
    ofDocument? (.record fields') = ofDocument? (.record fields) := by
  have hfields : ofFields? fields' = ofFields? fields := by
    ext c
    rw [ofFields?_eq_some_iff hnames', ofFields?_eq_some_iff hnames, h.gives_iff]
  rw [ofDocument?, hfields, ofDocument?]

end Agree

end

theorem Accepts.congr {reads reads' : Document → Option RunConfig} {asked asked' : Document → Prop}
    (h : Accepts reads asked) (hasked : ∀ d, asked' d → asked d)
    (hsame : ∀ d, asked' d → reads' d = reads d) : Accepts reads' asked' where
  accepted_iff d hd := by
    rw [hsame d hd]
    exact h.accepted_iff d (hasked d hd)
  configures d c hd hc := h.configures d c (hasked d hd) ((hsame d hd).symm.trans hc)
  refused fields items item hd hkeys hitem hbad := by
    rw [hsame _ hd]
    exact h.refused fields items item (hasked _ hd) hkeys hitem hbad
  same fields fields' hd hd' hoptions := by
    rw [hsame _ hd, hsame _ hd']
    exact h.same fields fields' (hasked _ hd) (hasked _ hd') hoptions

theorem accepts_ofDocument? : Accepts ofDocument? fun d => d.namesDiffer where
  accepted_iff _ hnames := exists_ofDocument?_iff hnames
  configures d c hnames hc := by
    obtain ⟨fields, given, rfl, hgiven, rfl⟩ := (ofDocument?_eq_some_iff hnames).mp hc
    exact ⟨fields, rfl, hgiven.configures⟩
  refused _ _ _ hnames hkeys hitem hbad := ofDocument?_of_no_event hnames hkeys hitem hbad
  same _ _ hnames hnames' hsame := hsame.ofDocument?_eq hnames hnames'

/-- A document is accepted exactly if it follows the grammar, and then it gives the options that
stand in it. So is the text of a document that keeps to the bounds of its notation, which is read as
the document is. Beyond these bounds the reader of texts refuses more than the grammar does: names
and whole numbers that are too long, characters that no line can hold, and values other than those
of `frames` and `keys` that are nested too deep. -/
theorem accepts_its_grammar :
    (Accepts ofDocument? fun d => d.namesDiffer) ∧
      (Accepts (fun d => (read d.write).toOption) fun d => d.namesDiffer ∧ isReadable d) ∧
      ∀ d, isReadable d → (read d.write).toOption = ofDocument? d :=
  ⟨accepts_ofDocument?, accepts_ofDocument?.congr (fun _ h => h.1) fun _ h => read_write h.2,
    fun _ h => read_write h⟩

/-- A record with an event too early in the text, a null seed and fields that are no options. -/
def reordered : Document :=
  .record [("title", .text "two keys"),
    ("keys", .list [
      .record [("pressed", .boolean true), ("frame", .ofNat 9), ("key", .ofNat 4)],
      .record [("frame", .ofNat 2), ("note", .null), ("key", .ofNat 15),
        ("pressed", .boolean false)]]),
    ("seed", .null), ("clock_frequency", .ofNat 700)]

theorem reordered_is_accepted :
    reordered.namesDiffer ∧ isReadable reordered ∧
      (read reordered.write).toOption =
        some ⟨⟨some ⟨700⟩, none⟩, 600, [⟨2, 15, false⟩, ⟨9, 4, true⟩]⟩ := by
  have hnames : reordered.namesDiffer := by decide +kernel
  have hreadable : isReadable reordered := by decide +kernel
  have hdecoded : ofDocument? reordered =
      some (inOrder ⟨⟨some ⟨700⟩, none⟩, 600, [⟨9, 4, true⟩, ⟨2, 15, false⟩]⟩) := rfl
  refine ⟨hnames, hreadable, (accepts_its_grammar.2.2 _ hreadable).trans ?_⟩
  rw [hdecoded]
  simp [inOrder, sortEvents, List.mergeSort]

end RunConfig

end ChipEight

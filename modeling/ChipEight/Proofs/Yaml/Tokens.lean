import ChipEight.Proofs.Yaml.Scan

/-!
# The tokens of written documents

A written document is cut into the tokens of its parts: marks and words as they stand, and the mark
of a key in front of each name.
-/
namespace ChipEight

namespace Document

open Yaml

mutual

/-- The tokens of a document as it is written. -/
def tokens : Document → List Yaml.Token
  | .text s => [.scalar .quoted s]
  | .list items => .listStart :: itemsTokens true items ++ [.listEnd]
  | .record fields => .recordStart :: fieldsTokens true fields ++ [.recordEnd]
  | d => [.scalar .plain (word d)]

/-- The tokens of documents with a comma before each, or before each but the first. -/
def itemsTokens (first : Bool) : List Document → List Yaml.Token
  | [] => []
  | item :: items => (if first then [] else [.comma]) ++ tokens item ++ itemsTokens false items

def fieldsTokens (first : Bool) : List (String × Document) → List Yaml.Token
  | [] => []
  | (name, value) :: fields =>
    (if first then [] else [.comma]) ++ [.key, .scalar .quoted name, .value] ++ tokens value ++
      fieldsTokens false fields

end

theorem everywhere_items {p : Document → Bool} {items : List Document} :
    itemsEverywhere p items ↔ ∀ item ∈ items, item.everywhere p := by
  induction items with
  | nil => simp [itemsEverywhere]
  | cons item items ih => simp [itemsEverywhere, ih]

theorem everywhere_fields {p : Document → Bool} {fields : List (String × Document)} :
    fieldsEverywhere p fields ↔ ∀ field ∈ fields, field.2.everywhere p := by
  induction fields with
  | nil => simp [fieldsEverywhere]
  | cons field fields ih => simp [fieldsEverywhere, ih]

theorem isPlain_list {items : List Document} (h : isPlain (.list items)) :
    ∀ item ∈ items, item.isPlain := by
  rw [isPlain, everywhere, Bool.and_eq_true] at h
  exact everywhere_items.mp h.2

theorem isPlain_record {fields : List (String × Document)} (h : isPlain (.record fields)) :
    ∀ field ∈ fields, isName field.1 ∧ field.2.isPlain := by
  rw [isPlain, everywhere, Bool.and_eq_true] at h
  exact fun field hfield =>
    ⟨List.all_eq_true.mp h.1 field hfield, everywhere_fields.mp h.2 field hfield⟩

open Scanner (Scans)

/-- Behind an item or a field there is a bracket or a comma. -/
theorem ends_bracket {cs : List Char} (close : Char) (hclose : isBracket close)
    (hcs : cs = [] ∨ ∃ behind, cs = ',' :: behind) (brackets : Nat) (rest : List Char) :
    Plain.Ends (brackets + 1 ≠ 0) (cs ++ close :: rest) := by
  obtain rfl | ⟨behind, rfl⟩ := hcs
  · exact .inr ⟨by simp, close, rest, rfl, hclose⟩
  · exact .inr ⟨by simp, ',', behind ++ close :: rest, rfl, by decide⟩

theorem itemsCharacters_false (items : List Document) :
    itemsCharacters false items = [] ∨ ∃ behind, itemsCharacters false items = ',' :: behind := by
  cases items with
  | nil => exact .inl rfl
  | cons item items => exact .inr ⟨_, rfl⟩

theorem fieldsCharacters_false (fields : List (String × Document)) :
    fieldsCharacters false fields = [] ∨
      ∃ behind, fieldsCharacters false fields = ',' :: behind := by
  cases fields with
  | nil => exact .inl rfl
  | cons field fields => exact .inr ⟨_, rfl⟩

/-- The comma before an item that is not the first one. -/
theorem scans_comma (first : Bool) (rest : List Char) (brackets : Nat) (allowed : Bool)
    (h : first → allowed) :
    Scans (if first then [] else [',']) rest (if first then [] else [.comma]) (brackets, allowed)
      (brackets, true) := by
  cases first with
  | false => exact .comma rest brackets allowed
  | true =>
    obtain rfl : allowed = true := h rfl
    exact .nil rest _

/-- What is shown of each document by induction over its parts. -/
def Scanned (d : Document) : Prop :=
  ∀ (brackets : Nat) (allowed : Bool) (rest : List Char), Plain.Ends (brackets ≠ 0) rest →
    Scans (characters d) rest (tokens d) (brackets, allowed) (brackets, false)

theorem scans_items {items : List Document} (h : ∀ item ∈ items, item.Scanned)
    (first allowed : Bool) (hfirst : first → allowed) (rest : List Char) (brackets : Nat) :
    ∃ allowed', Scans (itemsCharacters first items) (']' :: rest) (itemsTokens first items)
      (brackets + 1, allowed) (brackets + 1, allowed') := by
  induction items generalizing first allowed with
  | nil => exact ⟨allowed, .nil _ _⟩
  | cons item items ih =>
    obtain ⟨hitem, hitems⟩ := List.forall_mem_cons.mp h
    obtain ⟨allowed', hrest⟩ := ih hitems false false nofun
    have hbehind := ends_bracket ']' (by decide) (itemsCharacters_false items) brackets rest
    exact ⟨allowed', ((scans_comma first _ _ allowed hfirst).append
      (hitem _ _ _ hbehind)).append hrest⟩

theorem scans_fields {fields : List (String × Document)}
    (h : ∀ field ∈ fields, isName field.1 ∧ field.2.Scanned) (first allowed : Bool)
    (hfirst : first → allowed) (rest : List Char) (brackets : Nat) :
    ∃ allowed', Scans (fieldsCharacters first fields) ('\x7d' :: rest) (fieldsTokens first fields)
      (brackets + 1, allowed) (brackets + 1, allowed') := by
  induction fields generalizing first allowed with
  | nil => exact ⟨allowed, .nil _ _⟩
  | cons field fields ih =>
    obtain ⟨name, value⟩ := field
    obtain ⟨⟨hname, hvalue⟩, hfields⟩ := List.forall_mem_cons.mp h
    obtain ⟨allowed', hrest⟩ := ih hfields false false nofun
    refine ⟨allowed', ?_⟩
    have hbehind := ends_bracket '\x7d' (by decide) (fieldsCharacters_false fields)
      brackets rest
    have hscans := (((scans_comma first _ _ allowed hfirst).append (.name hname _ _)).append
      (hvalue _ _ _ hbehind)).append hrest
    simpa [fieldsCharacters, fieldsTokens] using hscans

theorem characters_of_isWord {d : Document} (h : d.isWord) : characters d = d.word.toList := by
  cases d with
  | null | boolean | integer | real => rfl
  | text | list | record => cases h

theorem tokens_of_isWord {d : Document} (h : d.isWord) : tokens d = [.scalar .plain d.word] := by
  cases d with
  | null | boolean | integer | real => rfl
  | text | list | record => cases h

theorem scanned_of_isWord {d : Document} (h : d.isWord) : d.Scanned := by
  intro brackets allowed rest hrest
  rw [characters_of_isWord h, tokens_of_isWord h]
  exact .word (looksPlain_word h) hrest allowed

theorem scanned {d : Document} (h : d.isPlain) : d.Scanned := by
  induction d using Document.induction with
  | null | boolean | integer | real => exact scanned_of_isWord rfl
  | text s => exact fun brackets allowed rest _ => .text h rest brackets allowed
  | list items ih =>
    intro brackets allowed rest _
    obtain ⟨allowed', hitems⟩ := scans_items
      (fun item hitem => ih item hitem (isPlain_list h item hitem)) true true (fun _ => rfl) rest
      brackets
    exact ((Scans.openBracket (.inl ⟨rfl, rfl⟩) _ _ _).append hitems).append
      (.closeBracket (.inl ⟨rfl, rfl⟩) _ _ _)
  | record fields ih =>
    intro brackets allowed rest _
    have hparts : ∀ field ∈ fields, isName field.1 ∧ field.2.Scanned := fun field hfield =>
      (isPlain_record h field hfield).imp_right (ih field hfield)
    obtain ⟨allowed', hfields⟩ := scans_fields hparts true true (fun _ => rfl) rest brackets
    exact ((Scans.openBracket (.inr ⟨rfl, rfl⟩) _ _ _).append hfields).append
      (.closeBracket (.inr ⟨rfl, rfl⟩) _ _ _)

/-- Whether a character may stand in a text as it is, and is no end of a line to be unified. -/
def isKept (c : Char) : Bool := isAllowed c ∧ c ≠ '\r' ∧ c ≠ '\u0085'

theorem unifyBreaks_of_isKept {cs : List Char} (h : ∀ c ∈ cs, isKept c) : unifyBreaks cs = cs := by
  induction cs with
  | nil => rfl
  | cons c cs ih =>
    obtain ⟨hc, hcs⟩ := List.forall_mem_cons.mp h
    obtain ⟨-, hreturn, hnext⟩ := of_decide_eq_true hc
    have hstep : unifyBreaks (c :: cs) = c :: unifyBreaks cs := by
      rw [unifyBreaks, if_neg (not_or.mpr ⟨hreturn, hnext⟩)]
      exact fun _ heq _ => hreturn heq
    rw [hstep, ih hcs]

theorem isKept_writeCharacter {c : Char} (h : isOnLine c) : ∀ a ∈ writeCharacter c, isKept a := by
  unfold writeCharacter
  split_ifs with hescaped hcontrol
  · obtain rfl | rfl := hescaped <;> exact List.all_eq_true.mp (by decide)
  · exact List.all_eq_true.mp (holds_of_toNat_lt
      (P := fun c => ('\x5c' :: 'u' :: '0' :: '0' :: Text.Hex.byteDigits c.toUInt8).all isKept)
      (by decide +kernel) hcontrol)
  · obtain ⟨hallowed, -, hnext⟩ := (of_decide_eq_true h).resolve_left hcontrol
    have hreturn : c ≠ '\r' := by
      rintro rfl
      exact hcontrol (by decide)
    simp [isKept, hallowed, hnext, hreturn]

theorem isKept_writeText {s : String} (h : isLine s) : ∀ c ∈ (writeText s).toList, isKept c := by
  have hquote : isKept '\x22' := by decide
  intro c hc
  simp only [writeText, String.toList_ofList, List.cons_append, List.mem_cons, List.mem_append,
    List.mem_flatMap, List.not_mem_nil, or_false] at hc
  obtain rfl | ⟨a, ha, hc⟩ | rfl := hc
  · exact hquote
  · exact isKept_writeCharacter (List.all_eq_true.mp h a ha) c hc
  · exact hquote

theorem toNat_lt_of_isWordCharacter {c : Char} (h : isWordCharacter c) : c.toNat < 128 := by
  -- capital letters, small letters and digits all end before the hundred and twenty-eighth
  have hlast (last : Char) (hlt : last.toNat < 128) (hle : c.val ≤ last.val) : c.toNat < 128 :=
    (UInt32.le_iff_toNat_le.mp hle).trans_lt hlt
  obtain halphanum | rfl | rfl | rfl := of_decide_eq_true h
  · obtain halpha | hdigit := (Bool.or_eq_true _ _).mp halphanum
    · obtain hupper | hlower := (Bool.or_eq_true _ _).mp halpha
      · exact hlast 'Z' (by decide) (of_decide_eq_true hupper).2
      · exact hlast 'z' (by decide) (of_decide_eq_true ((Bool.and_eq_true _ _).mp hlower).2)
    · exact hlast '9' (by decide) (of_decide_eq_true ((Bool.and_eq_true _ _).mp hdigit).2)
  · decide
  · decide
  · decide

theorem isKept_of_isWordCharacter {c : Char} (h : isWordCharacter c) : isKept c :=
  holds_of_toNat_lt (P := fun c => isWordCharacter c → isKept c) (by decide +kernel)
    (toNat_lt_of_isWordCharacter h) h

theorem isKept_comma (first : Bool) : ∀ c ∈ if first then [] else [','], isKept c :=
  List.all_eq_true.mp (by cases first <;> decide)

theorem isKept_items {items : List Document} (h : ∀ item ∈ items, ∀ c ∈ characters item, isKept c)
    (first : Bool) : ∀ c ∈ itemsCharacters first items, isKept c := by
  induction items generalizing first with
  | nil => nofun
  | cons item items ih =>
    obtain ⟨hitem, hitems⟩ := List.forall_mem_cons.mp h
    have hbefore := List.forall_mem_append.mpr ⟨isKept_comma first, hitem⟩
    exact List.forall_mem_append.mpr ⟨hbefore, ih hitems false⟩

theorem isKept_fields {fields : List (String × Document)}
    (h : ∀ field ∈ fields, isName field.1 ∧ ∀ c ∈ characters field.2, isKept c) (first : Bool) :
    ∀ c ∈ fieldsCharacters first fields, isKept c := by
  induction fields generalizing first with
  | nil => nofun
  | cons field fields ih =>
    obtain ⟨name, value⟩ := field
    obtain ⟨⟨hname, hvalue⟩, hfields⟩ := List.forall_mem_cons.mp h
    have hcolon : isKept ':' := by decide
    have hquoted := isKept_writeText (of_decide_eq_true hname).1
    have hbefore := List.forall_mem_append.mpr ⟨isKept_comma first, hquoted⟩
    have hfield := List.forall_mem_append.mpr ⟨hbefore, List.forall_mem_cons.mpr ⟨hcolon, hvalue⟩⟩
    exact List.forall_mem_append.mpr ⟨hfield, ih hfields false⟩

theorem isKept_characters {d : Document} (h : d.isPlain) : ∀ c ∈ characters d, isKept c := by
  have hword {d : Document} (hd : d.isWord) : ∀ c ∈ characters d, isKept c := by
    rw [characters_of_isWord hd]
    exact fun c hc => isKept_of_isWordCharacter ((looksPlain_word hd).characters c hc)
  induction d using Document.induction with
  | null | boolean | integer | real => exact hword rfl
  | text s => exact isKept_writeText h
  | list items ih =>
    have hitems := isKept_items (fun item hitem => ih item hitem (isPlain_list h item hitem)) true
    have hopen : isKept '[' := by decide
    have hclose : isKept ']' := by decide
    exact List.forall_mem_append.mpr
      ⟨List.forall_mem_cons.mpr ⟨hopen, hitems⟩, List.forall_mem_singleton.mpr hclose⟩
  | record fields ih =>
    have hfields := isKept_fields (fun field hfield =>
      (isPlain_record h field hfield).imp_right (ih field hfield)) true
    have hopen : isKept '\x7b' := by decide
    have hclose : isKept '\x7d' := by decide
    exact List.forall_mem_append.mpr
      ⟨List.forall_mem_cons.mpr ⟨hopen, hfields⟩, List.forall_mem_singleton.mpr hclose⟩

/-- A written document is cut into its tokens. -/
theorem scan?_write {d : Document} (h : d.isPlain) :
    Yaml.Token.scan? d.write.toList = some (tokens d) := by
  have hkept := isKept_characters h
  have hallowed : (characters d).all isAllowed :=
    List.all_eq_true.mpr fun c hc => (of_decide_eq_true (hkept c hc)).1
  obtain ⟨s, ⟨steps, hsteps, hrun⟩, hflow⟩ :=
    scanned h 0 true [] (.inl rfl) .start .start [] Scanner.flow_start
  obtain ⟨fuel, hfuel⟩ : ∃ fuel, (characters d).length + 1 = fuel + 1 + steps :=
    ⟨(characters d).length - steps, by simp at hsteps; omega⟩
  rw [List.append_nil] at hrun
  rw [toList_write, Yaml.Token.scan?, if_pos hallowed, unifyBreaks_of_isKept hkept]
  dsimp only
  rw [hfuel]
  exact (hrun (fuel + 1)).trans (hflow.run?_nil fuel _)

end Document

end ChipEight

import ChipEight.Document.Readable
import Mathlib.Tactic.SplitIfs

/-!
# Written documents

What a written document is made of: brackets, marks, quoted texts and words. A word is a number or
one of `null`, `true` and `false`. A text that was written between quotes on one line is read as
itself: characters are read one after another, and only blanks wait in the gap until it is known
that more follows on the line.
-/
namespace ChipEight

namespace Document

/-- A document without quotes and brackets as it is written. -/
def word : Document → String
  | .null => "null"
  | .boolean value => if value then "true" else "false"
  | .integer n => toString n
  | .real x => Decimal.ofFloat x
  | _ => ""

mutual

/-- The characters of a document as it is written. -/
def characters : Document → List Char
  | .text s => (writeText s).toList
  | .list items => '[' :: itemsCharacters true items ++ [']']
  | .record fields => '\x7b' :: fieldsCharacters true fields ++ ['\x7d']
  | d => (word d).toList

/-- The characters of documents with a comma before each, or before each but the first. -/
def itemsCharacters (first : Bool) : List Document → List Char
  | [] => []
  | item :: items =>
    (if first then [] else [',']) ++ characters item ++ itemsCharacters false items

def fieldsCharacters (first : Bool) : List (String × Document) → List Char
  | [] => []
  | (name, value) :: fields =>
    (if first then [] else [',']) ++ (writeText name).toList ++ ':' :: characters value ++
      fieldsCharacters false fields

end

theorem toList_writeItems {items : List Document}
    (h : ∀ item ∈ items, ∀ out, (writeAfter out item).toList = out.toList ++ characters item)
    (first : Bool) (out : String) :
    (writeItems (if first ∨ items.isEmpty then out else out.push ',') items).toList =
      out.toList ++ itemsCharacters first items := by
  induction items generalizing first out with
  | nil => simp [writeItems, itemsCharacters]
  | cons item items ih =>
    obtain ⟨hitem, hitems⟩ := List.forall_mem_cons.mp h
    have hrest := ih hitems false
    simp only [Bool.false_eq_true, false_or] at hrest
    rw [writeItems, hrest, hitem, itemsCharacters]
    cases first <;> simp

theorem toList_writeFields {fields : List (String × Document)}
    (h : ∀ field ∈ fields, ∀ out,
      (writeAfter out field.2).toList = out.toList ++ characters field.2)
    (first : Bool) (out : String) :
    (writeFields (if first ∨ fields.isEmpty then out else out.push ',') fields).toList =
      out.toList ++ fieldsCharacters first fields := by
  induction fields generalizing first out with
  | nil => simp [writeFields, fieldsCharacters]
  | cons field fields ih =>
    obtain ⟨name, value⟩ := field
    obtain ⟨hfield, hfields⟩ := List.forall_mem_cons.mp h
    have hrest := ih hfields false
    simp only [Bool.false_eq_true, false_or] at hrest
    rw [writeFields, hrest, hfield, fieldsCharacters]
    cases first <;> simp

theorem toList_writeAfter (d : Document) (out : String) :
    (writeAfter out d).toList = out.toList ++ characters d := by
  induction d using Document.induction generalizing out with
  | null | integer | real | text => simp [writeAfter, characters, word]
  | boolean value => cases value <;> simp [writeAfter, characters, word]
  | list items ih =>
    have hitems := toList_writeItems ih true (out.push '[')
    simp only [true_or, if_true, String.toList_push] at hitems
    simp [writeAfter, characters, hitems]
  | record fields ih =>
    have hfields := toList_writeFields ih true (out.push '\x7b')
    simp only [true_or, if_true, String.toList_push] at hfields
    simp [writeAfter, characters, hfields]

theorem toList_write (d : Document) : d.write.toList = characters d := by
  rw [write, toList_writeAfter]
  rfl

end Document

namespace Yaml

namespace Place

@[simp] theorem column_next (p : Place) (c : Char) : (p.next c).column = p.column + 1 := rfl

theorem column_foldl_next (p : Place) (cs : List Char) :
    (cs.foldl Place.next p).column = p.column + cs.length := by
  induction cs generalizing p with
  | nil => rfl
  | cons c cs ih => rw [List.foldl_cons, ih, column_next, List.length_cons]; omega

end Place

namespace Quoted

open Document (writeCharacter isOnLine)

theorem numbered?_append (digits rest : List Char) :
    numbered? digits.length (digits ++ rest) = numbered? digits.length digits := by
  rw [numbered?, numbered?, List.take_left, List.take_length]

theorem escape?_control {c : Char} (h : c < ' ') (rest : List Char) :
    escape? 'u' ('0' :: '0' :: Text.Hex.byteDigits c.toUInt8 ++ rest) = some (c, 4) := by
  have hread := Document.holds_of_toNat_lt
    (P := fun c => numbered? 4 ('0' :: '0' :: Text.Hex.byteDigits c.toUInt8) = some (c, 4))
    (by decide +kernel) h
  exact (numbered?_append ('0' :: '0' :: Text.Hex.byteDigits c.toUInt8) rest).trans hread

theorem not_isBreak_of_isOnLine {c : Char} (h : isOnLine c) (hc : ¬ c < ' ') : ¬ isBreak c := by
  simp only [isOnLine, decide_eq_true_eq] at h
  exact (h.resolve_left hc).2.1

section

variable {p : Place} (hp : p.column ≠ 0) (gap : Gap) (read : List Char)
include hp

theorem double?_escape {e a : Char} {count : Nat} {rest : List Char} (he : ¬ isBreak e)
    (hescape : escape? e rest = some (a, count)) :
    double? gap read p ('\x5c' :: e :: rest) =
      double? .closed (a :: (gap.folded ++ read))
        ((rest.take count).foldl Place.next ((p.next '\x5c').next e)) (rest.drop count) := by
  have hblank : ¬ isBlank '\x5c' := by decide
  have hbreak : ¬ isBreak '\x5c' := by decide
  rw [double?, if_neg hblank, if_neg hbreak, if_neg fun h => hp h.1]
  simp only [reduceIte, Char.reduceEq, he, hescape, Bool.false_eq_true]

theorem double?_plain {c : Char} (hblank : ¬ isBlank c) (hbreak : ¬ isBreak c)
    (hescaped : ¬ (c = '\x22' ∨ c = '\x5c')) (rest : List Char) :
    double? gap read p (c :: rest) =
      double? .closed (c :: (gap.folded ++ read)) (p.next c) rest := by
  rw [not_or] at hescaped
  rw [double?.eq_def]
  simp only [hblank, hbreak, hp, hescaped, false_and, Bool.false_eq_true, if_false]

/-- What is read of a character: it follows what was read before. -/
theorem double?_writeCharacter {c : Char} (hc : isOnLine c) {gap : Gap} (hgap : ¬ gap.hasLines)
    (read rest : List Char) :
    ∃ gap' read', double? gap read p (writeCharacter c ++ rest) =
        double? gap' read' ((writeCharacter c).foldl Place.next p) rest ∧
      ¬ gap'.hasLines ∧ gap'.folded ++ read' = c :: (gap.folded ++ read) := by
  unfold writeCharacter
  split_ifs with hescaped hcontrol
  · refine ⟨.closed, c :: (gap.folded ++ read), ?_, by decide, rfl⟩
    obtain rfl | rfl := hescaped
    · exact double?_escape hp gap read (e := '\x22') (by decide) rfl
    · exact double?_escape hp gap read (e := '\x5c') (by decide) rfl
  · refine ⟨.closed, c :: (gap.folded ++ read), ?_, by decide, rfl⟩
    exact double?_escape hp gap read (by decide) (escape?_control hcontrol rest)
  · have hbreak := not_isBreak_of_isOnLine hc hcontrol
    by_cases hblank : isBlank c
    · refine ⟨gap.addBlank c, read, ?_, ?_, ?_⟩
      · rw [List.singleton_append, double?, if_pos hblank]
        rfl
      · cases gap <;> simp_all [Gap.addBlank, Gap.hasLines]
      · cases gap <;> simp_all [Gap.addBlank, Gap.hasLines, Gap.folded]
    · exact ⟨.closed, c :: (gap.folded ++ read),
        double?_plain hp gap read hblank hbreak hescaped rest, by decide, rfl⟩

/-- The rest of a quoted text is what was written up to the closing quote. -/
theorem double?_flatMap_writeCharacter {cs : List Char} (hcs : ∀ c ∈ cs, isOnLine c) {gap : Gap}
    (hgap : ¬ gap.hasLines) (read rest : List Char) :
    double? gap read p (cs.flatMap writeCharacter ++ '\x22' :: rest) =
      some (String.ofList ((gap.folded ++ read).reverse ++ cs),
        ⟨(cs.flatMap writeCharacter ++ ['\x22']).foldl Place.next p, rest⟩) := by
  induction cs generalizing p gap read with
  | nil =>
    have hblank : ¬ isBlank '\x22' := by decide
    have hbreak : ¬ isBreak '\x22' := by decide
    rw [List.flatMap_nil, List.nil_append, List.nil_append, double?, if_neg hblank, if_neg hbreak,
      if_neg fun h => hp h.1, List.append_nil]
    rfl
  | cons c cs ih =>
    obtain ⟨hc, hrest⟩ := List.forall_mem_cons.mp hcs
    obtain ⟨gap', read', hstep, hgap', hread⟩ := double?_writeCharacter hp hc hgap read
      (cs.flatMap writeCharacter ++ '\x22' :: rest)
    have hplace : ((writeCharacter c).foldl Place.next p).column ≠ 0 := by
      rw [Place.column_foldl_next]
      omega
    rw [List.flatMap_cons, List.append_assoc, List.append_assoc, hstep, ih hplace hrest hgap' read',
      hread, List.foldl_append]
    simp

end

/-- A text on one line is read from between its quotes. -/
theorem double?_writeText {s : String} (hs : Document.isLine s) (p : Place) (rest : List Char) :
    ∃ inside, (Document.writeText s).toList = '\x22' :: inside ∧
      double? .closed [] (p.next '\x22') (inside ++ rest) =
        some (s, ⟨(Document.writeText s).toList.foldl Place.next p, rest⟩) := by
  have hcs : ∀ c ∈ s.toList, isOnLine c := List.all_eq_true.mp hs
  have hgap : ¬ Gap.closed.hasLines := by decide
  refine ⟨s.toList.flatMap writeCharacter ++ ['\x22'], by simp [Document.writeText], ?_⟩
  have hplace : (p.next '\x22').column ≠ 0 := Nat.succ_ne_zero p.column
  have hread := double?_flatMap_writeCharacter hplace hcs hgap [] rest
  rw [List.append_assoc, List.singleton_append, hread]
  simp [Document.writeText, Gap.folded]

end Quoted

end Yaml

end ChipEight

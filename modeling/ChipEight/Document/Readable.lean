import ChipEight.Document.Printer
import ChipEight.Yaml.Token.Scan

/-!
# Documents within the bounds of YAML

A document on one line is also a text of the richer notation that configurations are written in, as
long as it keeps to the bounds of that notation: on characters, on the length of names and on the
size of whole numbers.
-/
namespace ChipEight.Document

/-- What holds of a document without parts, and of one with parts if it holds of these. -/
theorem induction {P : Document → Prop} (null : P .null) (boolean : ∀ b, P (.boolean b))
    (integer : ∀ n, P (.integer n)) (real : ∀ x, P (.real x)) (text : ∀ s, P (.text s))
    (list : ∀ items, (∀ item ∈ items, P item) → P (.list items))
    (record : ∀ fields, (∀ field ∈ fields, P field.2) → P (.record fields)) (d : Document) : P d :=
  @Document.rec P (fun items => ∀ item ∈ items, P item) (fun fields => ∀ field ∈ fields, P field.2)
    (fun field => P field.2) null boolean integer real text list record
    (fun _ h => nomatch h) (fun _ _ hfirst hrest => List.forall_mem_cons.mpr ⟨hfirst, hrest⟩)
    (fun _ h => nomatch h) (fun _ _ hfirst hrest => List.forall_mem_cons.mpr ⟨hfirst, hrest⟩)
    (fun _ _ h => h) d

mutual

/-- Whether a condition holds of a document and of all documents within it. -/
def everywhere (p : Document → Bool) : Document → Bool
  | .list items => p (.list items) && itemsEverywhere p items
  | .record fields => p (.record fields) && fieldsEverywhere p fields
  | d => p d

def itemsEverywhere (p : Document → Bool) : List Document → Bool
  | [] => true
  | item :: items => everywhere p item && itemsEverywhere p items

def fieldsEverywhere (p : Document → Bool) : List (String × Document) → Bool
  | [] => true
  | (_, value) :: fields => everywhere p value && fieldsEverywhere p fields

end

mutual

/-- How deep lists and records are nested: zero if there are none. -/
def depth : Document → Nat
  | .list items => itemsDepth items + 1
  | .record fields => fieldsDepth fields + 1
  | _ => 0

def itemsDepth : List Document → Nat
  | [] => 0
  | item :: items => max (depth item) (itemsDepth items)

def fieldsDepth : List (String × Document) → Nat
  | [] => 0
  | (_, value) :: fields => max (depth value) (fieldsDepth fields)

end

/-- Whether the names within each record differ. -/
def namesDiffer (d : Document) : Bool :=
  d.everywhere fun
    | .record fields => (fields.map Prod.fst).Nodup
    | _ => true

/-- A condition on characters that was checked on each number below a bound. -/
theorem holds_of_toNat_lt {P : Char → Prop} {bound : Nat} (h : ∀ n < bound, P (Char.ofNat n))
    {c : Char} (hc : c.toNat < bound) : P c := by
  have hp := h c.toNat hc
  rwa [Char.ofNat_toNat] at hp

/-- Whether a character can stand on a line, as it is or by its number. -/
def isOnLine (c : Char) : Bool :=
  c < ' ' ∨ (Yaml.isAllowed c ∧ ¬ Yaml.isBreak c ∧ c ≠ '\u0085')

def isLine (s : String) : Bool := s.toList.all isOnLine

/-- Whether a name is on one line and not too long for the mark behind it. -/
def isName (s : String) : Bool := isLine s ∧ (writeText s).utf8ByteSize ≤ Yaml.KeyStart.reach

/-- Whether a document keeps to the bounds of characters, names and numbers. -/
def isPlain (d : Document) : Bool :=
  d.everywhere fun
    | .integer n => IsInteger n
    | .text s => isLine s
    | .record fields => fields.all fun field => isName field.1
    | _ => true

end ChipEight.Document

/-!
# Documents

Plain values: null, truth values, numbers, texts, lists and records, as a JSON text holds them. The
fields of a record keep the order of the text and may repeat a name; whoever asks for a name has to
say what then. A number written as a whole number of at most sixty-four bits, signed or unsigned, is
an integer; every other number is real.
-/
namespace ChipEight

inductive Document
  | null
  | boolean (value : Bool)
  | integer (value : Int)
  | real (value : Float)
  | text (value : String)
  | list (items : List Document)
  | record (fields : List (String × Document))

namespace Document

/-- The whole numbers that are integers. -/
def IsInteger (n : Int) : Prop := -0x8000000000000000 ≤ n ∧ n ≤ 0xFFFFFFFFFFFFFFFF

instance (n : Int) : Decidable (IsInteger n) := inferInstanceAs (Decidable (_ ∧ _))

/-- A whole number as a document, for numbers that are known to be integers. -/
def ofNat (n : Nat) : Document := .integer n

end Document

namespace Fields

inductive Entry (α : Type)
  | absent
  | once (value : α)
  | repeated

def find {α : Type} (fields : List (String × α)) (name : String) : Entry α :=
  match fields.filter (·.1 = name) with
  | [] => .absent
  | [(_, value)] => .once value
  | _ => .repeated

end Fields

end ChipEight

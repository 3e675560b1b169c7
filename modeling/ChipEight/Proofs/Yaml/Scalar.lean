import ChipEight.Proofs.Yaml.Written
import ChipEight.RunConfig.Document
import Mathlib.Data.Nat.Digits.Defs

/-!
# The meaning of words

What the words of a written document say as scalars of YAML. A whole number reads back as itself,
with its sign; a real number is neither a whole number nor one of the words for null and truth
values, whatever its digits are.
-/
namespace ChipEight

namespace Text.Hex

theorem value?_of_isDigit {c : Char} (h : c.isDigit) :
    ∃ d : Fin 16, value? c = some d ∧ d.val = c.toNat - '0'.toNat ∧ d.val < 10 := by
  have hlt : c.toNat < 58 := Nat.lt_succ_of_le (Char.isDigit_iff_toNat.mp h).2
  exact Document.holds_of_toNat_lt (P := fun c => c.isDigit → ∃ d : Fin 16, value? c = some d ∧
    d.val = c.toNat - '0'.toNat ∧ d.val < 10) (by decide +kernel) hlt h

theorem isDigit_of_value? {c : Char} {d : Fin 16} (h : value? c = some d) (hd : d.val < 10) :
    c.isDigit := by
  have hdigits : ∀ d : Fin 16, d.val < 10 → (digit d).isDigit ∧ (lowerDigit d).isDigit := by decide
  have hc := List.find?_some h
  simp only [decide_eq_true_eq] at hc
  obtain rfl | rfl := hc
  · exact (hdigits d hd).1
  · exact (hdigits d hd).2

end Text.Hex

namespace Yaml.Scalar

/-- Digits are read from the first to the last, in base ten. -/
theorem foldlM_digits {digits : List Char} (h : ∀ c ∈ digits, c.isDigit) (n : Nat) :
    digits.foldlM (fun n c => do
      let d ← Text.Hex.value? c
      if d.val < 10 then return 10 * n + d.val else none) n =
        some (Nat.ofDigitChars 10 digits n) := by
  induction digits generalizing n with
  | nil => rfl
  | cons c digits ih =>
    obtain ⟨hc, hdigits⟩ := List.forall_mem_cons.mp h
    obtain ⟨d, hvalue, hd, hlt⟩ := Text.Hex.value?_of_isDigit hc
    rw [List.foldlM_cons, hvalue, Nat.ofDigitChars_cons, ← hd, ← ih hdigits]
    simp [hlt]

theorem isDigit_of_foldlM_digits {cs : List Char} {n m : Nat}
    (h : cs.foldlM (fun n c => do
      let d ← Text.Hex.value? c
      if d.val < 10 then return 10 * n + d.val else none) n = some m) :
    ∀ c ∈ cs, c.isDigit := by
  induction cs generalizing n with
  | nil => nofun
  | cons c cs ih =>
    rw [List.foldlM_cons] at h
    obtain ⟨k, hk, hrest⟩ := Option.bind_eq_some_iff.mp h
    obtain ⟨d, hvalue, hk⟩ := Option.bind_eq_some_iff.mp hk
    have hd : d.val < 10 := by
      by_contra hge
      simp [hge] at hk
    exact List.forall_mem_cons.mpr ⟨Text.Hex.isDigit_of_value? hvalue hd, ih hrest⟩

theorem isDigit_of_digits? {cs : List Char} {n : Nat} (h : digits? 10 cs = some n) :
    ∀ c ∈ cs, c.isDigit := by
  cases cs with
  | nil => nofun
  | cons c cs => exact isDigit_of_foldlM_digits h

theorem isDigit_of_mem_toDigits {n : Nat} {c : Char} (h : c ∈ Nat.toDigits 10 n) : c.isDigit :=
  Nat.isDigit_of_mem_toDigits (by decide) (by decide) h

theorem digits?_toDigits (n : Nat) : digits? 10 (Nat.toDigits 10 n) = some n := by
  have hread := foldlM_digits (fun c => isDigit_of_mem_toDigits (n := n) (c := c)) 0
  rw [Nat.ofDigitChars_ten_toDigits] at hread
  cases hcs : Nat.toDigits 10 n with
  | nil => exact absurd hcs Nat.toDigits_ne_nil
  | cons c cs =>
    rw [hcs] at hread
    exact hread

/-- The first digit of a number is no zero, unless it is the only one. -/
theorem head?_toDigits_ne_zero {n : Nat} (h : 1 < (Nat.toDigits 10 n).length) :
    (Nat.toDigits 10 n).head? ≠ some '0' := by
  induction n using Nat.strongRecOn with
  | _ n ih =>
    by_cases hn : n < 10
    · rw [Nat.toDigits_of_lt_base hn] at h
      exact absurd h (Nat.lt_irrefl 1)
    · have hstep : Nat.toDigits 10 n = Nat.toDigits 10 (n / 10) ++ [(n % 10).digitChar] := by
        rw [Nat.toDigits_eq_if (by decide), if_neg hn]
      rw [hstep, List.head?_append, Option.or_of_isSome (by simp [Nat.toDigits_ne_nil])]
      by_cases hlt : n / 10 < 10
      · have hall : ∀ d < 10, d ≠ 0 → [Nat.digitChar d].head? ≠ some '0' := by decide
        rw [Nat.toDigits_of_lt_base hlt]
        exact hall _ hlt (by omega)
      · have hpos := Nat.length_toDigits_pos (b := 10) (n := n / 10 / 10)
        refine ih (n / 10) (by omega) ?_
        rw [Nat.toDigits_eq_if (by decide), if_neg hlt, List.length_append]
        exact Nat.lt_add_left_iff_pos.mpr hpos

/-- The characters of real numbers, the sign in front aside. -/
def isNumeral (c : Char) : Bool := c.isDigit ∨ c = '.' ∨ c = 'e' ∨ c = '+' ∨ c = '-'

theorem isNumeral_of_isDigit {c : Char} (h : c.isDigit) : isNumeral c := by simp [isNumeral, h]

/-- Of numerals none is the mark of another base. -/
theorem magnitude?_of_isNumeral {cs : List Char} (h : ∀ c ∈ cs, isNumeral c) :
    magnitude? cs = if cs.length > 1 ∧ cs.head? = some '0' then none else digits? 10 cs := by
  have hmark : ¬ isNumeral 'x' ∧ ¬ isNumeral 'o' ∧ ¬ isNumeral 'b' := by decide
  unfold magnitude?
  split
  · exact absurd (h 'x' (by simp)) hmark.1
  · exact absurd (h 'o' (by simp)) hmark.2.1
  · exact absurd (h 'b' (by simp)) hmark.2.2
  · rfl

theorem magnitude?_toDigits (n : Nat) : magnitude? (Nat.toDigits 10 n) = some n := by
  rw [magnitude?_of_isNumeral fun c hc => isNumeral_of_isDigit (isDigit_of_mem_toDigits hc),
    if_neg fun ⟨hlength, hhead⟩ => head?_toDigits_ne_zero hlength hhead, digits?_toDigits]

/-- A number with a point or a power of ten, its sign aside. -/
structure IsRealSize (cs : List Char) : Prop where
  first : ∃ c, cs.head? = some c ∧ c.isDigit
  numerals : ∀ c ∈ cs, isNumeral c
  mark : '.' ∈ cs ∨ 'e' ∈ cs

theorem IsRealSize.of_append {c mark : Char} (before behind : List Char)
    (hmark : mark = '.' ∨ mark = 'e') (hc : c.isDigit) (hbefore : ∀ a ∈ before, isNumeral a)
    (hbehind : ∀ a ∈ behind, isNumeral a) : IsRealSize (c :: before ++ mark :: behind) where
  first := ⟨c, rfl, hc⟩
  numerals := by
    have hnumeral : isNumeral mark := by obtain rfl | rfl := hmark <;> decide
    exact List.forall_mem_append.mpr ⟨List.forall_mem_cons.mpr ⟨isNumeral_of_isDigit hc, hbefore⟩,
      List.forall_mem_cons.mpr ⟨hnumeral, hbehind⟩⟩
  mark := by obtain rfl | rfl := hmark <;> simp

theorem IsRealSize.magnitude? {cs : List Char} (h : IsRealSize cs) : magnitude? cs = none := by
  rw [magnitude?_of_isNumeral h.numerals]
  split
  · rfl
  · cases hread : digits? 10 cs with
    | none => rfl
    | some n =>
      have hdigits := isDigit_of_digits? hread
      rcases h.mark with hmark | hmark
      · exact absurd (hdigits _ hmark) (by decide)
      · exact absurd (hdigits _ hmark) (by decide)

end Yaml.Scalar

namespace Decimal

open Yaml.Scalar

theorem isDigit_of_mem_repr {n : Nat} {c : Char} (h : c ∈ (Nat.repr n).toList) : c.isDigit := by
  rw [Nat.repr_eq_ofList_toDigits, String.toList_ofList] at h
  exact isDigit_of_mem_toDigits h

theorem isNumeral_of_mem_replicate {n : Nat} {c : Char} (h : c ∈ List.replicate n '0') :
    isNumeral c := by
  rw [List.eq_of_mem_replicate h]
  decide

theorem isRealSize_text (d : Decimal) : IsRealSize d.text.toList := by
  have hrepr (n : Nat) : ∀ a ∈ (Nat.repr n).toList, isNumeral a := fun a ha =>
    isNumeral_of_isDigit (isDigit_of_mem_repr ha)
  have hzeros (n : Nat) : ∀ a ∈ List.replicate n '0', isNumeral a := fun a =>
    isNumeral_of_mem_replicate
  have hdigits : ∀ c ∈ (Nat.repr d.digits).toList, c.isDigit := fun c => isDigit_of_mem_repr
  have hne : (Nat.repr d.digits).toList ≠ [] := by
    rw [Nat.repr_eq_ofList_toDigits, String.toList_ofList]
    exact Nat.toDigits_ne_nil
  unfold text
  generalize (Nat.repr d.digits).toList = digits at *
  obtain ⟨c, rest, rfl⟩ := List.exists_cons_of_ne_nil hne
  obtain ⟨hc, hrest⟩ := List.forall_mem_cons.mp hdigits
  have hnumerals : ∀ a ∈ c :: rest, isNumeral a := fun a ha => isNumeral_of_isDigit (hdigits a ha)
  have hbehind : ∀ a ∈ rest, isNumeral a := fun a ha => isNumeral_of_isDigit (hrest a ha)
  dsimp only
  generalize ((c :: rest).length : Int) + d.power = point
  have hpower (sign : Char) (hsign : isNumeral sign) :
      ∀ a ∈ sign :: (Nat.repr (point - 1).natAbs).toList, isNumeral a :=
    List.forall_mem_cons.mpr ⟨hsign, hrepr _⟩
  split_ifs with hzero hwhole hpart hsmall hone hless
  · exact ⟨⟨'0', rfl, rfl⟩, List.all_eq_true.mp (by decide), .inl (by decide)⟩
  · have h := IsRealSize.of_append _ _ (.inl rfl) hc
      (List.forall_mem_append.mpr ⟨hbehind, hzeros d.power.toNat⟩) (hzeros 1)
    simpa using h
  · obtain ⟨k, hk⟩ : ∃ k, point.toNat = k + 1 := ⟨point.toNat - 1, by omega⟩
    have h := IsRealSize.of_append (rest.take k) (rest.drop k) (.inl rfl) hc
      (fun a ha => hbehind a (List.mem_of_mem_take ha))
      (fun a ha => hbehind a (List.mem_of_mem_drop ha))
    simpa [hk] using h
  · have h := IsRealSize.of_append [] _ (.inl rfl) (rfl : Char.isDigit '0') (by simp)
      (List.forall_mem_append.mpr ⟨hzeros (-point).toNat, hnumerals⟩)
    simpa using h
  · have h := IsRealSize.of_append [] _ (.inr rfl) hc (by simp) (hpower '-' rfl)
    simpa [List.length_eq_zero_iff.mp (Nat.succ.inj hone)] using h
  · have h := IsRealSize.of_append [] _ (.inr rfl) hc (by simp) (hpower '+' rfl)
    simpa [List.length_eq_zero_iff.mp (Nat.succ.inj hone)] using h
  · have h := IsRealSize.of_append [] _ (.inl rfl) hc (by simp) (List.forall_mem_append.mpr
      ⟨hbehind, List.forall_mem_cons.mpr ⟨(rfl : isNumeral 'e'), hpower '-' rfl⟩⟩)
    simpa using h
  · have h := IsRealSize.of_append [] _ (.inl rfl) hc (by simp) (List.forall_mem_append.mpr
      ⟨hbehind, List.forall_mem_cons.mpr ⟨(rfl : isNumeral 'e'), hpower '+' rfl⟩⟩)
    simpa using h

/-- What is written of a real number besides its sign. -/
def IsSize (size : List Char) : Prop :=
  size = ['i', 'n', 'f'] ∨ size = ['N', 'a', 'N'] ∨ IsRealSize size

theorem toList_ofFloat (x : Float) :
    ∃ size, ((ofFloat x).toList = size ∨ (ofFloat x).toList = '-' :: size) ∧ IsSize size := by
  have htext := isRealSize_text (ofInterval (.ofBits x.toBits))
  unfold ofFloat
  dsimp only
  generalize (ofInterval (.ofBits x.toBits)).text = text at htext ⊢
  split_ifs
  · exact ⟨_, .inr rfl, .inl rfl⟩
  · exact ⟨_, .inl rfl, .inl rfl⟩
  · exact ⟨_, .inl rfl, .inr (.inl rfl)⟩
  · exact ⟨text.toList, .inr (by simp), .inr (.inr htext)⟩
  · exact ⟨text.toList, .inl (by simp), .inr (.inr htext)⟩

end Decimal

namespace Yaml.Scalar

open Decimal (IsSize)

/-- Behind its sign a real number is no whole number, and it starts like no other word. -/
theorem magnitude?_of_isSize {size : List Char} (h : IsSize size) : magnitude? size = none := by
  obtain rfl | rfl | h := h
  · rfl
  · rfl
  · exact h.magnitude?

theorem integer?_of_minus {text : String} {size : List Char} (h : text.toList = '-' :: size) :
    integer? text = (magnitude? size).map (⟨true, ·⟩) := by
  rw [integer?, h]
  rfl

theorem integer?_of_unsigned {text : String} {size : List Char} (h : text.toList = size)
    (hminus : size.head? ≠ some '-') (hplus : size.head? ≠ some '+') :
    integer? text = (magnitude? size).map (⟨false, ·⟩) := by
  rw [integer?, h]
  split
  · exact absurd rfl hminus
  · exact absurd rfl hplus
  · rfl

theorem IsRealSize.head?_ne {size : List Char} (h : IsRealSize size) {c : Char}
    (hc : ¬ c.isDigit) : size.head? ≠ some c := by
  obtain ⟨d, hhead, hd⟩ := h.first
  intro heq
  exact hc (Option.some.inj (heq.symm.trans hhead) ▸ hd)

theorem integer?_ofFloat (x : Float) : integer? (Decimal.ofFloat x) = none := by
  obtain ⟨size, hlist | hlist, hsize⟩ := Decimal.toList_ofFloat x
  · obtain ⟨hminus, hplus⟩ : size.head? ≠ some '-' ∧ size.head? ≠ some '+' := by
      obtain rfl | rfl | h := hsize
      · decide
      · decide
      · exact ⟨h.head?_ne (by decide), h.head?_ne (by decide)⟩
    rw [integer?_of_unsigned hlist hminus hplus, magnitude?_of_isSize hsize, Option.map_none]
  · rw [integer?_of_minus hlist, magnitude?_of_isSize hsize, Option.map_none]

/-- The words that stand for null and truth values. -/
def keywords : List String :=
  ["null", "Null", "NULL", "~", "true", "True", "TRUE", "false", "False", "FALSE", ""]

theorem ofFloat_notMem_keywords (x : Float) : Decimal.ofFloat x ∉ keywords := by
  have hhead : ∀ text ∈ keywords, ¬ text.toList.head?.any Char.isDigit ∧
      text.toList.head? ≠ some '-' ∧ text.toList ≠ ['i', 'n', 'f'] ∧
        text.toList ≠ ['N', 'a', 'N'] := by decide
  intro hmem
  obtain ⟨hdigit, hsign, hinf, hnan⟩ := hhead _ hmem
  obtain ⟨size, hlist | hlist, hsize⟩ := Decimal.toList_ofFloat x
  · rw [hlist] at hdigit hinf hnan
    obtain rfl | rfl | h := hsize
    · exact hinf rfl
    · exact hnan rfl
    · obtain ⟨c, hhead, hc⟩ := h.first
      exact hdigit (by rw [hhead]; exact hc)
  · exact hsign (by rw [hlist]; rfl)

theorem toList_toString (n : Int) :
    (toString n).toList = (if n < 0 then ['-'] else []) ++ Nat.toDigits 10 n.natAbs := by
  rw [Int.toString_eq_repr, Int.repr_eq_if]
  split_ifs with hle hlt hlt
  · omega
  · rw [Nat.repr_eq_ofList_toDigits, show n.toNat = n.natAbs by omega]
    simp
  · rw [Nat.repr_eq_ofList_toDigits, show (-n).toNat = n.natAbs by omega]
    simp
  · omega

theorem integer?_toString (n : Int) : integer? (toString n) = some ⟨n < 0, n.natAbs⟩ := by
  have hlist := toList_toString n
  by_cases hn : n < 0
  · rw [if_pos hn, List.singleton_append] at hlist
    rw [integer?_of_minus hlist, magnitude?_toDigits, Option.map_some, decide_eq_true hn]
  · have hdigits : ∀ c, (Nat.toDigits 10 n.natAbs).head? = some c → c.isDigit := fun c hc =>
      isDigit_of_mem_toDigits (List.mem_of_mem_head? hc)
    rw [if_neg hn, List.nil_append] at hlist
    rw [integer?_of_unsigned hlist (fun h => absurd (hdigits _ h) (by decide))
      (fun h => absurd (hdigits _ h) (by decide)), magnitude?_toDigits, Option.map_some,
      decide_eq_false hn]

theorem toString_notMem_keywords (n : Int) : toString n ∉ keywords := by
  have hnone : ∀ text ∈ keywords, integer? text = none := by decide
  intro hmem
  exact Option.some_ne_none _ ((integer?_toString n).symm.trans (hnone _ hmem))

theorem boolean?_of_notMem_keywords {text : String} (h : text ∉ keywords) :
    boolean? text = none := by
  simp only [keywords, List.mem_cons, List.not_mem_nil, or_false, not_or] at h
  simp [boolean?, h]

theorem isNull_of_notMem_keywords {text : String} (h : text ∉ keywords) :
    ¬ (text = "" ∨ isNull text) := by
  simp only [keywords, List.mem_cons, List.not_mem_nil, or_false, not_or] at h
  simp [isNull, h]

end Yaml.Scalar

namespace Document

open Yaml

/-- The whole number of a document that is one, with its sign. -/
def integer? : Document → Option Integer
  | .integer n => some ⟨n < 0, n.natAbs⟩
  | _ => none

theorem integer?_word (d : Document) : Scalar.integer? d.word = d.integer? := by
  cases d with
  | null => rfl
  | boolean value => cases value <;> rfl
  | integer n => exact Scalar.integer?_toString n
  | real x => exact Scalar.integer?_ofFloat x
  | text | list | record => rfl

theorem boolean?_word (d : Document) : Scalar.boolean? d.word = d.boolean? := by
  cases d with
  | null => rfl
  | boolean value => cases value <;> rfl
  | integer n => exact Scalar.boolean?_of_notMem_keywords (Scalar.toString_notMem_keywords n)
  | real x => exact Scalar.boolean?_of_notMem_keywords (Scalar.ofFloat_notMem_keywords x)
  | text | list | record => rfl

/-- Whether a value is null or a whole number where a document is, the same one. -/
structure Agrees (d : Document) (v : Value) : Prop where
  null : v = .null ↔ d = .null
  integer : ∀ n, v = .integer n ↔ d = .integer n

/-- Whether a document is written as a word. -/
def isWord : Document → Bool
  | .text _ | .list _ | .record _ => false
  | _ => true

theorem fits_of_isInteger {n : Int} (h : IsInteger n) :
    Integer.fits ⟨n < 0, n.natAbs⟩ 64 ∧ Integer.fits ⟨n < 0, n.natAbs⟩ 128 := by
  obtain ⟨hlow, hhigh⟩ := h
  have hbounds : Nat.pow 2 63 = 0x8000000000000000 ∧ Nat.pow 2 64 = 0x10000000000000000 ∧
      Nat.pow 2 63 ≤ Nat.pow 2 127 ∧ Nat.pow 2 64 ≤ Nat.pow 2 128 := by decide
  by_cases hn : n < 0
  · have hfits : n.natAbs ≤ Nat.pow 2 63 := by omega
    simpa [Integer.fits, hn, hfits] using hfits.trans hbounds.2.2.1
  · have hfits : n.natAbs < Nat.pow 2 64 := by omega
    simpa [Integer.fits, hn, hfits] using hfits.trans_le hbounds.2.2.2

theorem toInt_eq (n : Int) : Integer.toInt ⟨n < 0, n.natAbs⟩ = n := by
  by_cases hn : n < 0
  · rw [Integer.toInt, if_pos (decide_eq_true hn)]
    show -(n.natAbs : Int) = n
    omega
  · rw [Integer.toInt, if_neg (by simpa using hn)]
    show (n.natAbs : Int) = n
    omega

theorem exists_agrees_word {d : Document} (h : d.isWord) (hplain : d.isPlain) :
    ∃ v, Value.ofForm? d.word = some v ∧ d.Agrees v := by
  cases d with
  | null => exact ⟨.null, rfl, ⟨by simp, by simp⟩⟩
  | boolean value =>
    refine ⟨.boolean value, ?_, ⟨by simp, by simp⟩⟩
    cases value <;> rfl
  | integer n =>
    have hword := Scalar.toString_notMem_keywords n
    have hfits := fits_of_isInteger (of_decide_eq_true hplain)
    refine ⟨.integer n, ?_, ⟨by simp, by simp⟩⟩
    rw [Value.ofForm?, word, if_neg (Scalar.isNull_of_notMem_keywords hword),
      Scalar.boolean?_of_notMem_keywords hword, Scalar.integer?_toString, Option.filter_some,
      if_pos hfits.2]
    show Value.ofInteger? _ = _
    rw [Value.ofInteger?, if_pos hfits.1, toInt_eq]
  | real x =>
    have hword := Scalar.ofFloat_notMem_keywords x
    rw [Value.ofForm?, word, if_neg (Scalar.isNull_of_notMem_keywords hword),
      Scalar.boolean?_of_notMem_keywords hword, Scalar.integer?_ofFloat]
    refine ⟨_, rfl, ?_⟩
    split <;> exact ⟨by simp, by simp⟩
  | text | list | record => cases h

/-- The characters of words: letters, digits, signs and points. -/
def isWordCharacter (c : Char) : Bool := c.isAlphanum ∨ c = '-' ∨ c = '+' ∨ c = '.'

/-- How a word looks. It starts with a letter or a digit, or with one behind a minus sign. -/
structure LooksPlain (cs : List Char) : Prop where
  first : ∃ c rest, (cs = c :: rest ∨ cs = '-' :: c :: rest) ∧ c.isAlphanum
  characters : ∀ c ∈ cs, isWordCharacter c

theorem looksPlain_of_head? {cs : List Char} (hfirst : ∃ c, cs.head? = some c ∧ c.isAlphanum)
    (hcs : ∀ c ∈ cs, isWordCharacter c) : LooksPlain cs ∧ LooksPlain ('-' :: cs) := by
  obtain ⟨c, hhead, hc⟩ := hfirst
  obtain ⟨rest, rfl⟩ := List.head?_eq_some_iff.mp hhead
  exact ⟨⟨⟨c, rest, .inl rfl, hc⟩, hcs⟩,
    ⟨⟨c, rest, .inr rfl, hc⟩, List.forall_mem_cons.mpr ⟨rfl, hcs⟩⟩⟩

theorem isAlphanum_of_isDigit {c : Char} (h : c.isDigit) : c.isAlphanum := by
  simp [Char.isAlphanum, h]

theorem isWordCharacter_of_isDigit {c : Char} (h : c.isDigit) : isWordCharacter c := by
  simp [isWordCharacter, isAlphanum_of_isDigit h]

theorem isWordCharacter_of_isNumeral {c : Char} (h : Scalar.isNumeral c) : isWordCharacter c := by
  simp only [Scalar.isNumeral, decide_eq_true_eq] at h
  obtain hdigit | rfl | rfl | rfl | rfl := h
  · exact isWordCharacter_of_isDigit hdigit
  · decide
  · decide
  · decide
  · decide

theorem looksPlain_of_isSize {size : List Char} (h : Decimal.IsSize size) :
    LooksPlain size ∧ LooksPlain ('-' :: size) := by
  obtain rfl | rfl | h := h
  · exact looksPlain_of_head? ⟨_, rfl, rfl⟩ (List.all_eq_true.mp (by decide))
  · exact looksPlain_of_head? ⟨_, rfl, rfl⟩ (List.all_eq_true.mp (by decide))
  · obtain ⟨c, hhead, hc⟩ := h.first
    exact looksPlain_of_head? ⟨c, hhead, isAlphanum_of_isDigit hc⟩
      fun c hc => isWordCharacter_of_isNumeral (h.numerals c hc)

theorem looksPlain_toDigits (n : Nat) :
    LooksPlain (Nat.toDigits 10 n) ∧ LooksPlain ('-' :: Nat.toDigits 10 n) := by
  obtain ⟨c, rest, hcs⟩ := List.exists_cons_of_ne_nil (Nat.toDigits_ne_nil (n := n) (b := 10))
  have hc : c.isDigit := Scalar.isDigit_of_mem_toDigits (n := n) (by simp [hcs])
  exact looksPlain_of_head? ⟨c, by rw [hcs]; rfl, isAlphanum_of_isDigit hc⟩
    fun c hc => isWordCharacter_of_isDigit (Scalar.isDigit_of_mem_toDigits hc)

theorem looksPlain_word {d : Document} (h : d.isWord) : LooksPlain d.word.toList := by
  cases d with
  | null => exact ⟨⟨_, _, .inl rfl, rfl⟩, List.all_eq_true.mp (by decide)⟩
  | boolean value =>
    cases value <;> exact ⟨⟨_, _, .inl rfl, rfl⟩, List.all_eq_true.mp (by decide)⟩
  | integer n =>
    rw [word, Scalar.toList_toString]
    split
    · exact (looksPlain_toDigits n.natAbs).2
    · exact (looksPlain_toDigits n.natAbs).1
  | real x =>
    obtain ⟨size, hlist | hlist, hsize⟩ := Decimal.toList_ofFloat x
    · rw [word, hlist]
      exact (looksPlain_of_isSize hsize).1
    · rw [word, hlist]
      exact (looksPlain_of_isSize hsize).2
  | text | list | record => cases h

end Document

end ChipEight

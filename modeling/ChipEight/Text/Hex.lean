/-!
# Hexadecimal text

Numbers written with a fixed count of digits, as listings and messages show them, and byte strings
written with two digits a byte. Digits are upper case in listings and lower case in byte strings;
both cases are read.
-/
namespace ChipEight.Text.Hex

/-- The upper-case digit of a value below sixteen. -/
def digit (d : Fin 16) : Char :=
  #v['0', '1', '2', '3', '4', '5', '6', '7', '8', '9', 'A', 'B', 'C', 'D', 'E', 'F'].get d

/-- The lower-case digit of a value below sixteen. -/
def lowerDigit (d : Fin 16) : Char :=
  #v['0', '1', '2', '3', '4', '5', '6', '7', '8', '9', 'a', 'b', 'c', 'd', 'e', 'f'].get d

/-- The value of the last digit of a number. -/
def last (n : Nat) : Fin 16 := ⟨n % 16, Nat.mod_lt n (Nat.succ_pos 15)⟩

def value? (c : Char) : Option (Fin 16) :=
  (List.finRange 16).find? fun d => c = digit d ∨ c = lowerDigit d

/-- The last `width` digits of a number, leading zeros kept. -/
def digits : Nat → Nat → List Char
  | 0, _ => []
  | width + 1, n => digits width (n / 16) ++ [digit (last n)]

theorem length_digits (width n : Nat) : (digits width n).length = width := by
  induction width generalizing n with
  | zero => rfl
  | succ width ih => simp [digits, ih]

/-- A number in exactly `width` digits. -/
def fixed (width n : Nat) : String := String.ofList (digits width n)

/-- A number in as few digits as it takes. -/
def natural (n : Nat) : String := String.ofList ((Nat.toDigits 16 n).map Char.toUpper)

/-- The two lower-case digits of a byte, high half first. -/
def byteDigits (b : UInt8) : List Char :=
  [lowerDigit (last (b.toNat / 16)), lowerDigit (last b.toNat)]

def ofBytes (bytes : List UInt8) : String := String.ofList (bytes.flatMap byteDigits)

/-- Reads the digits of a number, however many they are. -/
def number? (digits : List Char) : Option Nat :=
  digits.foldlM (fun n c => (value? c).map fun d => 16 * n + d.val) 0

/-- Reads two digits a byte; an odd digit or a character that is no digit is refused. -/
def bytes? : List Char → Option (List UInt8)
  | [] => some []
  | [_] => none
  | a :: b :: rest => do
    let high ← value? a
    let low ← value? b
    return UInt8.ofNat (16 * high + low) :: (← bytes? rest)

/-- The digit of a value reads back as that value. -/
theorem value?_digit (d : Fin 16) : value? (digit d) = some d := by revert d; decide

theorem value?_lowerDigit (d : Fin 16) : value? (lowerDigit d) = some d := by revert d; decide

/-- A number reads back from its digits, where these are enough to hold it. -/
theorem number?_digits {width n : Nat} (h : n < Nat.pow 16 width) :
    number? (digits width n) = some n := by
  induction width generalizing n with
  | zero =>
    obtain rfl : n = 0 := Nat.lt_one_iff.mp h
    rfl
  | succ width ih =>
    have hlast : (last n).val = n % 16 := rfl
    have hrest : number? (digits width (n / 16)) = some (n / 16) :=
      ih (Nat.div_lt_of_lt_mul (Nat.mul_comm _ 16 ▸ h))
    rw [number?] at hrest ⊢
    rw [digits, List.foldlM_append, hrest]
    show ((value? (digit (last n))).map fun d => 16 * (n / 16) + d.val).bind pure = _
    rw [value?_digit, Option.map_some, hlast, Nat.div_add_mod]
    rfl

/-- A byte reads back from its two digits. -/
theorem bytes?_digits (b : UInt8) (rest : List Char) :
    bytes? (digits 2 b.toNat ++ rest) = (bytes? rest).map (b :: ·) := by
  have hhigh : (last (b.toNat / 16)).val = b.toNat / 16 % 16 := rfl
  have hlow : (last b.toNat).val = b.toNat % 16 := rfl
  have hlt := b.toNat_lt
  have hbyte : UInt8.ofNat (16 * (last (b.toNat / 16)).val + (last b.toNat).val) = b := by
    rw [hhigh, hlow, show 16 * (b.toNat / 16 % 16) + b.toNat % 16 = b.toNat by omega]
    exact UInt8.ofNat_toNat
  show bytes? (digit (last (b.toNat / 16)) :: digit (last b.toNat) :: rest) = _
  rw [bytes?, value?_digit, value?_digit]
  show (bytes? rest).bind _ = _
  rw [Option.map_eq_bind, hbyte]
  rfl

/-- All characters of a number in digits are digits. -/
theorem exists_digit {width n : Nat} {c : Char} (h : c ∈ digits width n) : ∃ d, c = digit d := by
  induction width generalizing n with
  | zero => cases h
  | succ width ih =>
    rw [digits, List.mem_append, List.mem_singleton] at h
    obtain hrest | hlast := h
    · exact ih hrest
    · exact ⟨last n, hlast⟩

end ChipEight.Text.Hex

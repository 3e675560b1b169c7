/-!
# Registers

Sixteen byte registers. The last one doubles as the flag of arithmetic and drawing.
-/
namespace ChipEight

abbrev Register := Fin 16

/-- The register that receives carries, borrows and collisions. -/
def Register.flag : Register := Fin.last 15

/-- The register that is added to the target of a jump. -/
def Register.offset : Register := ⟨0, Nat.succ_pos 15⟩

abbrev Registers := Vector UInt8 16

namespace Registers

def count : Nat := 16

def zero : Registers := Vector.replicate 16 0

def write (v : Registers) (x : Register) (b : UInt8) : Registers := v.set x b

def setFlag (v : Registers) (flag : Bool) : Registers := v.write Register.flag flag.toUInt8

def upTo (v : Registers) (x : Register) : List UInt8 := v.toList.take (x + 1)

/-- Registers 0 to `x` from a list of bytes, the others kept. -/
def replaceUpTo (v : Registers) (x : Register) (bytes : List UInt8) : Registers :=
  Vector.ofFn fun i => if i ≤ x then bytes.getD i 0 else v.get i

theorem length_upTo (v : Registers) (x : Register) : (v.upTo x).length = x + 1 := by
  have hx := x.isLt
  rw [upTo, List.length_take, Vector.length_toList]
  omega

theorem getElem_upTo (v : Registers) {x i : Register} (h : i.val < (v.upTo x).length) :
    (v.upTo x)[i.val] = v.get i := by
  simp only [upTo, List.getElem_take, Vector.getElem_toList]
  rfl

theorem get_write (v : Registers) (x i : Register) (b : UInt8) :
    (v.write x b).get i = if i = x then b else v.get i := by
  change (v.set x b)[i.val] = if i = x then b else v[i.val]
  rw [Vector.getElem_set]
  simp only [Fin.ext_iff, eq_comm]

theorem get_setFlag (v : Registers) (flag : Bool) (i : Register) :
    (v.setFlag flag).get i = if i = Register.flag then flag.toUInt8 else v.get i :=
  v.get_write Register.flag i flag.toUInt8

theorem get_replaceUpTo (v : Registers) (x i : Register) (bytes : List UInt8) :
    (v.replaceUpTo x bytes).get i = if i ≤ x then bytes.getD i 0 else v.get i := by
  change (Vector.ofFn _)[i.val] = _
  rw [Vector.getElem_ofFn]

end Registers

end ChipEight

/-!
# Screen

A monochrome screen of 64 by 32 pixels, kept row by row. A sprite is a stack of rows of eight
pixels; drawing inverts the pixels of its set bits. Sprites do not wrap: a set bit that lands off
the screen refuses the whole drawing, and the refusal names the first such pixel.
-/
namespace ChipEight

/-- A point, counted from the top left corner; it may lie off the screen. -/
@[ext]
structure Pixel where
  x : Nat
  y : Nat
deriving DecidableEq

@[ext]
structure Screen where
  pixels : Vector Bool 2048
deriving DecidableEq

namespace Screen

def width : Nat := 64

def height : Nat := 32

def blank : Screen := ⟨Vector.replicate 2048 false⟩

end Screen

namespace Pixel

def OnScreen (p : Pixel) : Prop := p.x < Screen.width ∧ p.y < Screen.height

instance (p : Pixel) : Decidable p.OnScreen := inferInstanceAs (Decidable (_ ∧ _))

/-- The position of a point in row order. -/
def index (p : Pixel) : Nat := Screen.width * p.y + p.x

theorem index_lt {p : Pixel} (h : p.OnScreen) : p.index < 2048 := by
  obtain ⟨hx, hy⟩ := h
  simp only [Screen.width, Screen.height, index] at *
  omega

theorem index_inj {p q : Pixel} (hp : p.OnScreen) (hq : q.OnScreen) (h : p.index = q.index) :
    p = q := by
  obtain ⟨hx, -⟩ := hp
  obtain ⟨hx', -⟩ := hq
  simp only [Screen.width, index] at *
  exact Pixel.ext (by omega) (by omega)

end Pixel

/-- Rows of eight pixels, the highest bit leftmost, from a top left corner down. -/
structure Sprite where
  left : Nat
  top : Nat
  rows : List UInt8
deriving DecidableEq

namespace Sprite

def width : Nat := 8

/-- The pixels of the set bits of one row, left to right. -/
def rowPixels (left y : Nat) (row : UInt8) : List Pixel :=
  ((List.range width).filter fun c => row.toNat.testBit (7 - c)).map fun c => ⟨left + c, y⟩

/-- The pixels of the set bits, row by row. -/
def pixels (s : Sprite) : List Pixel :=
  s.rows.zipIdx.flatMap fun (row, r) => rowPixels s.left (s.top + r) row

end Sprite

namespace Screen

/-- Whether a pixel is lit; nothing is lit off the screen. -/
def lit (s : Screen) (p : Pixel) : Bool := p.OnScreen ∧ s.pixels[p.index]?.getD false

/-- Inverts one pixel; off the screen there is nothing to invert. -/
def toggle (s : Screen) (p : Pixel) : Screen :=
  if h : p.OnScreen then ⟨s.pixels.set p.index (!s.lit p) (Pixel.index_lt h)⟩ else s

/-- Inverts the pixels of a sprite and says whether one of them was lit before. -/
def draw (s : Screen) (sprite : Sprite) : Except Pixel (Screen × Bool) :=
  match sprite.pixels.find? (¬ ·.OnScreen) with
  | some p => .error p
  | none => .ok (sprite.pixels.foldl toggle s, sprite.pixels.any s.lit)

def litCount (s : Screen) : Nat := s.pixels.toList.count true

def row (s : Screen) (y : Nat) : List Bool := (List.range width).map fun x => s.lit ⟨x, y⟩

def mark (lit : Bool) : Char := if lit then '#' else '.'

def lines (s : Screen) : List String :=
  (List.range height).map fun y => String.ofList ((s.row y).map mark)

/-- Inverting a pixel changes that pixel and no other. -/
theorem lit_toggle (s : Screen) {p q : Pixel} (hp : p.OnScreen) :
    (s.toggle p).lit q = if p = q then !s.lit q else s.lit q := by
  unfold toggle
  rw [dif_pos hp]
  by_cases h : p = q
  · subst h
    simp [lit, hp, Pixel.index_lt hp]
  · by_cases hq : q.OnScreen
    · have hne : p.index ≠ q.index := fun e => h (Pixel.index_inj hp hq e)
      simp [lit, hq, h, hne]
    · simp [lit, hq, h]

end Screen

end ChipEight

import ChipEight.Screen
import Mathlib.Data.List.Basic
import Mathlib.Data.List.Count
import Mathlib.Data.List.Nodup

/-!
# Pixels and rows

The pixels of a sprite are the places of its set bits, row by row and left to right. So no pixel
comes twice and drawing inverts each of them once; and the pixel that a refused drawing names comes
before every other one that is off the screen. The lines of a screen hold a mark for each lit pixel
and no other, so that counting the marks counts the pixels.
-/
namespace ChipEight

/-- Row by row, and left to right within a row. -/
def Pixel.Precedes (p q : Pixel) : Prop := p.y < q.y ∨ p.y = q.y ∧ p.x < q.x

theorem Pixel.Precedes.asymm {p q : Pixel} (h : p.Precedes q) : ¬ q.Precedes p := by
  unfold Precedes at *
  omega

/-- In a list in order, the first pixel with a property comes before all others that have it. -/
theorem find?_eq_some_iff_of_pairwise {l : List Pixel} (hl : l.Pairwise Pixel.Precedes)
    {f : Pixel → Bool} {q : Pixel} :
    l.find? f = some q ↔
      q ∈ l ∧ f q = true ∧ ∀ p ∈ l, f p = true → p = q ∨ q.Precedes p := by
  induction l with
  | nil => simp
  | cons r rest ih =>
    obtain ⟨hbefore, hrest⟩ := List.pairwise_cons.mp hl
    cases hr : f r with
    | true =>
      rw [List.find?_cons_of_pos hr]
      constructor
      · rintro ⟨⟩
        exact ⟨List.mem_cons_self, hr, fun p hp _ => (List.mem_cons.mp hp).imp_right (hbefore p)⟩
      · rintro ⟨hmem, _, hfirst⟩
        rcases List.mem_cons.mp hmem with rfl | hlater
        · rfl
        · rcases hfirst r List.mem_cons_self hr with rfl | hprecedes
          · rfl
          · exact absurd hprecedes (hbefore q hlater).asymm
    | false =>
      have hne : ∀ p, f p = true → p ≠ r := by
        rintro p hp rfl
        rw [hr] at hp
        cases hp
      rw [List.find?_cons_of_neg (by simp [hr]), ih hrest]
      constructor
      · rintro ⟨hmem, hq, hfirst⟩
        refine ⟨List.mem_cons_of_mem r hmem, hq, fun p hp hfp => ?_⟩
        exact hfirst p ((List.mem_cons.mp hp).resolve_left (hne p hfp)) hfp
      · rintro ⟨hmem, hq, hfirst⟩
        refine ⟨(List.mem_cons.mp hmem).resolve_left (hne q hq), hq, fun p hp hfp => ?_⟩
        exact hfirst p (List.mem_cons_of_mem r hp) hfp

namespace Sprite

theorem mem_rowPixels {left y : Nat} {row : UInt8} {p : Pixel} :
    p ∈ rowPixels left y row ↔
      p.y = y ∧ ∃ c < width, row.toNat.testBit (7 - c) = true ∧ p.x = left + c := by
  simp only [rowPixels, List.mem_map, List.mem_filter, List.mem_range]
  constructor
  · rintro ⟨c, ⟨hc, hbit⟩, rfl⟩
    exact ⟨rfl, c, hc, hbit, rfl⟩
  · rintro ⟨hy, c, hc, hbit, hx⟩
    exact ⟨c, ⟨hc, hbit⟩, Pixel.ext hx.symm hy.symm⟩

theorem pairwise_rowPixels (left y : Nat) (row : UInt8) :
    (rowPixels left y row).Pairwise Pixel.Precedes := by
  apply List.pairwise_map.mpr
  refine (List.pairwise_lt_range.filter _).imp fun {c d} hlt => .inr ⟨rfl, ?_⟩
  show left + c < left + d
  omega

/-- The pixels of the rows from number `k` on. -/
def pixelsFrom (s : Sprite) (rows : List UInt8) (k : Nat) : List Pixel :=
  (rows.zipIdx k).flatMap fun (row, r) => rowPixels s.left (s.top + r) row

theorem pixelsFrom_cons (s : Sprite) (row : UInt8) (rows : List UInt8) (k : Nat) :
    s.pixelsFrom (row :: rows) k = rowPixels s.left (s.top + k) row ++ s.pixelsFrom rows (k + 1) :=
  rfl

/-- Rows from number `k` on lie at or below row `k` of the sprite. -/
theorem top_le_of_mem_pixelsFrom {s : Sprite} {rows : List UInt8} {k : Nat} {p : Pixel}
    (h : p ∈ s.pixelsFrom rows k) : s.top + k ≤ p.y := by
  induction rows generalizing k with
  | nil => cases h
  | cons row rows ih =>
    rw [pixelsFrom_cons] at h
    rcases List.mem_append.mp h with hrow | hrest
    · have hy := (mem_rowPixels.mp hrow).1
      omega
    · have := ih hrest
      omega

theorem pairwise_pixelsFrom (s : Sprite) (rows : List UInt8) (k : Nat) :
    (s.pixelsFrom rows k).Pairwise Pixel.Precedes := by
  induction rows generalizing k with
  | nil => exact .nil
  | cons row rows ih =>
    rw [pixelsFrom_cons]
    refine List.pairwise_append.mpr ⟨pairwise_rowPixels _ _ _, ih (k + 1), ?_⟩
    intro p hrow q hrest
    have hy := (mem_rowPixels.mp hrow).1
    have hle := top_le_of_mem_pixelsFrom hrest
    exact .inl (by omega)

/-- The sprite has a set bit at the pixel. -/
def covers (s : Sprite) (p : Pixel) : Bool :=
  s.left ≤ p.x ∧ p.x < s.left + width ∧ s.top ≤ p.y ∧
    (s.rows.getD (p.y - s.top) 0).toNat.testBit (7 - (p.x - s.left))

theorem mem_pixels {s : Sprite} {p : Pixel} : p ∈ s.pixels ↔ s.covers p = true := by
  show p ∈ s.pixelsFrom s.rows 0 ↔ _
  simp only [pixelsFrom, List.mem_flatMap, Prod.exists, List.mem_zipIdx_iff_getElem?,
    mem_rowPixels, covers, decide_eq_true_eq]
  constructor
  · -- a pixel has one row and one column of the sprite to come from
    rintro ⟨row, r, hrow, hy, c, hc, hbit, hx⟩
    have hr : p.y - s.top = r := by omega
    have hcol : p.x - s.left = c := by omega
    refine ⟨by omega, by omega, by omega, ?_⟩
    rw [hr, hcol, List.getD_eq_getElem?_getD, hrow]
    exact hbit
  · rintro ⟨hleft, hright, htop, hbit⟩
    cases hrow : s.rows[p.y - s.top]? with
    | none =>
      rw [List.getD_eq_getElem?_getD, hrow] at hbit
      simp at hbit
    | some row =>
      rw [List.getD_eq_getElem?_getD, hrow] at hbit
      exact ⟨row, p.y - s.top, hrow, by omega, p.x - s.left, by omega, hbit, by omega⟩

theorem pairwise_pixels (s : Sprite) : s.pixels.Pairwise Pixel.Precedes :=
  s.pairwise_pixelsFrom s.rows 0

/-- No pixel of a sprite comes twice. -/
theorem nodup_pixels (s : Sprite) : s.pixels.Nodup := by
  refine s.pairwise_pixels.imp ?_
  rintro p q hprecedes rfl
  rcases hprecedes with hy | ⟨_, hx⟩
  · exact Nat.lt_irrefl _ hy
  · exact Nat.lt_irrefl _ hx

end Sprite

namespace Screen

/-- The number of marks of lit pixels in lines of text. -/
def marks (lines : List String) : Nat := (lines.flatMap String.toList).count '#'

/-- Counting on over `rows` rows of `width` places goes through all their places in order. -/
theorem range_mul (width rows : Nat) :
    List.range (width * rows) =
      (List.range rows).flatMap fun y => (List.range width).map (width * y + ·) := by
  induction rows with
  | zero => rfl
  | succ rows ih => simp [Nat.mul_succ, List.range_add, List.range_succ, ih]

theorem flatMap_row (s : Screen) : (List.range height).flatMap s.row = s.pixels.toList := by
  have hrow : ∀ y ∈ List.range height,
      s.row y = ((List.range width).map (width * y + ·)).map fun i => s.pixels[i]?.getD false := by
    intro y hy
    rw [row, List.map_map]
    apply List.map_congr_left
    intro x hx
    have hon : (Pixel.mk x y).OnScreen := ⟨List.mem_range.mp hx, List.mem_range.mp hy⟩
    simp [lit, hon, Pixel.index]
  have hpixels : s.pixels.toList =
      (List.range (width * height)).map fun i => s.pixels[i]?.getD false := by
    apply List.ext_getElem
    · simp [width, height]
    · intro i h _
      have hi : i < 2048 := by simpa using h
      simp [hi]
  rw [hpixels, range_mul, List.map_flatMap, List.flatMap_congr hrow]

theorem mark_injective : Function.Injective mark := by
  intro a b
  cases a <;> cases b <;> decide

theorem marks_lines (s : Screen) : marks s.lines = s.litCount := by
  have hlines : s.lines.flatMap String.toList = s.pixels.toList.map mark := by
    rw [lines, ← flatMap_row, List.flatMap_map, List.map_flatMap]
    simp
  have hmark : mark true = '#' := rfl
  rw [marks, hlines, litCount, ← hmark, List.count_map_of_injective _ _ mark_injective]

end Screen

end ChipEight

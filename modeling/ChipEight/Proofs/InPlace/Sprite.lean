import ChipEight.Proofs.InPlace.Image
import ChipEight.Proofs.Screen

/-!
# Drawing in place

The two double loops of a drawing, over rows and over the bits of a row, are loops over the pixels
of the sprite. The first finds the first pixel off the screen. The second reads each pixel after the
ones before it were inverted, which makes no difference because no pixel comes twice.
-/
namespace ChipEight.InPlace

variable {α β γ : Type}

namespace Work

instance : LawfulMonad Work :=
  LawfulMonad.mk' Work
    (fun w => by
      refine congrArg Work.mk (funext fun s => ?_)
      change (w.run s).andThen (pure ∘ id) = w.run s
      cases w.run s <;> rfl)
    (fun _ _ => rfl)
    (fun w f g => by
      refine congrArg Work.mk (funext fun s => ?_)
      change ((w.run s).andThen f).andThen g = (w.run s).andThen fun a => f a >>= g
      cases w.run s <;> rfl)

theorem forM_filter (keep : α → Bool) (l : List α) (f : α → Work Unit) :
    forM (l.filter keep) f = forM l fun a => if keep a then f a else pure () := by
  induction l with
  | nil => rfl
  | cons a l ih =>
    by_cases h : keep a
    · simp [h, ih]
    · simp [h, ih]

theorem forM_flatMap (l : List α) (g : α → List β) (f : β → Work Unit) :
    forM (l.flatMap g) f = forM l fun a => forM (g a) f := by
  induction l with
  | nil => rfl
  | cons a l ih => simp [ih]

theorem foldlM_flatMap (l : List α) (g : α → List β) (f : γ → β → Work γ) (c : γ) :
    (l.flatMap g).foldlM f c = l.foldlM (fun c a => (g a).foldlM f c) c := by
  induction l generalizing c with
  | nil => rfl
  | cons a l ih => simp [ih]

end Work

open Work

def refuse (pc : UInt16) (p : Pixel) : Work Unit :=
  if p.OnScreen then pure () else raise ⟨pc, .displayOutOfBounds p.x p.y⟩

/-- Inverts a pixel and notes whether it was lit. -/
def flip (erased : Bool) (p : Pixel) : Work Bool := do
  let s ← state
  let old ← item s.display (p.x + p.y * Screen.width)
  let display ← put s.display (p.x + p.y * Screen.width) (!old)
  change fun s => { s with display }
  return erased || old

theorem checkBit_eq (pc : UInt16) (row : UInt8) (x y c : Nat) :
    checkBit pc row x y c =
      if row.toNat.testBit (7 - c) then refuse pc ⟨x + c, y⟩ else pure () := by
  by_cases hbit : row.toNat.testBit (7 - c) = true
  · by_cases hon : x + c < Screen.width ∧ y < Screen.height
    · have hnot : ¬ (Screen.width ≤ x + c ∨ Screen.height ≤ y) := by omega
      have hp : Pixel.OnScreen ⟨x + c, y⟩ := hon
      rw [checkBit, if_neg (fun h => hnot h.2), if_pos hbit, refuse, if_pos hp]
    · have hoff : Screen.width ≤ x + c ∨ Screen.height ≤ y := by omega
      have hp : ¬ Pixel.OnScreen ⟨x + c, y⟩ := hon
      rw [checkBit, if_pos ⟨hbit, hoff⟩, if_pos hbit, refuse, if_neg hp]
  · rw [checkBit, if_neg (fun h => hbit h.1), if_neg hbit]

/-- Checking rows and bits is checking the pixels of the sprite in order. -/
theorem checkSprite_eq (pc : UInt16) (s : Sprite) :
    checkSprite pc s.left s.top s.rows = forM s.pixels (refuse pc) := by
  rw [Sprite.pixels, forM_flatMap, checkSprite, List.forM_eq_forM]
  congr 1
  funext ⟨row, r⟩
  change (List.range Sprite.width).forM _ = forM (Sprite.rowPixels s.left (s.top + r) row) _
  rw [Sprite.rowPixels, List.forM_map, forM_filter, List.forM_eq_forM]
  congr 1
  funext c
  exact checkBit_eq pc row s.left (s.top + r) c

theorem flipSprite_eq (s : Sprite) :
    flipSprite s.left s.top s.rows = s.pixels.foldlM flip false := by
  rw [Sprite.pixels, foldlM_flatMap, flipSprite]
  congr 1
  funext erased ⟨row, r⟩
  change (List.range Sprite.width).foldlM _ erased =
    (Sprite.rowPixels s.left (s.top + r) row).foldlM flip erased
  rw [Sprite.rowPixels, List.foldlM_map, List.foldlM_filter]
  rfl

/-- The check raises the fault of the first pixel off the screen. -/
theorem forM_refuse (pc : UInt16) (l : List Pixel) (s : State) :
    (forM l (refuse pc)).run s =
      match l.find? (¬ ·.OnScreen) with
      | some p => .fault ⟨pc, .displayOutOfBounds p.x p.y⟩ s
      | none => .done () s := by
  induction l with
  | nil => rfl
  | cons p l ih =>
    by_cases hp : p.OnScreen
    · simp [refuse, hp, ih]
    · simp [refuse, hp]

theorem flip_image (m : Machine) (p : Processor) {q : Pixel} (hq : q.OnScreen) (erased : Bool) :
    (flip erased q).run (image m p) =
      .done (erased || p.screen.lit q) (image m { p with screen := p.screen.toggle q }) := by
  have hindex : q.x + q.y * Screen.width = q.index := by
    rw [Pixel.index, Nat.mul_comm, Nat.add_comm]
  have hlt : q.x + q.y * Screen.width < 2048 := hindex ▸ Pixel.index_lt hq
  have hlit : p.screen.pixels[q.x + q.y * Screen.width] = p.screen.lit q := by
    simp [Screen.lit, hq, ← hindex, hlt]
  have htoggle : p.screen.pixels.set (q.x + q.y * Screen.width) (!p.screen.lit q) hlt =
      (p.screen.toggle q).pixels := by
    simp only [Screen.toggle, dif_pos hq, hindex]
  rw [flip, run_bind, run_state, andThen_done, run_bind, run_item _ hlt, andThen_done, run_bind,
    run_put _ hlt, andThen_done, run_bind, run_change, andThen_done, run_pure]
  change Result.done (erased || p.screen.pixels[q.x + q.y * Screen.width])
    { image m p with
      display := p.screen.pixels.set (q.x + q.y * Screen.width)
        (!p.screen.pixels[q.x + q.y * Screen.width]) hlt } = _
  rw [hlit, htoggle]
  rfl

/-- Inverting distinct pixels one after another meets each of them as it was at first. -/
theorem foldlM_flip (m : Machine) (p : Processor) {l : List Pixel}
    (hon : ∀ q ∈ l, q.OnScreen) (hnd : l.Nodup) (erased : Bool) :
    (l.foldlM flip erased).run (image m p) =
      .done (erased || l.any p.screen.lit)
        (image m { p with screen := l.foldl Screen.toggle p.screen }) := by
  induction l generalizing p erased with
  | nil => simp
  | cons q l ih =>
    obtain ⟨hq, hl⟩ := List.forall_mem_cons.mp hon
    obtain ⟨hnew, hnd⟩ := List.nodup_cons.mp hnd
    have hrest : l.any (p.screen.toggle q).lit = l.any p.screen.lit := by
      rw [Bool.eq_iff_iff, List.any_eq_true, List.any_eq_true]
      refine exists_congr fun r => and_congr_right fun hr => ?_
      have hne : q ≠ r := fun h => hnew (h ▸ hr)
      rw [p.screen.lit_toggle hq, if_neg hne]
    rw [List.foldlM_cons, run_bind, flip_image m p hq, andThen_done, ih _ hl hnd]
    simp only [hrest, List.any_cons, List.foldl_cons, Bool.or_assoc]

end ChipEight.InPlace

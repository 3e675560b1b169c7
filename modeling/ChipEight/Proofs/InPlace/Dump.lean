import ChipEight.InPlace.Dump
import ChipEight.Proofs.InPlace.Image
import ChipEight.Text.Dump

/-!
# Dumps in place

The pieces that memory and screen are cut into are the words and rows of the listing, in order, so
that a dump is the text of its lines. No piece lacks a byte.
-/
namespace ChipEight.InPlace

theorem zipIdx_map_range {α : Type} (f : Nat → α) (n : Nat) :
    ((List.range n).map f).zipIdx = (List.range n).map fun k => (f k, k) := by
  induction n with
  | zero => rfl
  | succ n ih => simp [List.range_succ, List.zipIdx_append, ih]

theorem take_drop_map_range {α : Type} (f : Nat → α) (n start count : Nat) :
    (((List.range n).map f).drop start).take count =
      ((List.range (min count (n - start))).map (start + ·)).map f := by
  apply List.ext_getElem
  · simp
  · intro i _ _
    simp

theorem chunks_memory (m : Memory) :
    chunks 2 m.cells.toList = (List.range 2048).map fun k => m.slice (2 * k) 2 := by
  rw [chunks, Vector.length_toList]
  apply List.map_congr_left
  intro k hk
  have hlt : k < 2048 := List.mem_range.mp hk
  exact m.slice_eq (by omega)

theorem writeWord_slice (m : Memory) (text : String) (k : Nat) :
    writeWord text (m.slice (2 * k) 2, k) = some (text ++ m.line (2 * k) ++ "\n") := by
  have hword : m.slice (2 * k) 2 = [m.byte (2 * k), m.byte (2 * k + 1)] := rfl
  rw [hword, Nat.mul_comm]
  rfl

theorem foldlM_writeWord (m : Memory) (numbers : List Nat) (text : String) :
    (numbers.map fun k => (m.slice (2 * k) 2, k)).foldlM writeWord text =
      some ((numbers.map fun k => m.line (2 * k)).foldl
        (fun text line => text ++ line ++ "\n") text) := by
  induction numbers generalizing text with
  | nil => rfl
  | cons k rest ih =>
    rw [List.map_cons, List.foldlM_cons, writeWord_slice]
    exact ih _

/-- The dump of a memory is the text of its listing. -/
theorem dumpMemory_eq (m : Memory) (count : Nat) :
    dumpMemory m.cells count = some (Text.unlines (m.listing count)) := by
  have hlines : ((List.range (min (count / 2) (2048 - 256))).map (256 + ·)).map
      (fun k => m.line (2 * k)) = m.listing count := by
    rw [List.map_map]
    apply List.map_congr_left
    intro k _
    exact congrArg m.line (Nat.mul_add 2 256 k)
  have hwords := take_drop_map_range (fun k => (m.slice (2 * k) 2, k)) 2048 256 (count / 2)
  rw [dumpMemory, chunks_memory, zipIdx_map_range]
  show List.foldlM _ _ (List.take _ (List.drop 256 _)) = _
  rw [hwords, foldlM_writeWord, hlines]
  rfl

theorem chunks_screen (s : Screen) :
    chunks 64 s.pixels.toList = (List.range 32).map s.row := by
  rw [chunks, Vector.length_toList]
  apply List.map_congr_left
  intro y hy
  have hlt : y < 32 := List.mem_range.mp hy
  apply List.ext_getElem
  · simp [Screen.row, Screen.width]
    omega
  · intro x hx _
    have hx : x < 64 := by
      simp only [List.length_take] at hx
      omega
    have hon : (Pixel.mk x y).OnScreen := ⟨hx, hlt⟩
    have hindex : 64 * y + x < 2048 := by omega
    simp [Screen.row, Screen.lit, hon, Pixel.index, Screen.width, hindex]

theorem foldl_push_mark (row : List Bool) (text : String) :
    row.foldl (fun text lit => text.push (if lit then '#' else '.')) text =
      text ++ String.ofList (row.map Screen.mark) := by
  induction row generalizing text with
  | nil => simp
  | cons lit rest ih =>
    rw [List.foldl_cons, ih]
    apply String.toList_inj.mp
    simp [Screen.mark]

theorem writeRow_eq (text : String) (row : List Bool) :
    writeRow text row = text ++ String.ofList (row.map Screen.mark) ++ "\n" := by
  rw [writeRow, foldl_push_mark]
  rfl

/-- The dump of a screen is the text of its lines. -/
theorem dumpScreen_eq (s : Screen) : dumpScreen s.pixels = Text.unlines s.lines := by
  have hwrite : writeRow = fun text row => text ++ String.ofList (row.map Screen.mark) ++ "\n" :=
    funext fun text => funext (writeRow_eq text)
  rw [dumpScreen]
  show List.foldl _ _ (chunks 64 _) = _
  rw [chunks_screen, hwrite, Text.unlines, Screen.lines, List.foldl_map, List.foldl_map]
  rfl

end ChipEight.InPlace

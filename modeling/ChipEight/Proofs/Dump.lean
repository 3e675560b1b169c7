import ChipEight.Command.Perform
import ChipEight.Proofs.FreshStart
import ChipEight.Proofs.InPlace.Dump

/-!
# Dumps read back

A dump holds every word that it covers and every pixel: reading its lines gives the memory and the
screen again. A program is listed whole, and a half word at its end is filled up with a zero byte.
-/
namespace ChipEight

open Text (Hex.digit Hex.digits)
open Text.Dump (line? bytes? lit? screen?)

namespace Memory

theorem toList_line (m : Memory) (a : Nat) :
    (m.line a).toList = Hex.digits 4 a ++ ':' :: ' ' ::
      (Hex.digits 2 (m.byte a).toNat ++ Hex.digits 2 (m.byte (a + 1)).toNat) := by
  simp [line, Text.Hex.fixed]

theorem digits_ne {c : Char} (h : ∀ d, Hex.digit d ≠ c) (width n : Nat) :
    c ∉ Hex.digits width n := by
  intro hmem
  obtain ⟨d, hd⟩ := Text.Hex.exists_digit hmem
  exact h d hd.symm

/-- A line tells its address and the two bytes from there on. -/
theorem line?_line (m : Memory) {a : Nat} (h : a < 65536) :
    line? (m.line a).toList = some ⟨a, [m.byte a, m.byte (a + 1)]⟩ := by
  have hcolon : ':' ∉ Hex.digits 4 a := digits_ne (by decide) 4 a
  have hbefore : ∀ c ∈ Hex.digits 4 a, decide (c ≠ ':') = true := by
    intro c hc
    exact decide_eq_true fun hsame => hcolon (hsame ▸ hc)
  have hnumber : Text.Hex.number? (Hex.digits 4 a) = some a := Text.Hex.number?_digits h
  have hbytes (high low : UInt8) :
      Text.Hex.bytes? (Hex.digits 2 high.toNat ++ Hex.digits 2 low.toNat) = some [high, low] := by
    rw [Text.Hex.bytes?_digits, ← List.append_nil (Hex.digits 2 low.toNat), Text.Hex.bytes?_digits]
    rfl
  rw [line?, toList_line, List.takeWhile_append_of_pos hbefore,
    List.dropWhile_append_of_pos hbefore]
  show (Text.Hex.number? (Hex.digits 4 a ++ [])).bind (fun address =>
    (Text.Hex.bytes? _).bind fun bytes => some _) = _
  rw [List.append_nil, hnumber, hbytes]
  rfl

theorem unbroken_line (m : Memory) (a : Nat) : '\n' ∉ (m.line a).toList := by
  have hdigits : ∀ width n, '\n' ∉ Hex.digits width n := digits_ne (by decide)
  rw [toList_line]
  simp [hdigits]

theorem unbroken_listing (m : Memory) (count : Nat) :
    ∀ line ∈ m.listing count, '\n' ∉ line.toList := by
  intro line hline
  obtain ⟨k, -, rfl⟩ := List.mem_map.mp hline
  exact m.unbroken_line _

theorem length_listing (m : Memory) (count : Nat) :
    (m.listing count).length = min (count / 2) 1792 := by
  rw [listing, List.length_map, List.length_range]
  rfl

theorem slice_add (m : Memory) (start a b : Nat) :
    m.slice start (a + b) = m.slice start a ++ m.slice (start + a) b := by
  unfold slice
  rw [List.range_add, List.map_append, List.map_map]
  congr 1
  apply List.map_congr_left
  intro i _
  exact congrArg m.byte (Nat.add_assoc start a i).symm

/-- Lines of words one after another hold the bytes from the first to the last. -/
theorem bytes?_lines (m : Memory) (start words : Nat) (h : start + 2 * words ≤ 65536) :
    bytes? start ((List.range words).map fun k => (m.line (start + 2 * k)).toList) =
      some (m.slice start (2 * words)) := by
  induction words generalizing start with
  | zero => rfl
  | succ words ih =>
    have hrest := ih (start + 2) (by omega)
    have hslice : m.slice start (2 * (words + 1)) =
        [m.byte start, m.byte (start + 1)] ++ m.slice (start + 2) (2 * words) := by
      rw [show 2 * (words + 1) = 2 + 2 * words by omega, slice_add]
      rfl
    have hlines : (fun k => (m.line (start + 2 * k)).toList) ∘ Nat.succ =
        fun k => (m.line (start + 2 + 2 * k)).toList := by
      funext k
      show (m.line (start + 2 * (k + 1))).toList = _
      rw [show start + 2 * (k + 1) = start + 2 + 2 * k by omega]
    rw [List.range_succ_eq_map, List.map_cons, List.map_map, hlines, bytes?, Nat.mul_zero,
      Nat.add_zero, m.line?_line (by omega)]
    show (if start = start then _ else none) = _
    rw [if_pos rfl]
    show (bytes? (start + 2) _).bind _ = _
    rw [hrest, hslice]
    rfl

/-- What the lines of a dump of the first `count` program bytes say. -/
structure Listed (m : Memory) (count : Nat) (lines : List (List Char)) : Prop where
  eq_listing : lines = (m.listing count).map String.toList
  length : lines.length = min (count / 2) 1792
  entry : ∀ k, (h : k < lines.length) → line? lines[k] =
    some ⟨0x200 + 2 * k, [m.byte (0x200 + 2 * k), m.byte (0x200 + 2 * k + 1)]⟩

theorem listed (m : Memory) (count : Nat) :
    m.Listed count (Text.lines (Text.unlines (m.listing count)).toList) := by
  rw [Text.lines_unlines (m.unbroken_listing count)]
  have hlength : ((m.listing count).map String.toList).length = min (count / 2) 1792 := by
    rw [List.length_map, length_listing]
  refine ⟨rfl, hlength, ?_⟩
  intro k hk
  have hlt : k < 1792 := by omega
  have hin : k < (m.listing count).length := by simpa using hk
  have hline : (m.listing count)[k] = m.line (0x200 + 2 * k) := by
    simp [listing, programStart]
  rw [List.getElem_map, hline]
  exact m.line?_line (by omega)

end Memory

namespace Screen

theorem lit?_mark (lit : Bool) : lit? (mark lit) = some lit := by
  cases lit <;> rfl

theorem mapM_lit?_mark (row : List Bool) : (row.map mark).mapM lit? = some row := by
  induction row with
  | nil => rfl
  | cons lit rest ih => simp [lit?_mark, ih]

theorem unbroken_lines (s : Screen) : ∀ line ∈ s.lines, '\n' ∉ line.toList := by
  intro line hline
  obtain ⟨y, -, rfl⟩ := List.mem_map.mp hline
  have hmark : ∀ lit, mark lit ≠ '\n' := by decide
  simp [hmark]

theorem map_toList_lines (s : Screen) :
    s.lines.map String.toList = (List.range height).map fun y => (s.row y).map mark := by
  rw [lines, List.map_map]
  apply List.map_congr_left
  intro y _
  exact String.toList_ofList

/-- The lines of a screen hold all of it. -/
theorem screen?_lines (s : Screen) : screen? (s.lines.map String.toList) = some s := by
  have hflat : (s.lines.map String.toList).flatten = s.pixels.toList.map mark := by
    rw [map_toList_lines, ← flatMap_row, List.map_flatMap, List.flatMap]
  have hlength : s.pixels.toList.length = 2048 := s.pixels.length_toList
  rw [screen?, hflat, mapM_lit?_mark]
  show (if h : s.pixels.toList.length = 2048 then _ else none) = _
  rw [dif_pos hlength]
  rfl

theorem mark_eq_hash_iff (lit : Bool) : mark lit = '#' ↔ lit = true := by
  cases lit <;> decide

theorem lit_eq_true_iff (s : Screen) (y : Fin 32) (x : Fin 64) :
    s.lit ⟨x, y⟩ = true ↔ s.pixels[64 * y.val + x.val]? = some true := by
  have hon : (Pixel.mk x y).OnScreen := ⟨x.isLt, y.isLt⟩
  have hindex : 64 * y.val + x.val < 2048 := by omega
  simp [lit, hon, Pixel.index, width, hindex]

theorem getElem?_row (s : Screen) (y : Nat) (x : Fin 64) :
    ((s.row y).map mark)[x.val]? = some (mark (s.lit ⟨x, y⟩)) := by
  have hx : x.val < width := x.isLt
  rw [row, List.map_map, List.getElem?_map, List.getElem?_range hx]
  rfl

/-- What the lines of a dumped screen show. -/
structure Pictured (s : Screen) (lines : List (List Char)) : Prop where
  eq_lines : lines = s.lines.map String.toList
  height : lines.length = 32
  width : ∀ line ∈ lines, line.length = 64
  mark : ∀ (y : Fin 32) (x : Fin 64),
    lines[y.val]?.bind (·[x.val]?) = some '#' ↔ s.pixels[64 * y.val + x.val]? = some true
  read : screen? lines = some s

theorem pictured (s : Screen) : s.Pictured (Text.lines (Text.unlines s.lines).toList) := by
  rw [Text.lines_unlines s.unbroken_lines]
  have hmap := s.map_toList_lines
  refine ⟨rfl, ?_, ?_, ?_, s.screen?_lines⟩
  · rw [hmap, List.length_map, List.length_range]
    rfl
  · intro line hline
    rw [hmap] at hline
    obtain ⟨y, -, rfl⟩ := List.mem_map.mp hline
    simp [row, Screen.width]
  · intro y x
    have hy : y.val < Screen.height := y.isLt
    rw [hmap, List.getElem?_map, List.getElem?_range hy]
    show ((s.row y).map Screen.mark)[x.val]? = some '#' ↔ _
    rw [getElem?_row, Option.some.injEq, mark_eq_hash_iff, lit_eq_true_iff]

end Screen

namespace Machine

variable {m : Machine} {program : List UInt8}

/-- A fresh memory holds the program from its start on, and a zero byte behind it. -/
theorem Fresh.slice (h : m.Fresh program) :
    m.processor.memory.slice 0x200 (program.length + program.length % 2) =
      program ++ .replicate (program.length % 2) 0 := by
  have hglyphs : Font.glyphs.length = 80 := rfl
  apply List.ext_getElem
  · simp [Memory.slice]
  · intro i hi _
    have hlt : i < program.length + program.length % 2 := by simpa [Memory.slice] using hi
    have hbyte : (m.processor.memory.slice 0x200 (program.length + program.length % 2))[i] =
        m.processor.memory.byte (0x200 + i) := by
      simp [Memory.slice]
    rw [hbyte]
    by_cases hin : i < program.length
    · rw [List.getElem_append_left hin]
      exact h.bytes i hin
    · rw [List.getElem_append_right (by omega), List.getElem_replicate]
      exact h.rest (0x200 + i) (by omega) (by omega)

end Machine

namespace Command

open Machine

variable {files : Files} {program : List UInt8} {rom : String}

/-- A program that fits is listed from the machine that loaded it. -/
theorem listProgram_of_fits (entropy : Random.Key) (hread : readProgram files rom = .ok program)
    (hfits : program.length ≤ 3584) :
    ∃ records : List Log.Record, listProgram files entropy rom = ⟨records.map .record ++
      [.text (((Machine.new .default entropy).load program).machine.processor.memory.listing
        (program.length + program.length % 2))], 0⟩ := by
  have hresult := (load_of_fits (Machine.new .default entropy) hfits).1
  have hodd : (if program.length % 2 = 1 then [Event.oddProgram.record] else []).map Output.record =
      if program.length % 2 = 1 then [.record Event.oddProgram.record] else [] := by
    split <;> rfl
  refine ⟨((Machine.new .default entropy).load program).events.map Machine.Event.record ++
    (if program.length % 2 = 1 then [Event.oddProgram.record] else []), ?_⟩
  rw [List.map_append, List.map_map, hodd, listProgram, hread]
  dsimp only
  rw [hresult]
  rfl

/-- The listing of a program reads back as the program. -/
theorem bytes?_listing {m : Machine} (h : m.Fresh program) (hfits : program.length ≤ 3584) :
    bytes? 0x200 ((m.processor.memory.listing (program.length + program.length % 2)).map
      String.toList) = some (program ++ .replicate (program.length % 2) 0) := by
  have hwords : min ((program.length + program.length % 2) / 2) (Memory.programCapacity / 2) =
      (program.length + program.length % 2) / 2 := by
    have hcapacity : Memory.programCapacity / 2 = 1792 := rfl
    omega
  have heven : 2 * ((program.length + program.length % 2) / 2) =
      program.length + program.length % 2 := by omega
  have hlines := m.processor.memory.bytes?_lines 0x200
    ((program.length + program.length % 2) / 2) (by omega)
  rw [heven, h.slice] at hlines
  rw [Memory.listing, hwords, List.map_map]
  exact hlines

/-- Dumps lose nothing, and are nothing but their lines, each ended. Whatever the memory, the dump
of its first `count` program bytes has a line for each whole word, and a line read back gives the
address of its word and the two bytes there. So the listing of a program that fits reads back as the
program, a half word filled up. Whatever the screen, its dump has a mark for each pixel and reads
back as the screen. -/
theorem dumps_lose_nothing :
    (∀ (m : Machine) (count : Nat), ∃ text,
      InPlace.dumpMemory m.inPlace.memory count = some text ∧
        text = Text.unlines (m.processor.memory.listing count) ∧
        m.processor.memory.Listed count (Text.lines text.toList)) ∧
    (∀ (files : Files) (entropy : Random.Key) (rom : String) (program : List UInt8),
      readProgram files rom = .ok program → program.length ≤ 3584 →
        ∃ (records : List Log.Record) (text : String) (lines : List String),
          listProgram files entropy rom = ⟨records.map .record ++ [.text lines], 0⟩ ∧
          InPlace.dumpMemory ((Machine.new .default entropy).load program).machine.inPlace.memory
            (program.length + program.length % 2) = some text ∧
          text = Text.unlines lines ∧ Text.lines text.toList = lines.map String.toList ∧
          lines.length = (program.length + 1) / 2 ∧
          bytes? 0x200 (lines.map String.toList) =
            some (program ++ .replicate (program.length % 2) 0)) ∧
    (∀ m : Machine,
      InPlace.dumpScreen m.inPlace.display = Text.unlines m.processor.screen.lines ∧
        m.processor.screen.Pictured (Text.lines (InPlace.dumpScreen m.inPlace.display).toList)) ∧
    Function.Injective fun s : Screen => InPlace.dumpScreen s.pixels := by
  have hpictured (s : Screen) : s.Pictured (Text.lines (InPlace.dumpScreen s.pixels).toList) := by
    rw [InPlace.dumpScreen_eq]
    exact s.pictured
  refine ⟨?_, ?_, fun m => ⟨InPlace.dumpScreen_eq _, hpictured m.processor.screen⟩, ?_⟩
  · intro m count
    exact ⟨_, InPlace.dumpMemory_eq m.processor.memory count, rfl,
      m.processor.memory.listed count⟩
  · intro files entropy rom program hread hfits
    obtain ⟨records, hreport⟩ := listProgram_of_fits entropy hread hfits
    have hfresh := (load_of_fits (Machine.new .default entropy) hfits).2
    generalize ((Machine.new .default entropy).load program).machine = m at hreport hfresh ⊢
    have hlisted := m.processor.memory.listed (program.length + program.length % 2)
    refine ⟨records, _, _, hreport, InPlace.dumpMemory_eq m.processor.memory _, rfl,
      hlisted.eq_listing, ?_, bytes?_listing hfresh hfits⟩
    rw [Memory.length_listing]
    omega
  · intro s t hsame
    have hdumps : InPlace.dumpScreen s.pixels = InPlace.dumpScreen t.pixels := hsame
    have hread := (hpictured s).read
    rw [hdumps, (hpictured t).read] at hread
    exact (Option.some.inj hread).symm

/-- A program of three bytes is listed in two lines, which hold a zero byte at the end. -/
theorem half_word_is_filled :
    readProgram (fun _ => .ok ⟨#[0x12, 0x00, 0xFF]⟩) "rom" = .ok [0x12, 0x00, 0xFF] ∧
    ∃ (records : List Log.Record) (lines : List String),
      listProgram (fun _ => .ok ⟨#[0x12, 0x00, 0xFF]⟩) (.ofSeed 0) "rom" =
        ⟨records.map .record ++ [.text lines], 0⟩ ∧
      lines.length = 2 ∧
      bytes? 0x200 (lines.map String.toList) = some [0x12, 0x00, 0xFF, 0x00] := by
  have hbytes : ByteArray.toList ⟨#[0x12, 0x00, 0xFF]⟩ = [0x12, 0x00, 0xFF] := by decide +kernel
  have hread : readProgram (fun _ => .ok ⟨#[0x12, 0x00, 0xFF]⟩) "rom" = .ok [0x12, 0x00, 0xFF] :=
    congrArg Except.ok hbytes
  obtain ⟨-, hlists, -⟩ := dumps_lose_nothing
  obtain ⟨records, -, lines, hreport, -, -, -, hlength, hlisted⟩ :=
    hlists _ (.ofSeed 0) "rom" _ hread (by decide)
  exact ⟨hread, records, lines, hreport, hlength, hlisted⟩

end Command

end ChipEight

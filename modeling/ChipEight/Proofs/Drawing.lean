import ChipEight.Proofs.Bounds
import ChipEight.Proofs.Painting

/-!
# Drawing a sprite

How a step on a drawing word ends, told from the bits of the sprite. It leaves memory, or one of its
set bits lands off the screen and the first of them is named, or it inverts the pixels under its set
bits and nothing else. A bit that is not set may land anywhere.
-/
namespace ChipEight

theorem Memory.getD_slice (m : Memory) (start length k : Nat) :
    (m.slice start length).getD k 0 = if k < length then m.byte (start + k) else 0 := by
  by_cases h : k < length <;> simp [slice, h]

theorem Screen.draw_eq_error_iff {s : Screen} {sprite : Sprite} {q : Pixel} :
    s.draw sprite = .error q ↔ sprite.pixels.find? (¬ ·.OnScreen) = some q := by
  rw [draw]
  split
  case h_1 first hfirst => rw [hfirst, Except.error.injEq, Option.some.injEq]
  case h_2 hnone =>
    rw [hnone]
    constructor <;> rintro ⟨⟩

theorem Screen.onScreen_of_lit {s : Screen} {q : Pixel} (h : s.lit q = true) : q.OnScreen :=
  (of_decide_eq_true h).1

namespace Processor

/-- The sprite of a drawing word has a set bit in row `r` and column `c`. -/
def SpriteBit (p : Processor) (o : Opcode) (r c : Nat) : Prop :=
  r < o.n.val ∧ c < 8 ∧ (p.memory.byte (p.index.toNat + r)).toNat.testBit (7 - c) = true

instance (p : Processor) (o : Opcode) (r c : Nat) : Decidable (p.SpriteBit o r c) :=
  inferInstanceAs (Decidable (_ ∧ _ ∧ _))

/-- Where row `r` and column `c` of the sprite of a drawing word land, on the screen or off it. -/
def landing (p : Processor) (o : Opcode) (r c : Nat) : Pixel :=
  ⟨(p.v o.x).toNat + c, (p.v o.y).toNat + r⟩

/-- The first set bit that lands off the screen, row by row and left to right. -/
structure FirstOff (p : Processor) (o : Opcode) (r c : Nat) : Prop where
  set : p.SpriteBit o r c
  off : ¬ (p.landing o r c).OnScreen
  first : ∀ s d, p.SpriteBit o s d → ¬ (p.landing o s d).OnScreen → r < s ∨ r = s ∧ c ≤ d

variable {p : Processor} {o : Opcode} {q : Pixel}

theorem covers_sprite_iff :
    (p.sprite o.x o.y o.n).covers q = true ↔
      (p.v o.x).toNat ≤ q.x ∧ q.x < (p.v o.x).toNat + 8 ∧
        (p.v o.y).toNat ≤ q.y ∧ q.y < (p.v o.y).toNat + o.n ∧
        (p.memory.byte (p.index.toNat + (q.y - (p.v o.y).toNat))).toNat.testBit
          (7 - (q.x - (p.v o.x).toNat)) = true := by
  simp only [sprite, Sprite.covers, Sprite.width, Memory.getD_slice, decide_eq_true_eq]
  by_cases hrow : q.y - (p.v o.y).toNat < o.n
  · rw [if_pos hrow]
    constructor
    · rintro ⟨hleft, hright, htop, hbit⟩
      exact ⟨hleft, hright, htop, by omega, hbit⟩
    · rintro ⟨hleft, hright, htop, _, hbit⟩
      exact ⟨hleft, hright, htop, hbit⟩
  · rw [if_neg hrow]
    constructor
    · rintro ⟨_, _, _, hbit⟩
      simp at hbit
    · rintro ⟨_, _, htop, hbottom, _⟩
      omega

theorem covers_sprite_iff_landing :
    (p.sprite o.x o.y o.n).covers q = true ↔ ∃ r c, p.SpriteBit o r c ∧ q = p.landing o r c := by
  rw [covers_sprite_iff]
  constructor
  · rintro ⟨hleft, hright, htop, hbottom, hbit⟩
    refine ⟨q.y - (p.v o.y).toNat, q.x - (p.v o.x).toNat, ⟨by omega, by omega, hbit⟩, ?_⟩
    exact Pixel.ext (Nat.add_sub_cancel' hleft).symm (Nat.add_sub_cancel' htop).symm
  · rintro ⟨r, c, ⟨hr, hc, hbit⟩, rfl⟩
    have hrow : (p.landing o r c).y - (p.v o.y).toNat = r := Nat.add_sub_cancel_left ..
    have hcolumn : (p.landing o r c).x - (p.v o.x).toNat = c := Nat.add_sub_cancel_left ..
    rw [hrow, hcolumn]
    exact ⟨Nat.le_add_right _ _, Nat.add_lt_add_left hc _, Nat.le_add_right _ _,
      Nat.add_lt_add_left hr _, hbit⟩

/-- The first pixel off the screen is that of the first set bit that lands there. -/
theorem find?_pixels_sprite_iff :
    (p.sprite o.x o.y o.n).pixels.find? (¬ ·.OnScreen) = some q ↔
      ∃ r c, p.FirstOff o r c ∧ q = p.landing o r c := by
  rw [find?_eq_some_iff_of_pairwise (Sprite.pairwise_pixels _)]
  simp only [Sprite.mem_pixels, covers_sprite_iff_landing, decide_eq_true_eq]
  constructor
  · rintro ⟨⟨r, c, hset, rfl⟩, hoff, hfirst⟩
    refine ⟨r, c, ⟨hset, hoff, fun s d hother hotherOff => ?_⟩, rfl⟩
    rcases hfirst _ ⟨s, d, hother, rfl⟩ hotherOff with hsame | hprecedes
    · have hx := congrArg Pixel.x hsame
      have hy := congrArg Pixel.y hsame
      simp only [landing] at hx hy
      omega
    · simp only [Pixel.Precedes, landing] at hprecedes
      omega
  · rintro ⟨r, c, ⟨hset, hoff, hfirst⟩, rfl⟩
    refine ⟨⟨r, c, hset, rfl⟩, hoff, ?_⟩
    rintro _ ⟨s, d, hother, rfl⟩ hotherOff
    rcases hfirst s d hother hotherOff with hrow | ⟨rfl, hcolumn⟩
    · exact .inr (.inl (Nat.add_lt_add_left hrow _))
    · rcases Nat.eq_or_lt_of_le hcolumn with rfl | hlt
      · exact .inl rfl
      · exact .inr (.inr ⟨rfl, Nat.add_lt_add_left hlt _⟩)

theorem exists_firstOff {r c : Nat} (hset : p.SpriteBit o r c)
    (hoff : ¬ (p.landing o r c).OnScreen) : ∃ s d, p.FirstOff o s d := by
  have hmem : p.landing o r c ∈ (p.sprite o.x o.y o.n).pixels :=
    Sprite.mem_pixels.mpr (covers_sprite_iff_landing.mpr ⟨r, c, hset, rfl⟩)
  cases hfind : (p.sprite o.x o.y o.n).pixels.find? (¬ ·.OnScreen) with
  | none =>
    have hon := List.find?_eq_none.mp hfind _ hmem
    exact absurd (by simpa using hon) hoff
  | some q =>
    obtain ⟨s, d, hfirst, _⟩ := find?_pixels_sprite_iff.mp hfind
    exact ⟨s, d, hfirst⟩

theorem exists_draw_sprite (hon : ∀ r c, p.SpriteBit o r c → (p.landing o r c).OnScreen)
    (s : Screen) : ∃ t erased, s.draw (p.sprite o.x o.y o.n) = .ok (t, erased) := by
  cases hdraw : s.draw (p.sprite o.x o.y o.n) with
  | error q =>
    obtain ⟨r, c, hfirst, _⟩ := find?_pixels_sprite_iff.mp (Screen.draw_eq_error_iff.mp hdraw)
    exact absurd (hon r c hfirst.set) hfirst.off
  | ok drawn => exact ⟨drawn.1, drawn.2, rfl⟩

theorem drawSprite_eq_ok {x y : Register} {rows : Nat} {t : Screen} {erased : Bool}
    (hreach : p.index.toNat + rows ≤ 4096)
    (hdrawn : p.screen.draw (p.sprite x y rows) = .ok (t, erased)) :
    p.drawSprite x y rows = .ok ({ p.advance with
      screen := t, drawn := true, registers := p.registers.setFlag erased }, .draw) := by
  have hreaches : p.reaches rows = true := decide_eq_true hreach
  rw [drawSprite, if_pos hreaches, hdrawn]

end Processor

namespace Machine

/-- What a drawing that is carried out makes of `m`: the pixels under its set bits are inverted, the
flag register tells whether one of them was lit, and besides only the program counter moves on, the
draw flag goes up and the keys are sampled. -/
structure Drawing (m : Machine) (o : Opcode) (pad : Keypad) (n : Machine) : Prop where
  inverted : ∀ x y, x < 64 → y < 32 →
    (n.processor.screen.lit ⟨x, y⟩ ≠ m.processor.screen.lit ⟨x, y⟩ ↔
      (m.processor.v o.x).toNat ≤ x ∧ x < (m.processor.v o.x).toNat + 8 ∧
        (m.processor.v o.y).toNat ≤ y ∧ y < (m.processor.v o.y).toNat + o.n ∧
        (m.processor.memory.byte
          (m.processor.index.toNat + (y - (m.processor.v o.y).toNat))).toNat.testBit
            (7 - (x - (m.processor.v o.x).toNat)) = true)
  collided : (∃ x y, x < 64 ∧ y < 32 ∧ m.processor.screen.lit ⟨x, y⟩ = true ∧
    n.processor.screen.lit ⟨x, y⟩ ≠ m.processor.screen.lit ⟨x, y⟩) → n.processor.v Register.flag = 1
  missed : (¬ ∃ x y, x < 64 ∧ y < 32 ∧ m.processor.screen.lit ⟨x, y⟩ = true ∧
    n.processor.screen.lit ⟨x, y⟩ ≠ m.processor.screen.lit ⟨x, y⟩) → n.processor.v Register.flag = 0
  registers : ∀ i, i ≠ Register.flag → n.processor.v i = m.processor.v i
  pc : n.processor.pc.toNat = m.processor.pc.toNat + 2
  rest : n = { m with
    processor := { m.processor with
      keys := .ofKeypad pad, drawn := true, pc := n.processor.pc, screen := n.processor.screen
      registers := n.processor.registers } }

variable {m : Machine} {o : Opcode} {pad : Keypad}

theorem Drawing.of_draw {t : Screen} {erased : Bool} (hpc : m.processor.pc.toNat + 2 ≤ 4096)
    (hdrawn : m.processor.screen.draw (m.processor.sprite o.x o.y o.n) = .ok (t, erased)) :
    m.Drawing o pad { m with
      processor := { m.processor with
        keys := .ofKeypad pad, drawn := true, pc := m.processor.pc + 2, screen := t
        registers := m.processor.registers.setFlag erased } } := by
  obtain ⟨hlit, herased⟩ := Screen.draw_eq_ok hdrawn
  have hturned : ∀ q, t.lit q ≠ m.processor.screen.lit q ↔
      (m.processor.sprite o.x o.y o.n).covers q = true := by
    intro q
    rw [hlit q]
    cases m.processor.screen.lit q <;> simp
  have hcollision : erased = true ↔ ∃ x y, x < 64 ∧ y < 32 ∧
      m.processor.screen.lit ⟨x, y⟩ = true ∧ t.lit ⟨x, y⟩ ≠ m.processor.screen.lit ⟨x, y⟩ := by
    rw [herased]
    constructor
    · rintro ⟨q, hcovers, hwas⟩
      have hon := Screen.onScreen_of_lit hwas
      exact ⟨q.x, q.y, hon.1, hon.2, hwas, (hturned q).mpr hcovers⟩
    · rintro ⟨x, y, _, _, hwas, hnow⟩
      exact ⟨⟨x, y⟩, (hturned _).mp hnow, hwas⟩
  have hflag : (m.processor.registers.setFlag erased).get Register.flag = erased.toUInt8 := by
    rw [Registers.get_setFlag, if_pos rfl]
  constructor
  case inverted =>
    intro x y _ _
    exact (hturned ⟨x, y⟩).trans Processor.covers_sprite_iff
  case collided =>
    intro h
    exact hflag.trans (congrArg Bool.toUInt8 (hcollision.mpr h))
  case missed =>
    intro h
    exact hflag.trans (congrArg Bool.toUInt8 (Bool.eq_false_iff.mpr (mt hcollision.mp h)))
  case registers =>
    intro i hi
    show (m.processor.registers.setFlag erased).get i = _
    rw [Registers.get_setFlag, if_neg hi]
    rfl
  case pc => exact Processor.toNat_add_two hpc
  case rest => rfl

/-- A step on a drawing word ends in one of three ways. A sprite that leaves memory is refused at
the first address past memory, or at the index register if that lies further on. A sprite with a set
bit off the screen is refused for the first of these bits. Both refusals change nothing but the
sampled keys. Every other drawing is carried out, wherever the bits land that are not set. The step
in place, which checks and inverts bit by bit in loops over rows and columns, ends the same. -/
theorem drawing_is_exact (hfetch : m.processor.opcode? = some o) (hfamily : o.family.val = 0xD)
    (pad : Keypad) :
    (InPlace.step pad).run m.inPlace = (m.step pad).inPlace ∧
    (4096 < m.processor.index.toNat + o.n →
      (m.step pad).result =
        .error ⟨m.processor.pc, .memoryOutOfBounds (max m.processor.index.toNat 4096)⟩ ∧
      (m.step pad).machine = m.sample pad) ∧
    (m.processor.index.toNat + o.n ≤ 4096 →
      (∃ r c, m.processor.SpriteBit o r c ∧ ¬ (m.processor.landing o r c).OnScreen) →
      ∃ r c, m.processor.FirstOff o r c ∧
        (m.step pad).result =
          .error ⟨m.processor.pc,
            .displayOutOfBounds ((m.processor.v o.x).toNat + c) ((m.processor.v o.y).toNat + r)⟩ ∧
        (m.step pad).machine = m.sample pad) ∧
    (m.processor.index.toNat + o.n ≤ 4096 →
      (∀ r c, m.processor.SpriteBit o r c → (m.processor.landing o r c).OnScreen) →
      (m.step pad).result = .ok .draw ∧ m.Drawing o pad (m.step pad).machine) := by
  have hdecode := Opcode.decode?_of_draw_family hfamily
  refine ⟨InPlace.step_inPlace m pad, fun hbeyond => ?_, fun hreach hoff => ?_,
    fun hreach hon => ?_⟩
  · have hrefusal : (m.sample pad).processor.Refusal (.draw o.x o.y o.n) m.processor.beyondMemory :=
      .beyondMemory rfl (decide_eq_false (Nat.not_le.mpr hbeyond))
    exact (Stepped.refused hfetch hdecode (hrefusal.execute m.random)).eq
  · obtain ⟨r, c, hset, hoff⟩ := hoff
    obtain ⟨r, c, hfirst⟩ := Processor.exists_firstOff hset hoff
    have hdraw := Screen.draw_eq_error_iff (s := m.processor.screen).mpr
      (Processor.find?_pixels_sprite_iff.mpr ⟨r, c, hfirst, rfl⟩)
    have hrefusal : (m.sample pad).processor.Refusal (.draw o.x o.y o.n) _ :=
      .offScreen (decide_eq_true hreach) hdraw
    exact ⟨r, c, hfirst, (Stepped.refused hfetch hdecode (hrefusal.execute m.random)).eq⟩
  · obtain ⟨t, erased, hdrawn⟩ := Processor.exists_draw_sprite hon m.processor.screen
    have hexecute := Processor.drawSprite_eq_ok (p := (m.sample pad).processor) hreach hdrawn
    obtain ⟨hmachine, hresult⟩ := step_of_execute hfetch hdecode hexecute
    refine ⟨hresult, ?_⟩
    rw [hmachine]
    exact .of_draw (Memory.le_of_opcode? hfetch) hdrawn

/-- A machine about to draw the glyph of zero in the top row, `x` pixels from the left. -/
def aboutToDraw (x : UInt8) : Machine :=
  ((loaded [0x60, x, 0xD0, 0x15]).step fun _ => false).machine

/-- The glyph is four pixels wide: at 60 it is drawn though the clear half of its rows lies off the
screen, at 61 its first row sticks out. -/
theorem glyph_drawn_at_edge :
    ((aboutToDraw 60).step fun _ => true).result = .ok .draw ∧
    ((aboutToDraw 60).step fun _ => true).machine.processor.screen.lit ⟨63, 4⟩ = true ∧
    ((aboutToDraw 60).step fun _ => true).machine.processor.v Register.flag = 0 ∧
    ((aboutToDraw 61).step fun _ => true).result = .error ⟨514, .displayOutOfBounds 64 0⟩ ∧
    ((aboutToDraw 61).step fun _ => true).machine = (aboutToDraw 61).sample fun _ => true := by
  have hfits : (aboutToDraw 60).processor.opcode? = some ⟨0xD015⟩ ∧
      (aboutToDraw 60).processor.index = 0 ∧ (aboutToDraw 60).processor.v 0 = 60 ∧
      (aboutToDraw 60).processor.v 1 = 0 ∧ (aboutToDraw 60).processor.memory.byte 4 = 0xF0 ∧
      ∀ r < 5, ∀ c < 8, (aboutToDraw 60).processor.SpriteBit ⟨0xD015⟩ r c →
        ((aboutToDraw 60).processor.landing ⟨0xD015⟩ r c).OnScreen := by
    decide +kernel
  have hsticks : (aboutToDraw 61).processor.opcode? = some ⟨0xD015⟩ ∧
      (aboutToDraw 61).processor.pc = 514 ∧ (aboutToDraw 61).processor.index = 0 ∧
      (aboutToDraw 61).processor.v 0 = 61 ∧ (aboutToDraw 61).processor.v 1 = 0 ∧
      (aboutToDraw 61).processor.SpriteBit ⟨0xD015⟩ 0 3 ∧
      ¬ ((aboutToDraw 61).processor.landing ⟨0xD015⟩ 0 3).OnScreen := by
    decide +kernel
  have hblank : (aboutToDraw 60).processor.screen = .blank := by
    rw [aboutToDraw, step_of_setByte (first_opcode?_loaded _ (by decide) (by decide)) rfl,
      loaded_of_fits (by decide)]
    rfl
  generalize aboutToDraw 60 = m at hfits hblank ⊢
  generalize aboutToDraw 61 = k at hsticks ⊢
  have hx : Opcode.x ⟨0xD015⟩ = 0 := by decide
  have hy : Opcode.y ⟨0xD015⟩ = 1 := by decide
  have hn : (Opcode.n ⟨0xD015⟩).val = 5 := by decide
  obtain ⟨hfetch, hindex, hleft, htop, hrow, hon⟩ := hfits
  obtain ⟨-, -, -, hdrawn⟩ := drawing_is_exact hfetch (by decide) fun _ => true
  obtain ⟨hresult, hdrawing⟩ := hdrawn (by rw [hindex, hn]; decide)
    fun r c hset => hon r (hn ▸ hset.1) c hset.2.1 hset
  have hdark : ∀ x y, m.processor.screen.lit ⟨x, y⟩ = false := by
    intro x y
    rw [hblank, lit_blank]
  have hcorner := hdrawing.inverted 63 4 (by decide) (by decide)
  rw [hx, hy, hn, hleft, htop, hindex] at hcorner
  have hset : (m.processor.memory.byte
      ((0 : UInt16).toNat + (4 - (0 : UInt8).toNat))).toNat.testBit
        (7 - (63 - (60 : UInt8).toNat)) = true := by
    show (m.processor.memory.byte 4).toNat.testBit 4 = true
    rw [hrow]
    decide
  have hlit := hcorner.mpr ⟨by decide, by decide, by decide, by decide, hset⟩
  refine ⟨hresult, by simpa [hdark] using hlit, hdrawing.missed (by simp [hdark]), ?_⟩
  obtain ⟨hfetch, hpc, hindex, hleft, htop, hset, hoff⟩ := hsticks
  obtain ⟨-, -, hrefused, -⟩ := drawing_is_exact hfetch (by decide) fun _ => true
  obtain ⟨r, c, hfirst, hresult, hmachine⟩ :=
    hrefused (by rw [hindex, hn]; decide) ⟨0, 3, hset, hoff⟩
  -- the bit named is no later than column 3 of row 0, and none before lands off the screen
  have hplace : r = 0 ∧ c = 3 := by
    have hfar := hfirst.off
    have hnear := hfirst.first 0 3 hset hoff
    simp only [Processor.landing, Pixel.OnScreen, Screen.width, Screen.height, hx, hy, hleft, htop,
      show (61 : UInt8).toNat = 61 from rfl, show (0 : UInt8).toNat = 0 from rfl] at hfar
    omega
  obtain ⟨rfl, rfl⟩ := hplace
  rw [hpc, hx, hy, hleft, htop] at hresult
  exact ⟨hresult, hmachine⟩

end Machine

end ChipEight

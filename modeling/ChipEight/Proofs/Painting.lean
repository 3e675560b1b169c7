import ChipEight.Proofs.Frame
import ChipEight.Proofs.FreshStart
import ChipEight.Proofs.Halt

/-!
# The parity of drawings

A pixel is lit as its base says, turned over as often as a sprite with a set bit there was drawn.
Only the number of these drawings matters, and of that only whether it is odd.
-/
namespace ChipEight

namespace Screen

variable {s t : Screen} {sprite : Sprite}

/-- A screen is what is lit on it. -/
theorem eq_of_lit (h : ∀ p, s.lit p = t.lit p) : s = t := by
  refine Screen.ext (Vector.ext fun i hi => ?_)
  have hp : Pixel.OnScreen ⟨i % 64, i / 64⟩ := by
    constructor
    · exact Nat.mod_lt i (by decide)
    · show i / 64 < 32
      omega
  have hindex : Pixel.index ⟨i % 64, i / 64⟩ = i := Nat.div_add_mod i 64
  have hlit := h ⟨i % 64, i / 64⟩
  simpa [lit, hp, hindex, hi] using hlit

/-- Inverting distinct pixels inverts just those. -/
theorem lit_foldl_toggle {pixels : List Pixel} (hnodup : pixels.Nodup)
    (hon : ∀ p ∈ pixels, p.OnScreen) (s : Screen) (q : Pixel) :
    (pixels.foldl toggle s).lit q = (s.lit q != decide (q ∈ pixels)) := by
  induction pixels generalizing s with
  | nil => simp
  | cons p rest ih =>
    obtain ⟨hnew, hrest⟩ := List.nodup_cons.mp hnodup
    rw [List.foldl_cons, ih hrest (fun r hr => hon r (List.mem_cons_of_mem p hr)),
      s.lit_toggle (hon p List.mem_cons_self)]
    by_cases h : p = q
    · subst h
      simp [hnew]
    · simp [h, Ne.symm h]

/-- A drawing that is carried out inverts the pixels that the sprite covers, and says whether one of
them was lit. -/
theorem draw_eq_ok {erased : Bool} (h : s.draw sprite = .ok (t, erased)) :
    (∀ p, t.lit p = (s.lit p != sprite.covers p)) ∧
      (erased = true ↔ ∃ p, sprite.covers p = true ∧ s.lit p = true) := by
  rw [draw] at h
  split at h
  · cases h
  case h_2 hfind =>
    cases h
    have hon : ∀ p ∈ sprite.pixels, p.OnScreen := by simpa using hfind
    constructor
    · intro p
      simp only [lit_foldl_toggle sprite.nodup_pixels hon, Sprite.mem_pixels, Bool.decide_eq_true]
    · simp only [List.any_eq_true, Sprite.mem_pixels]

end Screen

namespace Opcode

variable {o : Opcode}

theorem decode?_of_clear (h : o.word = 0x00E0) : o.decode? = some .clear :=
  decode?_eq_some_iff.mpr h

theorem decode?_of_draw_family (h : o.family.val = 0xD) : o.decode? = some (.draw o.x o.y o.n) :=
  decode?_eq_some_iff.mpr ⟨h, rfl, rfl, rfl⟩

end Opcode

namespace Machine

/-- The machines that requests lead to without starting over, each with the strokes on the way. -/
inductive Painted (m : Machine) : Machine → List Stroke → Prop
  | refl : Painted m m []
  | serve {n k : Machine} {strokes : List Stroke} (request : Request) (hn : Painted m n strokes)
      (hgoes : ¬ request.StartsOver) (h : n.serve request = .ok k) :
      Painted m k (strokes ++ request.strokes n)

/-- How a step with these strokes leaves the screen and, after a drawing, the registers. -/
inductive Strikes (p : Processor) : List Stroke → Processor → Prop
  | nothing {q : Processor} (hscreen : q.screen = p.screen) : Strikes p [] q
  | clear {q : Processor} (hscreen : q.screen = .blank) : Strikes p [.clear] q
  | draw {q : Processor} {sprite : Sprite} {erased : Bool}
      (hdraw : p.screen.draw sprite = .ok (q.screen, erased))
      (hflag : q.registers = p.registers.setFlag erased) : Strikes p [.draw sprite] q

/-- The pixels are lit as the parity of the drawings on them says. -/
def Painting.Shows (c : Painting) (s : Screen) : Prop :=
  ∀ p, s.lit p = (c.base.lit p != decide (c.drawn.countP (·.covers p) % 2 = 1))

variable {m n k : Machine} {pad : Keypad} {strokes : List Stroke} {c : Painting}
  {p q : Processor} {s : Screen}

theorem strikes_drawSprite {x y : Register} {rows : Nat} {flow : Flow}
    (h : p.drawSprite x y rows = .ok (q, flow)) : Strikes p [.draw (p.sprite x y rows)] q := by
  rw [Processor.drawSprite] at h
  split at h
  · split at h
    · cases h
    case h_2 hdraw =>
      cases h
      exact .draw hdraw rfl
  · cases h

/-- Clearing and drawing are the strokes of their words, and no other instruction makes one. -/
theorem strikes_step (m : Machine) (pad : Keypad) :
    Strikes (m.sample pad).processor (m.stepStrokes pad) (m.step pad).machine.processor := by
  have hs := m.stepped pad
  rw [stepStrokes]
  generalize (m.step pad).result = r at hs ⊢
  generalize (m.step pad).machine = n at hs ⊢
  cases hs with
  | unfetched hfetch | unknown hfetch | refused hfetch =>
    rw [hfetch]
    exact .nothing rfl
  | @executed o i p flow hfetch hdecode hexecute =>
    rw [hfetch]
    dsimp only
    -- the stroke is read off the word, what it leaves off the instruction that the word stands for
    split
    case isTrue hword =>
      rw [Opcode.decode?_of_clear hword] at hdecode
      cases hdecode
      cases hexecute
      exact .clear rfl
    case isFalse hword =>
      split
      case isTrue hfamily =>
        rw [Opcode.decode?_of_draw_family hfamily] at hdecode
        cases hdecode
        exact strikes_drawSprite hexecute
      case isFalse hfamily =>
        exact .nothing
          ((Processor.leaves_execute hexecute).unpainted
            ((Opcode.standsFor_of_decode? hdecode).spares.paints hword hfamily))

/-- The order of the drawings does not matter. -/
theorem Painting.Shows.congr {d : Painting} {t : Screen} (hc : c.Shows s) (hd : d.Shows t)
    (hbase : c.base = d.base) (hdrawn : c.drawn.Perm d.drawn) : s = t := by
  apply Screen.eq_of_lit
  intro r
  rw [hc r, hd r, hbase, hdrawn.countP_eq]

/-- One more drawing turns over the parity on the pixels that it covers. -/
theorem Painting.Shows.draw {sprite : Sprite} {t : Screen} {erased : Bool} (h : c.Shows s)
    (hdraw : s.draw sprite = .ok (t, erased)) : (c.add (.draw sprite)).Shows t := by
  intro r
  have hcount : (c.add (.draw sprite)).drawn.countP (·.covers r) =
      c.drawn.countP (·.covers r) + if sprite.covers r then 1 else 0 := by
    simp [Painting.add, List.countP_append, List.countP_singleton]
  rw [(Screen.draw_eq_ok hdraw).1 r, h r, hcount]
  cases sprite.covers r with
  | false => simp [Painting.add]
  | true =>
    have hodd : decide ((c.drawn.countP (·.covers r) + 1) % 2 = 1) =
        !decide (c.drawn.countP (·.covers r) % 2 = 1) := by
      rw [← decide_not, decide_eq_decide]
      omega
    simp [Painting.add, hodd]

theorem Painting.Shows.strikes (h : c.Shows p.screen) (hstrikes : Strikes p strokes q) :
    (strokes.foldl Painting.add c).Shows q.screen := by
  cases hstrikes with
  | nothing hscreen =>
    rw [hscreen]
    exact h
  | clear hscreen =>
    rw [hscreen]
    intro r
    simp [Painting.add]
  | draw hdraw _ => exact h.draw hdraw

theorem Painting.Shows.step (h : c.Shows m.processor.screen) (pad : Keypad) :
    ((m.stepStrokes pad).foldl Painting.add c).Shows (m.step pad).machine.processor.screen :=
  Painting.Shows.strikes (p := (m.sample pad).processor) h (m.strikes_step pad)

theorem Painting.Shows.run (h : c.Shows m.processor.screen) (pad : Keypad) (count : Nat) :
    ((batchStrokes pad count m).foldl Painting.add c).Shows
      (m.run count pad).machine.processor.screen := by
  induction count generalizing m c with
  | zero => exact h
  | succ count ih =>
    have hstep := h.step pad
    rw [batchStrokes]
    cases hstopped : (m.step pad).stopped with
    | true =>
      rw [(agrees_run_of_stopped hstopped).machine, if_pos rfl, List.append_nil]
      exact hstep
    | false =>
      rw [machine_run_succ, if_neg Bool.false_ne_true, List.foldl_append]
      exact ih hstep

theorem Painting.Shows.serve {request : Request} (h : c.Shows m.processor.screen)
    (hgoes : ¬ request.StartsOver) (hserve : m.serve request = .ok n) :
    ((request.strokes m).foldl Painting.add c).Shows n.processor.screen := by
  cases request with
  | load | reset => exact (hgoes trivial).elim
  | step pad =>
    cases hserve
    exact h.step pad
  | run count pad =>
    cases hserve
    exact h.run pad count
  | tick | advance | takeDrawn =>
    obtain ⟨_, _, _, _⟩ := paused_serve hserve trivial
    exact h

/-- The run lemma. -/
theorem Painted.shows (h : m.Painted n strokes) :
    (Painting.ofStrokes m.processor.screen strokes).Shows n.processor.screen := by
  induction h with
  | refl => exact fun p => by simp [Painting.ofStrokes]
  | serve request _ hgoes hserve ih =>
    rw [Painting.ofStrokes, List.foldl_append]
    exact ih.serve hgoes hserve

/-- Requests without a stroke leave the screen alone. -/
theorem Painted.screen_of_nil (h : m.Painted n []) : n.processor.screen = m.processor.screen := by
  apply Screen.eq_of_lit
  intro p
  simp [h.shows p, Painting.ofStrokes]

/-- The flag register tells whether the drawing took a lit pixel off. -/
theorem Strikes.flag {sprite : Sprite} (h : Strikes p [.draw sprite] q) :
    q.v Register.flag ≤ 1 ∧
      (q.v Register.flag = 1 ↔ ∃ r, sprite.covers r = true ∧ p.screen.lit r = true) := by
  cases h with
  | @draw _ _ erased hdraw hflag =>
    have hv : q.v Register.flag = Bool.toUInt8 erased := by
      rw [Processor.v, hflag]
      exact Vector.getElem_set_self _
    rw [hv, ← (Screen.draw_eq_ok hdraw).2]
    cases erased <;> decide

theorem Strikes.lit {sprite : Sprite} (h : Strikes p [.draw sprite] q) (r : Pixel) :
    q.screen.lit r = (p.screen.lit r != sprite.covers r) := by
  cases h with
  | draw hdraw _ => exact (Screen.draw_eq_ok hdraw).1 r

/-- A sprite drawn over itself restores the screen, and collides on what it had turned on. -/
theorem redraw_restores {sprite : Sprite} {next : Keypad}
    (hfirst : m.stepStrokes pad = [.draw sprite]) (hidle : (m.step pad).machine.Painted n [])
    (hlast : n.stepStrokes next = [.draw sprite]) :
    (n.step next).machine.processor.screen = m.processor.screen ∧
      (n.step next).machine.processor.v Register.flag ≤ 1 ∧
      ((n.step next).machine.processor.v Register.flag = 1 ↔
        ∃ r, m.processor.screen.lit r = false ∧
          (m.step pad).machine.processor.screen.lit r = true) := by
  have hdrawn := m.strikes_step pad
  have hredrawn := n.strikes_step next
  rw [hfirst] at hdrawn
  rw [hlast] at hredrawn
  have hon : ∀ r, (m.step pad).machine.processor.screen.lit r =
      (m.processor.screen.lit r != sprite.covers r) := hdrawn.lit
  have hoff : ∀ r, (n.step next).machine.processor.screen.lit r =
      ((m.step pad).machine.processor.screen.lit r != sprite.covers r) := by
    intro r
    rw [← hidle.screen_of_nil]
    exact hredrawn.lit r
  refine ⟨?_, hredrawn.flag.1, ?_⟩
  · apply Screen.eq_of_lit
    intro r
    rw [hoff r, hon r]
    simp
  · have hflag : (n.step next).machine.processor.v Register.flag = 1 ↔
        ∃ r, sprite.covers r = true ∧ n.processor.screen.lit r = true := hredrawn.flag.2
    rw [hflag, hidle.screen_of_nil]
    apply exists_congr
    intro r
    rw [hon r]
    cases sprite.covers r <;> simp

/-- Wherever requests lead from a machine without starting over: a pixel is lit just when its base
differs from the parity of the sprites drawn on it since. The base is the first screen or, once the
screen has been cleared, the blank one. So every way from the same base by the same drawings ends
with the same screen, whatever their order. A sprite that is drawn twice, with nothing painted in
between, leaves the screen as it was; the second drawing sets the flag register to 1 if the first
one turned a pixel on, and to 0 otherwise. -/
theorem screen_is_parity_of_drawings (h : m.Painted n strokes) :
    (Painting.ofStrokes m.processor.screen strokes).Shows n.processor.screen ∧
    (∀ (m' n' : Machine) (others : List Stroke), m'.Painted n' others →
      (Painting.ofStrokes m'.processor.screen others).base =
        (Painting.ofStrokes m.processor.screen strokes).base →
      (Painting.ofStrokes m'.processor.screen others).drawn.Perm
        (Painting.ofStrokes m.processor.screen strokes).drawn →
      n'.processor.screen = n.processor.screen) ∧
    ∀ (first last : Keypad) (k : Machine) (sprite : Sprite),
      n.stepStrokes first = [.draw sprite] → (n.step first).machine.Painted k [] →
      k.stepStrokes last = [.draw sprite] →
      (k.step last).machine.processor.screen = n.processor.screen ∧
      (k.step last).machine.processor.v Register.flag ≤ 1 ∧
      ((k.step last).machine.processor.v Register.flag = 1 ↔
        ∃ p, n.processor.screen.lit p = false ∧
          (n.step first).machine.processor.screen.lit p = true) :=
  ⟨h.shows, fun _ _ _ hother hbase hdrawn => hother.shows.congr h.shows hbase hdrawn,
    fun _ _ _ _ => redraw_restores⟩

/-- The program clears the screen and draws the glyph of zero twice, at the top left corner. -/
theorem glyph_drawn_twice_is_gone :
    ∃ n k, (loaded [0x00, 0xE0, 0xD0, 0x05, 0xD0, 0x05]).Painted n [.clear] ∧
      n.Painted k [.draw ⟨0, 0, [0xF0, 0x90, 0x90, 0x90, 0xF0]⟩] ∧
      (∀ p, n.processor.screen.lit p = false) ∧ k.processor.screen.lit ⟨3, 1⟩ = true ∧
      (k.step fun _ => true).machine.processor.screen = n.processor.screen ∧
      (k.step fun _ => true).machine.processor.v Register.flag = 1 := by
  have hstrokes :
      let m := loaded [0x00, 0xE0, 0xD0, 0x05, 0xD0, 0x05]
      let n := (m.step fun _ => false).machine
      let k := (n.step fun _ => false).machine
      m.stepStrokes (fun _ => false) = [.clear] ∧
        n.stepStrokes (fun _ => false) = [.draw ⟨0, 0, [0xF0, 0x90, 0x90, 0x90, 0xF0]⟩] ∧
        k.stepStrokes (fun _ => true) = [.draw ⟨0, 0, [0xF0, 0x90, 0x90, 0x90, 0xF0]⟩] := by
    decide +kernel
  generalize loaded [0x00, 0xE0, 0xD0, 0x05, 0xD0, 0x05] = m at hstrokes ⊢
  obtain ⟨hclear, hfirst, hlast⟩ := hstrokes
  have hn := Painted.refl.serve (m := m) (.step fun _ => false) id rfl
  have hk := Painted.refl.serve (m := (m.step fun _ => false).machine) (.step fun _ => false) id rfl
  simp only [Request.strokes, hclear, hfirst, List.nil_append] at hn hk
  obtain ⟨hblank, -, htwice⟩ := screen_is_parity_of_drawings hn
  obtain ⟨hdrawn, -, -⟩ := screen_is_parity_of_drawings hk
  have hoff : ∀ p, (m.step fun _ => false).machine.processor.screen.lit p = false := by
    intro p
    simpa [Painting.ofStrokes, Painting.add, lit_blank] using hblank p
  have hon : ((m.step fun _ => false).machine.step fun _ => false).machine.processor.screen.lit
      ⟨3, 1⟩ = true := by
    have hcovers : Sprite.covers ⟨0, 0, [0xF0, 0x90, 0x90, 0x90, 0xF0]⟩ ⟨3, 1⟩ = true := by decide
    simpa [Painting.ofStrokes, Painting.add, hoff, hcovers] using hdrawn ⟨3, 1⟩
  obtain ⟨hrestored, -, hflag⟩ := htwice _ _ _ _ hfirst .refl hlast
  exact ⟨_, _, hn, hk, hoff, hon, hrestored, hflag.mpr ⟨⟨3, 1⟩, hoff _, hon⟩⟩

end Machine

end ChipEight

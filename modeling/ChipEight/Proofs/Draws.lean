import ChipEight.Proofs.Frame
import ChipEight.Proofs.FreshStart

/-!
# The position in the random stream

A machine made with a seed is always as far in the random stream of that seed as it has carried out
random instructions, and each of them stored the masked low byte of the word that was next. No other
instruction takes a word; neither does a fault, a wait for a key or starting over, and none of them
goes back. The stream itself is stated block by block: the words of block 0, then those of block 1,
and so on.
-/
namespace ChipEight

namespace Random

/-- The words of the first blocks of a key, one block after another. -/
def Key.words (key : Key) (blocks : Nat) : List UInt32 :=
  (List.range blocks).flatMap fun counter => (Block.keystream key (UInt64.ofNat counter)).toList

/-- The blocks before word `j` are full, so that it is word `j % 16` of block `j / 16`. -/
theorem Key.getElem?_words (key : Key) {blocks j : Nat} (h : j < 16 * blocks) :
    (key.words blocks)[j]? = some (key.word j) := by
  induction blocks with
  | zero => omega
  | succ blocks ih =>
    have hlength : (key.words blocks).length = 16 * blocks := by
      simp [words, List.length_flatMap, Nat.mul_comm]
    have hsucc : key.words (blocks + 1) =
        key.words blocks ++ (Block.keystream key (UInt64.ofNat blocks)).toList := by
      simp [words, List.range_succ]
    rw [hsucc]
    by_cases hj : j < 16 * blocks
    · rw [List.getElem?_append_left (by omega), ih hj]
    · have hdiv : j / 16 = blocks := by omega
      have hmod : j - 16 * blocks = j % 16 := by omega
      rw [List.getElem?_append_right (by omega), hlength, hmod, Key.word, hdiv, Block.word]
      simp [Vector.get, Fin.ofNat, Nat.mod_lt]

theorem Stream.skip_add (s : Stream) (a b : Nat) : (s.skip a).skip b = s.skip (a + b) := by
  simp only [skip, Nat.add_assoc]

end Random

theorem Opcode.decode?_of_random_family {o : Opcode} (h : o.family.val = 0xC) :
    o.decode? = some (.random o.x o.nn) :=
  decode?_eq_some_iff.mpr ⟨h, rfl, rfl⟩

namespace Machine

variable {m n k : Machine} {taken others : List Draw} {pad : Keypad}

/-- From `m` to `n` the stream moves by one word a draw, and draw `j` stores the masked byte that is
`j` words ahead. -/
structure Follows (m n : Machine) (taken : List Draw) : Prop where
  random : n.random = m.random.skip taken.length
  stored : ∀ j d, taken[j]? = some d → d.stored = d.mask &&& (m.random.skip j).byte

theorem follows_nil (h : n.random = m.random) : m.Follows n [] :=
  ⟨h, fun _ _ hd => nomatch hd⟩

theorem Follows.append (hmn : m.Follows n taken) (hnk : n.Follows k others) :
    m.Follows k (taken ++ others) := by
  constructor
  · rw [hnk.random, hmn.random, Random.Stream.skip_add, List.length_append]
  · intro j d hd
    by_cases hj : j < taken.length
    · rw [List.getElem?_append_left hj] at hd
      exact hmn.stored j d hd
    · rw [List.getElem?_append_right (Nat.not_lt.mp hj)] at hd
      have hlater := hnk.stored _ d hd
      rw [hmn.random, Random.Stream.skip_add, Nat.add_sub_cancel' (Nat.not_lt.mp hj)] at hlater
      exact hlater

/-- A word of the random family is always carried out, and stores the next byte under its mask. -/
theorem step_of_random_family {o : Opcode} (hfetch : m.processor.opcode? = some o)
    (hfamily : o.family.val = 0xC) (pad : Keypad) :
    (m.step pad).machine.random = m.random.skip 1 ∧
      (m.step pad).machine.processor.v o.x = o.nn &&& m.random.byte := by
  have hexecute : (m.sample pad).processor.execute m.random (.random o.x o.nn) = .ok (_, .next) :=
    rfl
  obtain ⟨hmachine, -⟩ :=
    step_of_execute hfetch (Opcode.decode?_of_random_family hfamily) hexecute
  rw [hmachine]
  refine ⟨rfl, ?_⟩
  show (Registers.write _ o.x _)[o.x.val] = _
  exact Vector.getElem_set_self _

/-- No other word takes anything from the stream, however its step ends. -/
theorem random_step_of_other (hother : ∀ o, m.processor.opcode? = some o → o.family.val ≠ 0xC)
    (pad : Keypad) : (m.step pad).machine.random = m.random := by
  have hs := m.stepped pad
  generalize (m.step pad).result = r at hs
  generalize (m.step pad).machine = n at hs ⊢
  cases hs with
  | unfetched | unknown | refused => rfl
  | executed hfetch hdecode _ =>
    show m.random.skip _ = m.random
    rw [(Opcode.standsFor_of_decode? hdecode).spares.draws (hother _ hfetch)]
    rfl

/-- The step lemma. -/
theorem follows_step (m : Machine) (pad : Keypad) :
    m.Follows (m.step pad).machine (m.stepDraws pad) := by
  rw [stepDraws]
  cases hfetch : m.processor.opcode? with
  | none => exact follows_nil (random_step_of_other (by simp [hfetch]) pad)
  | some o =>
    dsimp only
    by_cases hfamily : o.family.val = 0xC
    · rw [if_pos hfamily]
      obtain ⟨hrandom, hstored⟩ := step_of_random_family hfetch hfamily pad
      refine ⟨hrandom, fun j d hd => ?_⟩
      obtain ⟨hj, rfl⟩ := List.getElem?_eq_some_iff.mp hd
      have hzero : j = 0 := by simpa using hj
      subst hzero
      exact hstored
    · rw [if_neg hfamily]
      refine follows_nil (random_step_of_other ?_ pad)
      intro o' ho'
      rw [hfetch] at ho'
      cases ho'
      exact hfamily

theorem follows_run (m : Machine) (pad : Keypad) (count : Nat) :
    m.Follows (m.run count pad).machine (batchDraws pad count m) := by
  induction count generalizing m with
  | zero => exact follows_nil rfl
  | succ count ih =>
    have hstep := m.follows_step pad
    rw [batchDraws]
    cases hstopped : (m.step pad).stopped with
    | true =>
      rw [(agrees_run_of_stopped hstopped).machine, if_pos rfl, List.append_nil]
      exact hstep
    | false =>
      rw [machine_run_succ, if_neg Bool.false_ne_true]
      exact hstep.append (ih _)

theorem follows_serve {request : Request} (h : m.serve request = .ok n) :
    m.Follows n (request.draws m) := by
  cases request with
  | load program =>
    cases h
    exact follows_nil (m.random_load program).1
  | reset =>
    cases h
    exact follows_nil rfl
  | step pad =>
    cases h
    exact m.follows_step pad
  | run count pad =>
    cases h
    exact m.follows_run pad count
  | tick | advance | takeDrawn =>
    obtain ⟨_, _, _, _⟩ := paused_serve h trivial
    exact follows_nil rfl

/-- The run lemma. -/
theorem Drew.follows {seed : UInt64} {past : List Draw} (h : Drew seed m past) :
    m.random = ⟨.ofSeed seed, past.length⟩ ∧
      ∀ j d, past[j]? = some d → d.stored = d.mask &&& (Random.Key.ofSeed seed).byte j := by
  have hfollows : ∃ first : Machine, first.random = .ofSeed seed ∧ first.Follows m past := by
    induction h with
    | new frequency entropy => exact ⟨_, rfl, follows_nil rfl⟩
    | serve request _ h ih =>
      obtain ⟨first, hfirst, hpast⟩ := ih
      exact ⟨first, hfirst, hpast.append (follows_serve h)⟩
  obtain ⟨first, hfirst, hpast⟩ := hfollows
  refine ⟨?_, ?_⟩
  · rw [hpast.random, hfirst, Random.Stream.skip, Random.Stream.ofSeed, Nat.zero_add]
  · intro j d hd
    rw [hpast.stored j d hd, hfirst, Random.Stream.skip, Random.Stream.ofSeed, Nat.zero_add]
    rfl

/-- A program that begins with a random instruction, loaded and stepped once. -/
theorem Drew.load_step {seed : UInt64} {past : List Draw} (h : Drew seed m past)
    (program : List UInt8) (hlength : 1 < program.length) (hfits : program.length ≤ 3584)
    (hfamily : (Opcode.ofBytes program[0] program[1]).family.val = 0xC) (pad : Keypad) :
    ∃ n d, Drew seed n (past ++ [d]) ∧ d.mask = (Opcode.ofBytes program[0] program[1]).nn := by
  have hfetch := (m.load_of_fits hfits).2.opcode? hlength
  have hstep := (h.serve (.load program) rfl).serve (.step pad) rfl
  simp only [Request.draws, stepDraws, hfetch, if_pos hfamily, List.append_nil] at hstep
  exact ⟨_, _, hstep, rfl⟩

/-- A machine that was made with a seed stands in the random stream of that seed behind as many
words as it has carried out random instructions, whatever it was asked in between. Random
instruction `j`, counted from 0, stored its mask applied to the low byte of word `j` of the stream,
blocks of sixteen words one after another. -/
theorem draws_follow_stream {seed : UInt64} {past : List Draw} (h : Drew seed m past) :
    m.random.key = .ofSeed seed ∧ m.random.position = past.length ∧
    ∀ j d, past[j]? = some d → ∀ blocks, j < 16 * blocks →
      ∃ w, ((Random.Key.ofSeed seed).words blocks)[j]? = some w ∧
        d.stored = d.mask &&& w.toUInt8 := by
  obtain ⟨hrandom, hstored⟩ := h.follows
  refine ⟨by rw [hrandom], by rw [hrandom], ?_⟩
  intro j d hd blocks hj
  exact ⟨_, Random.Key.getElem?_words _ hj, hstored j d hd⟩

/-- The second program takes the second word, although the machine started over in between. -/
theorem draws_go_on_after_reset :
    ∃ m past, Drew 3 m past ∧ past.map Draw.mask = [0xFF, 0x0F] ∧
      past.map Draw.stored = [236, 14] ∧ m.random.position = 2 := by
  have hnew : Drew 3 (.new ⟨none, some 3⟩ (.ofSeed 0)) [] := .new none (.ofSeed 0)
  obtain ⟨m, d, hm, hd⟩ := hnew.load_step [0xC0, 0xFF] (by decide) (by decide) rfl fun _ => false
  obtain ⟨n, e, hn, he⟩ := (hm.serve .reset rfl).load_step [0xC5, 0x0F] (by decide)
    (by decide) rfl fun _ => true
  obtain ⟨-, hposition, hstored⟩ := draws_follow_stream hn
  have hwords : ((Random.Key.ofSeed 3).words 1)[0]?.map UInt32.toUInt8 = some 236 ∧
      ((Random.Key.ofSeed 3).words 1)[1]?.map UInt32.toUInt8 = some 62 := by decide +kernel
  obtain ⟨w, hw, hdstored⟩ := hstored 0 d rfl 1 (by decide)
  obtain ⟨v, hv, hestored⟩ := hstored 1 e rfl 1 (by decide)
  rw [hw, hv] at hwords
  have hwbyte : w.toUInt8 = 236 := Option.some.inj hwords.1
  have hvbyte : v.toUInt8 = 62 := Option.some.inj hwords.2
  rw [hd, hwbyte] at hdstored
  rw [he, hvbyte] at hestored
  refine ⟨n, _, hn, ?_, ?_, hposition⟩
  · simp only [List.nil_append, List.map_append, List.map_cons, List.map_nil, hd, he]
    rfl
  · simp only [List.nil_append, List.map_append, List.map_cons, List.map_nil, hdstored, hestored]
    rfl

end Machine

end ChipEight

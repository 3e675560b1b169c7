import ChipEight.Machine.Request

/-!
# Histories of a machine

What a machine has done, kept beside it: the results of its steps since it last started over and the
records that they write, the random instructions that it has carried out, and what its steps
painted. Random instructions and strokes are read off the words that steps fetch, not off the random
stream or the screen. A batch adds what all the steps add that it makes.
-/
namespace ChipEight.Machine

abbrev History := List (Except Fault Flow)

/-- The results of the steps of a batch, in order. -/
def batchResults (pad : Keypad) : Nat → Machine → History
  | 0, _ => []
  | n + 1, m =>
    let next := m.step pad
    if next.stopped then [next.result] else next.result :: batchResults pad n next.machine

/-- The history after a request. -/
def Request.record (m : Machine) (past : History) : Request → History
  | .load _ | .reset => []
  | .step pad => past ++ [(m.step pad).result]
  | .run count pad => past ++ batchResults pad count m
  | .tick | .advance _ | .takeDrawn => past

/-- The machines that requests lead to from power-on, each with its history. -/
inductive Traced : Machine → History → Prop
  | new (config : Config) (entropy : Random.Key) : Traced (.new config entropy) []
  | serve {m n : Machine} {past : History} (request : Request) (hm : Traced m past)
      (h : m.serve request = .ok n) : Traced n (request.record m past)

/-- Every machine that requests lead to has a history. -/
theorem Reachable.exists_traced {m : Machine} (hm : m.Reachable) : ∃ past, Traced m past := by
  induction hm with
  | new config entropy => exact ⟨[], .new config entropy⟩
  | serve request _ h ih =>
    obtain ⟨past, hpast⟩ := ih
    exact ⟨_, .serve request hpast h⟩

theorem Traced.reachable {m : Machine} {past : History} (h : Traced m past) : m.Reachable := by
  induction h with
  | new config entropy => exact .new config entropy
  | serve request _ h ih => exact .serve request ih h

def Outcome.records (o : Outcome) : List Log.Record := o.events.toList.map Event.record

/-- The machines before the steps of a batch, in order. -/
def batchStarts (pad : Keypad) : Nat → Machine → List Machine
  | 0, _ => []
  | n + 1, m =>
    let next := m.step pad
    if next.stopped then [m] else m :: batchStarts pad n next.machine

/-- The next step fetches a word that stands for an instruction. -/
def decodes (m : Machine) : Bool := (m.processor.opcode?.bind Opcode.decode?).isSome

/-- A random instruction that was carried out, and what it left in its register. -/
structure Draw where
  register : Register
  mask : UInt8
  stored : UInt8
deriving DecidableEq

/-- The draw of a step that fetches a word of family C, if it does. -/
def stepDraws (m : Machine) (pad : Keypad) : List Draw :=
  match m.processor.opcode? with
  | some o =>
    if o.family.val = 0xC then [⟨o.x, o.nn, (m.step pad).machine.processor.v o.x⟩] else []
  | none => []

/-- The draws of the steps of a batch, in order. -/
def batchDraws (pad : Keypad) : Nat → Machine → List Draw
  | 0, _ => []
  | n + 1, m =>
    let next := m.step pad
    m.stepDraws pad ++ if next.stopped then [] else batchDraws pad n next.machine

def Request.draws (m : Machine) : Request → List Draw
  | .step pad => m.stepDraws pad
  | .run count pad => batchDraws pad count m
  | .load _ | .reset | .tick | .advance _ | .takeDrawn => []

/-- The machines that requests lead to from power-on with a seed, each with all its draws. -/
inductive Drew (seed : UInt64) : Machine → List Draw → Prop
  | new (frequency : Option Frequency) (entropy : Random.Key) :
      Drew seed (.new ⟨frequency, some seed⟩ entropy) []
  | serve {m n : Machine} {past : List Draw} (request : Request) (hm : Drew seed m past)
      (h : m.serve request = .ok n) : Drew seed n (past ++ request.draws m)

/-- What a step does to the screen. -/
inductive Stroke
  | clear
  | draw (sprite : Sprite)
deriving DecidableEq

/-- The stroke of a step that is carried out, if it has one. -/
def stepStrokes (m : Machine) (pad : Keypad) : List Stroke :=
  match m.processor.opcode?, (m.step pad).result with
  | some o, .ok _ =>
    if o.word = 0x00E0 then [.clear]
    else if o.family.val = 0xD then [.draw (m.processor.sprite o.x o.y o.n)]
    else []
  | _, _ => []

/-- The strokes of the steps of a batch, in order. -/
def batchStrokes (pad : Keypad) : Nat → Machine → List Stroke
  | 0, _ => []
  | n + 1, m =>
    let next := m.step pad
    m.stepStrokes pad ++ if next.stopped then [] else batchStrokes pad n next.machine

def Request.strokes (m : Machine) : Request → List Stroke
  | .step pad => m.stepStrokes pad
  | .run count pad => batchStrokes pad count m
  | .load _ | .reset | .tick | .advance _ | .takeDrawn => []

/-- A screen to start from and the sprites drawn on it since. -/
structure Painting where
  base : Screen
  drawn : List Sprite

/-- Clearing starts anew from the blank screen. -/
def Painting.add (c : Painting) : Stroke → Painting
  | .clear => ⟨.blank, []⟩
  | .draw sprite => { c with drawn := c.drawn ++ [sprite] }

/-- The painting of strokes one after another, from a screen on. -/
def Painting.ofStrokes (screen : Screen) (strokes : List Stroke) : Painting :=
  strokes.foldl add ⟨screen, []⟩

end ChipEight.Machine

import ChipEight.Machine.Basic

/-!
# Work in place

A machine as words and arrays that are changed one after another. An index may lie outside its array
and a sum may not fit its word; work that meets such an index or sum crashes. A fault ends the work
where it stands, with all changes made so far.
-/
namespace ChipEight.InPlace

/-- A machine as words and arrays; the stack pointer may be any byte. -/
@[ext]
structure State where
  pc : UInt16
  index : UInt16
  registers : Vector UInt8 16
  stackPointer : UInt8
  stack : Vector UInt16 16
  delay : UInt8
  sound : UInt8
  keys : KeySet
  waiting : Bool
  drawn : Bool
  memory : Vector UInt8 4096
  display : Vector Bool 2048
  clock : Clock
  random : Random.Stream
  config : Machine.Config

inductive Crash
  /-- An index outside its array. -/
  | index
  /-- A sum or product outside its word. -/
  | overflow
deriving DecidableEq

/-- How work ends. -/
inductive Result (α : Type)
  | done (value : α) (state : State)
  | fault (fault : Fault) (state : State)
  | crash (reason : Crash)

structure Work (α : Type) where
  run : State → Result α

/-- Goes on with the value of finished work. -/
def Result.andThen {α β : Type} (r : Result α) (next : α → Work β) : Result β :=
  match r with
  | .done value s => (next value).run s
  | .fault f s => .fault f s
  | .crash reason => .crash reason

/-- Changes the state that a fault leaves behind. -/
def Result.onFault {α : Type} (r : Result α) (repair : State → State) : Result α :=
  match r with
  | .fault f s => .fault f (repair s)
  | r => r

namespace Work

instance : Monad Work where
  pure value := ⟨fun s => .done value s⟩
  bind work next := ⟨fun s => (work.run s).andThen next⟩

variable {α β : Type} {n : Nat}

def raise (fault : Fault) : Work α := ⟨fun s => .fault fault s⟩

def crash (reason : Crash) : Work α := ⟨fun _ => .crash reason⟩

def state : Work State := ⟨fun s => .done s s⟩

def change (f : State → State) : Work Unit := ⟨fun s => .done () (f s)⟩

def item (v : Vector α n) (i : Nat) : Work α :=
  if h : i < n then pure v[i] else crash .index

def put (v : Vector α n) (i : Nat) (a : α) : Work (Vector α n) :=
  if h : i < n then pure (v.set i a) else crash .index

def items (v : Vector α n) (start length : Nat) : Work (List α) :=
  if start + length ≤ n then pure ((v.toList.drop start).take length) else crash .index

def putItems (v : Vector α n) (start : Nat) (l : List α) : Work (Vector α n) :=
  if start + l.length ≤ n then
    pure (Vector.ofFn fun i =>
      if start ≤ i.val then l.getD (i.val - start) (v.get i) else v.get i)
  else crash .index

def sum (a b : UInt16) : Work UInt16 :=
  if a.toNat + b.toNat < UInt16.size then pure (a + b) else crash .overflow

def product (a b : UInt16) : Work UInt16 :=
  if a.toNat * b.toNat < UInt16.size then pure (a * b) else crash .overflow

def sumByte (a b : UInt8) : Work UInt8 :=
  if a.toNat + b.toNat < UInt8.size then pure (a + b) else crash .overflow

def sumIndex (a b : Nat) : Work Nat :=
  if a + b < UInt32.size then pure (a + b) else crash .overflow

end Work

end ChipEight.InPlace

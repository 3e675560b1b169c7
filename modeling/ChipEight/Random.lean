/-!
# The random stream

A key of eight words fixes a stream of random words. It grows from a sixty-four-bit seed by a linear
congruential generator whose states are permuted into words. The stream is that of ChaCha with
twelve rounds: a block of sixteen words holds four constants, the key, a block counter of two words
and two zero words; it is mixed by six double rounds and added to what it was. Taking words moves
the position in the stream and nothing else.
-/
namespace ChipEight.Random

abbrev Key := Vector UInt32 8

namespace Seed

def next (state : UInt64) : UInt64 := state * 6364136223846793005 + 11634580027462260723

/-- The word of a state: its high bits folded together and rotated by the topmost five. -/
def word (state : UInt64) : UInt32 :=
  let folded := (((state >>> 18) ^^^ state) >>> 27).toUInt32
  let turn := (state >>> 59).toUInt32
  (folded >>> turn) ||| (folded <<< ((32 - turn) % 32))

/-- The state after `n + 1` steps from a seed. -/
def state (seed : UInt64) : Nat → UInt64
  | 0 => next seed
  | n + 1 => next (state seed n)

end Seed

def Key.ofSeed (seed : UInt64) : Key := Vector.ofFn fun i => Seed.word (Seed.state seed i)

abbrev Block := Vector UInt32 16

namespace Block

def rotate (w : UInt32) (amount : Nat) : UInt32 :=
  (w <<< UInt32.ofNat amount) ||| (w >>> UInt32.ofNat (32 - amount))

def put {n : Nat} (s : Vector UInt32 n) (i : Fin n) (w : UInt32) : Vector UInt32 n := s.set i w

def add (s : Block) (target source : Fin 16) : Block :=
  put s target (s.get target + s.get source)

/-- Mixes one word of a block into another, which is rotated. -/
def fold (s : Block) (target source : Fin 16) (amount : Nat) : Block :=
  put s target (rotate (s.get target ^^^ s.get source) amount)

def quarterRound (s : Block) (a b c d : Fin 16) : Block :=
  let s := (add s a b).fold d a 16
  let s := (add s c d).fold b c 12
  let s := (add s a b).fold d a 8
  (add s c d).fold b c 7

def doubleRound (s : Block) : Block :=
  let s := s.quarterRound 0 4 8 12
  let s := s.quarterRound 1 5 9 13
  let s := s.quarterRound 2 6 10 14
  let s := s.quarterRound 3 7 11 15
  let s := s.quarterRound 0 5 10 15
  let s := s.quarterRound 1 6 11 12
  let s := s.quarterRound 2 7 8 13
  s.quarterRound 3 4 9 14

/-- The block before mixing. The constants spell `expand 32-byte k`. -/
def start (key : Key) (counter : UInt64) : Block :=
  #v[0x61707865, 0x3320646e, 0x79622d32, 0x6b206574,
    key[0], key[1], key[2], key[3], key[4], key[5], key[6], key[7],
    counter.toUInt32, (counter >>> 32).toUInt32, 0, 0]

def mix (s : Block) : Block := Nat.repeat doubleRound 6 s

/-- The block of a key at a counter. -/
def keystream (key : Key) (counter : UInt64) : Block :=
  let s := start key counter
  Vector.zipWith (· + ·) s.mix s

def word (s : Block) (position : Nat) : UInt32 := s.get (Fin.ofNat 16 position)

end Block

/-- A key and the number of words taken. -/
@[ext]
structure Stream where
  key : Key
  position : Nat
deriving DecidableEq

/-- The word of a key at a position, sixteen words a block. -/
def Key.word (key : Key) (position : Nat) : UInt32 :=
  (Block.keystream key (UInt64.ofNat (position / 16))).word position

/-- The random byte of a key at a position is the low byte of its word. -/
def Key.byte (key : Key) (position : Nat) : UInt8 := (key.word position).toUInt8

namespace Stream

def ofSeed (seed : UInt64) : Stream := ⟨Key.ofSeed seed, 0⟩

def byte (s : Stream) : UInt8 := s.key.byte s.position

def skip (s : Stream) (count : Nat) : Stream := ⟨s.key, s.position + count⟩

end Stream

end ChipEight.Random

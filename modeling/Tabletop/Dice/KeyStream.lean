import Tabletop.Dice.Roller
import Tabletop.Number.Range
/-!
# Key stream dice

A reproducible roller for a seed of 64 bits. The seed is stretched into a key of eight words, the
key drives the ChaCha stream cipher with eight rounds, and each die takes words of the stream until
one is fair for its number of faces.
-/

namespace Tabletop

namespace KeyStream

/-- `w` with its bits moved to the left, those that leave coming in again from the right. -/
def rotateLeft (w : UInt32) (bits : UInt32) : UInt32 := (w <<< bits) ||| (w >>> (32 - bits))

def rotateRight (w : UInt32) (bits : UInt32) : UInt32 := rotateLeft w (32 - bits)

/-- One word of the key for each step of a linear congruential generator. -/
def stretch (state : UInt64) : Nat → List UInt32
  | 0 => []
  | words + 1 =>
    let state := state * 6364136223846793005 + 11634580027462260723
    let mixed := (((state >>> 18) ^^^ state) >>> 27).toUInt32
    rotateRight mixed (state >>> 59).toUInt32 :: stretch state words

/-- The words of the cipher's state. -/
abbrev Block := Vector UInt32 16

/-- Adds, mixes and rotates four words at four different places. -/
def quarterRound (x : Block) (a b c d : Fin 16) : Block :=
  let step (x : Block) (into other mixed : Fin 16) (bits : UInt32) : Block :=
    let x := x.set into (x.get into + x.get other)
    x.set mixed (rotateLeft (x.get mixed ^^^ x.get into) bits)
  let x := step x a b d 16
  let x := step x c d b 12
  let x := step x a b d 8
  step x c d b 7

/-- A round over the columns of the state, and one over its diagonals. -/
def doubleRound (x : Block) : Block :=
  let x := quarterRound x 0 4 8 12
  let x := quarterRound x 1 5 9 13
  let x := quarterRound x 2 6 10 14
  let x := quarterRound x 3 7 11 15
  let x := quarterRound x 0 5 10 15
  let x := quarterRound x 1 6 11 12
  let x := quarterRound x 2 7 8 13
  quarterRound x 3 4 9 14

/-- The state before the rounds: four constant words, the key, and the number of the block. -/
def initial (key : Vector UInt32 8) (counter : UInt64) : Block :=
  let constants : Vector UInt32 4 := #v[0x61707865, 0x3320646e, 0x79622d32, 0x6b206574]
  let rest : Vector UInt32 4 := #v[counter.toUInt32, (counter >>> 32).toUInt32, 0, 0]
  constants ++ key ++ rest

/-- The words of one block of the stream. -/
def block (key : Vector UInt32 8) (counter : UInt64) : List UInt32 :=
  let start := initial key counter
  let mixed := doubleRound (doubleRound (doubleRound (doubleRound start)))
  (start.zipWith (· + ·) mixed).toList

end KeyStream

/-- A place in a key stream: the words of the current block that are not used yet, and the number
of the block after it. -/
structure KeyStream where
  key : Vector UInt32 8
  next : UInt64
  unused : List UInt32

namespace KeyStream

/-- The stream of a seed, at its start. -/
def ofSeed (seed : UInt64) : KeyStream :=
  let words := stretch seed 8
  ⟨Vector.ofFn fun i => words.getD i 0, 0, []⟩

/-- The next word of the stream. -/
def word (s : KeyStream) : UInt32 × KeyStream :=
  match s.unused with
  | w :: rest => (w, { s with unused := rest })
  | [] =>
    match block s.key s.next with
    | w :: rest => (w, { s with next := s.next + 1, unused := rest })
    | [] => (0, s)

/-- How many words in a row may be unfair for a die before the face `1` is taken. The sampling that
this stands for has neither: it takes words until one is fair. More than half of all words are fair
for any die, so that many unfair words do not follow each other. -/
def patience : Nat := 4096

/-- The greatest low half that is fair for a die: all of its faces are then equally likely. -/
def zone (faces : Nat) : Nat := faces * Nat.pow 2 (31 - faces.log2) - 1

/-- Takes words until one is fair for a die; the high half of its product with the number of faces
is then the face, counted from zero. -/
def rollWithin (faces : Nat) : (patience : Nat) → KeyStream → Nat × KeyStream
  | 0, s => (1, s)
  | patience + 1, s =>
    let (w, s) := s.word
    let product := w.toNat * faces
    if product % wordCount ≤ zone faces then (1 + product / wordCount, s)
    else rollWithin faces patience s

def roll (faces : Nat) (s : KeyStream) : Nat × KeyStream := rollWithin faces patience s

end KeyStream

instance : Roller KeyStream := ⟨KeyStream.roll⟩

end Tabletop

/-!
# The ChaCha stream

A stream of 32-bit words that is determined by a key: ChaCha with 12 rounds, a 64-bit block counter
and a nonce of zeros. Words are a function of their position, so a reader of the stream is a key and
a position.

* `ChaCha.word` : the word at a position of the stream of a key.
* `ChaCha.keyOfSeed` : the key that a 64-bit seed stands for.
-/

namespace Recommender

namespace ChaCha

/-- The 16 words that a block is mixed from. -/
abbrev State := Vector UInt32 16

/-- The eight words of a key. -/
abbrev Key := Vector UInt32 8

/-- A word with its bits moved cyclically toward the high end. -/
def rotateLeft (x amount : UInt32) : UInt32 :=
  (x <<< amount) ||| (x >>> (32 - amount))

/-- Adds the word at `b` to the word at `a`, then mixes the sum into the word at `c`. -/
def mix (a b c : Fin 16) (amount : UInt32) (s : State) : State :=
  let sum := s[a] + s[b]
  (s.set a sum).set c (rotateLeft (s[c] ^^^ sum) amount)

/-- A quarter round on four words of the state. -/
def quarterRound (a b c d : Fin 16) (s : State) : State :=
  mix c d b 7 <| mix a b d 8 <| mix c d b 12 <| mix a b d 16 s

/-- Two rounds: the columns of the state as a 4 × 4 square, then its diagonals. -/
def doubleRound (s : State) : State :=
  let columns := quarterRound 3 7 11 15 <| quarterRound 2 6 10 14 <|
    quarterRound 1 5 9 13 <| quarterRound 0 4 8 12 s
  quarterRound 3 4 9 14 <| quarterRound 2 7 8 13 <|
    quarterRound 1 6 11 12 <| quarterRound 0 5 10 15 columns

/-- The state before mixing: four constants, the key, the block counter and the nonce. -/
def start (key : Key) (counter : UInt64) : State :=
  #v[0x61707865, 0x3320646e, 0x79622d32, 0x6b206574,
     key[0], key[1], key[2], key[3], key[4], key[5], key[6], key[7],
     counter.toUInt32, (counter >>> 32).toUInt32, 0, 0]

/-- A block of the stream: the state after 12 rounds, added to the state before them. -/
def block (key : Key) (counter : UInt64) : State :=
  let s := start key counter
  let mixed := Nat.repeat doubleRound 6 s
  mixed.zipWith (· + ·) s

/-- The word at a position of the stream. -/
def word (key : Key) (position : Nat) : UInt32 :=
  have : position % 16 < 16 := Nat.mod_lt _ (by decide)
  (block key (UInt64.ofNat (position / 16)))[position % 16]

/-- The linear congruence that turns a seed into the states that key words are taken from. -/
def seedStep (s : UInt64) : UInt64 :=
  s * 6364136223846793005 + 11634580027462260723

/-- The key word of a state: some of its high bits, moved cyclically by an amount that the highest
five bits say. -/
def seedWord (s : UInt64) : UInt32 :=
  let bits : UInt32 := (((s >>> 18) ^^^ s) >>> 27).toUInt32
  let amount : UInt32 := (s >>> 59).toUInt32
  rotateLeft bits (32 - amount)

/-- The key that a seed stands for. -/
def keyOfSeed (seed : UInt64) : Key :=
  Vector.ofFn fun i => seedWord (Nat.repeat seedStep (i + 1) seed)

end ChaCha

end Recommender

import Recommender.Random.ChaCha

/-!
# Drawing and shuffling

A shuffle needs one thing of a source of chance: an index below a bound. `IndexSource` is that
ability, and `shuffle` uses nothing else. `Generator` is the source that the program runs on: a
stream of 32-bit words, from which indices are drawn without bias by rejection.

* `shuffle` : the elements of an array in an order of chance.
* `Generator.below` : an index below a bound from the words of a generator.
-/

namespace Recommender

/-- A source of indices. -/
class IndexSource (σ : Type) where
  /-- An index from 0 up to a largest one, and the source after the draw. -/
  draw : (largest : Nat) → σ → Fin (largest + 1) × σ

/-- Shuffles the places from 0 to `last`: each place, from the last down to the second, is swapped
with a drawn one that is not after it. -/
def shuffleUpTo {σ β : Type} [IndexSource σ] : (last : Nat) → Array β → σ → Array β × σ
  | 0, xs, source => (xs, source)
  | last + 1, xs, source =>
    let (place, source) := IndexSource.draw (last + 1) source
    shuffleUpTo last (xs.swapIfInBounds (last + 1) place) source

/-- The elements of a list in an order of chance. -/
def shuffle {σ β : Type} [IndexSource σ] (xs : List β) (source : σ) : List β × σ :=
  let (shuffled, source) := shuffleUpTo (xs.length - 1) xs.toArray source
  (shuffled.toList, source)

/-- A stream of 32-bit words. -/
inductive Generator
  /-- The given words, then zeros. -/
  | tape (words : List UInt32)
  /-- The ChaCha stream of a key, from a position on. -/
  | chacha (key : ChaCha.Key) (position : Nat)

namespace Generator

/-- The generator that a seed stands for. -/
def ofSeed (seed : UInt64) : Generator :=
  .chacha (ChaCha.keyOfSeed seed) 0

/-- The next word. -/
def next : Generator → UInt32 × Generator
  | tape [] => (0, tape [])
  | tape (word :: words) => (word, tape words)
  | chacha key position => (ChaCha.word key position, chacha key (position + 1))

/-- How many words a draw may reject. On a tape no more than it holds, for the zeros after it are
accepted; a stream is rejected with a chance below one half per word, so never that often. -/
def patience : Generator → Nat
  | tape words => words.length
  | chacha _ _ => 256

/-- The greatest low half of a product that a draw below `bound` accepts: below a multiple of
`bound` every index is equally frequent. -/
def zone (bound : Nat) : Nat :=
  let leadingZeros := 31 - Nat.log2 bound
  (bound <<< leadingZeros) % UInt32.size - 1

/-- Multiplies words by `bound` until the low half of a product lies in the zone; the high half is
the index. -/
def belowWithin (bound : Nat) : Nat → Generator → Nat × Generator
  | 0, source =>
    let (word, source) := source.next
    (word.toNat * bound / UInt32.size, source)
  | patience + 1, source =>
    let (word, source) := source.next
    let product := word.toNat * bound
    if product % UInt32.size ≤ zone bound then (product / UInt32.size, source)
    else belowWithin bound patience source

/-- An index below a bound of at most 2³². -/
def below (bound : Nat) (source : Generator) : Nat × Generator :=
  belowWithin bound source.patience source

theorem belowWithin_lt {bound : Nat} (h : 0 < bound) (patience : Nat) (source : Generator) :
    (belowWithin bound patience source).1 < bound := by
  have key (word : UInt32) : word.toNat * bound / UInt32.size < bound := by
    rw [Nat.div_lt_iff_lt_mul (by decide), Nat.mul_comm]
    exact Nat.mul_lt_mul_of_pos_left word.toNat_lt h
  induction patience generalizing source with
  | zero => exact key _
  | succ patience ih =>
    simp only [belowWithin]
    split
    · exact key _
    · exact ih _

instance : IndexSource Generator where
  draw largest source :=
    let drawn := source.below (largest + 1)
    (⟨drawn.1, belowWithin_lt (Nat.succ_pos largest) _ _⟩, drawn.2)

end Generator

end Recommender

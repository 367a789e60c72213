/-!
# Arithmetic of scores

Prices, weights, similarities and scores are numbers of one type `α` with the instance `Scalar α`.
The program runs on floating point numbers; the same definitions read over exact numbers say what
the program computes up to rounding.

A scalar is compared in two ways. Conditions such as "the preference is not positive" use `<`, `≤`
and `==`, which are partial on floating point numbers (a NaN is below nothing). Rankings use
`Scalar.totalOrder`, in which any two scalars are comparable.

* `Scalar.distance` and `Scalar.nonneg` : absolute difference, and the part of a scalar above zero.
* `Tally.totals` : amounts are booked on keys one after the other, and added up per key in that
  order.
* `Ranking.top` : anything that has an identifier is ranked by a score, the higher score first, and
  of equal scores the lower identifier. What agrees in both keeps its given order.
-/

namespace Recommender

/-- Numbers that scores can be computed with. -/
class Scalar (α : Type) extends Add α, Sub α, Mul α, Div α, LT α, LE α, BEq α where
  /-- `<` is decided. -/
  decLt : DecidableLT α
  /-- `≤` is decided. -/
  decLe : DecidableLE α
  /-- A count as a scalar. -/
  ofNat : Nat → α
  /-- Whether the scalar is a number, and not infinite. -/
  isFinite : α → Bool
  /-- The order of rankings, in which any two scalars are comparable. -/
  totalOrder : α → α → Ordering

/-- Scalars with a square root. -/
class RootedScalar (α : Type) extends Scalar α where
  /-- The square root that is not negative. -/
  sqrt : α → α

namespace Scalar

variable {α : Type} [Scalar α]

instance : DecidableLT α := Scalar.decLt

instance : DecidableLE α := Scalar.decLe

/-- The difference of two scalars without its sign. -/
def distance (a b : α) : α :=
  if a < b then b - a else a - b

/-- The scalar itself if it is above zero, else zero. -/
def nonneg (a : α) : α :=
  if ofNat 0 < a then a else ofNat 0

/-- The scalars of a list added up from the left, from zero. -/
def sum (xs : List α) : α :=
  xs.foldl (· + ·) (ofNat 0)

end Scalar

/-! ### Tallies -/

namespace Tally

variable {α κ : Type} [Scalar α] [DecidableEq κ]

/-- The sum of the amounts booked on a key, from zero, in the order of booking. -/
def total (bookings : List (κ × α)) (key : κ) : α :=
  Scalar.sum ((bookings.filter (·.1 = key)).map (·.2))

/-- The keys in the order of their first booking, each once, with their sums. -/
def totals (bookings : List (κ × α)) : List (κ × α) :=
  (bookings.map (·.1)).eraseDups.map fun key => (key, total bookings key)

end Tally

/-! ### Rankings -/

namespace Ranking

variable {α β : Type} [Scalar α]

/-- Whether the entry `a` may stand before the entry `b`. -/
def before (id : β → Int64) (a b : β × α) : Bool :=
  ((Scalar.totalOrder b.2 a.2).then (compare (id a.1) (id b.1))).isLE

/-- The first `limit` entries of the ranking. -/
def top (id : β → Int64) (limit : Nat) (entries : List (β × α)) : List (β × α) :=
  (entries.mergeSort (before id)).take limit

end Ranking

end Recommender

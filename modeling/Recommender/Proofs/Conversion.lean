import Recommender.Fallback
import Recommender.Ratings
import Recommender.Proofs.Shuffle
import Recommender.Proofs.Table

/-!
# Data over other numbers

What holds numbers can be read over numbers of another kind, one by one. What the numbers have no
part in stays the same: what a user knows, which products make up a taste, which keys a table has,
what chance picks.

* `Snapshot.map`, `Weights.map`, `Shortlist.map`, `Ratings.map` : the same data over other numbers.
* `Snapshot.unseen_map`, `Snapshot.product?_map` : what is found in a snapshot, read so.
* `Taste.history_map`, `Neighbours.candidates_map`, `Chance.shortlist_map` : what the strategies
  take from it without a calculation, read so.
* `Ratings.common_map` : the ratings of common products, read so.
-/

namespace Recommender

variable {α β : Type}

/-- A product with another kind of price. -/
def Product.map (f : α → β) (p : Product α) : Product β :=
  { p with price := f p.price }

@[simp]
theorem Product.id_map (f : α → β) (p : Product α) : (p.map f).id = p.id := rfl

@[simp]
theorem Product.category_map (f : α → β) (p : Product α) : (p.map f).category = p.category := rfl

/-- Weights over other numbers. -/
def Weights.map (f : α → β) (w : Weights α) : Weights β where
  likeCategory := f w.likeCategory
  purchaseCategory := f w.purchaseCategory
  coOccurrence := f w.coOccurrence
  maxSimilarUsers := w.maxSimilarUsers
  recency := f w.recency
  recencyScaleDays := f w.recencyScaleDays
  popularity := f w.popularity
  price := f w.price
  randomScore := f w.randomScore

/-- A shortlist over other numbers. -/
def Shortlist.map (f : α → β) (l : Shortlist α) : Shortlist β :=
  ⟨l.products.map (Product.map f), l.scores.map f⟩

/-- A recommendation over other numbers. -/
def Recommendation.map (f : α → β) (r : Recommendation α) : Recommendation β :=
  ⟨r.product.map f, f r.score, r.strategy⟩

namespace Shortlist

variable (f : α → β) (l : Shortlist α)

@[simp]
theorem isEmpty_map : (l.map f).isEmpty = l.isEmpty := by
  simp only [isEmpty, map, List.isEmpty_map]

theorem recommendations_map (strategy : Strategy) (limit : Nat) :
    (l.map f).recommendations strategy limit =
      (l.recommendations strategy limit).map (Recommendation.map f) := by
  simp only [recommendations, map, List.zip_map, ← List.map_take, List.map_map]
  rfl

end Shortlist

/-! ### Snapshots -/

namespace Snapshot

/-- A snapshot over other numbers. -/
def map (f : α → β) (s : Snapshot α) : Snapshot β :=
  { s with catalog := s.catalog.map (Product.map f) }

variable (f : α → β) (s : Snapshot α)

@[simp]
theorem allLikes_map : (s.map f).allLikes = s.allLikes := rfl

@[simp]
theorem liked_map : (s.map f).liked = s.liked := rfl

@[simp]
theorem purchased_map : (s.map f).purchased = s.purchased := rfl

@[simp]
theorem interacted_map : (s.map f).interacted = s.interacted := rfl

theorem unseen_map : (s.map f).unseen = s.unseen.map (Product.map f) := by
  rw [unseen, unseen, map, List.filter_map]
  rfl

theorem product?_map (id : ProductId) :
    (s.map f).product? id = (s.product? id).map (Product.map f) := by
  rw [product?, product?, List.findRev?_eq_find?_reverse, List.findRev?_eq_find?_reverse, map,
    ← List.map_reverse, List.find?_map]
  rfl

end Snapshot

theorem Taste.history_map (f : α → β) (s : Snapshot α) (w : Weights α) :
    history (s.map f) (w.map f) = (history s w).map (Prod.map (Product.map f) f) := by
  simp only [history, Snapshot.liked_map, Snapshot.purchased_map, List.filterMap_append,
    List.filterMap_map, List.map_append, List.map_filterMap, Function.comp_def,
    Snapshot.product?_map, Option.map_map, Prod.map]
  rfl

theorem Neighbours.candidates_map (f : α → β) (s : Snapshot α) (votes : List (ProductId × α)) :
    candidates (s.map f) (votes.map (Prod.map id f)) =
      (candidates s votes).map (Prod.map (Product.map f) f) := by
  rw [candidates, candidates, List.filterMap_map, List.map_filterMap]
  simp only [Function.comp_def, Prod.map_fst, Prod.map_snd, id_eq, Snapshot.product?_map,
    Option.map_map]
  rfl

/-- What chance picks is moved by places alone. -/
theorem Chance.shortlist_map {σ : Type} [IndexSource σ] (f : α → β) (s : Snapshot α)
    (w : Weights α) (limit : Nat) (source : σ) :
    shortlist (s.map f) (w.map f) limit source =
      ((shortlist s w limit source).1.map f, (shortlist s w limit source).2) := by
  simp only [shortlist, Snapshot.unseen_map, shuffle_map, ← List.map_take, List.length_map,
    Shortlist.map, List.map_replicate]
  rfl

/-! ### Tables -/

namespace Table

/-- A table with each value replaced. -/
def map (f : α → β) (t : Table α) : Table β where
  entries := t.entries.map fun e => (e.1, f e.2)
  ascending := by
    rw [List.pairwise_map]
    exact t.ascending

theorem get?_map (f : α → β) (t : Table α) (key : Int64) :
    (t.map f).get? key = (t.get? key).map f :=
  lookup_map f t.entries key

end Table

/-! ### Ratings -/

namespace Ratings

/-- Ratings over other numbers. -/
def map (f : α → β) (r : Ratings α) : Ratings β :=
  Table.map (Table.map f) r

theorem common_map (f : α → β) (a b : Table α) :
    common (a.map f) (b.map f) = (common a b).map (Prod.map f f) := by
  have hentries : (a.map f).entries = a.entries.map fun e => (e.1, f e.2) := rfl
  rw [common, common, hentries, List.filterMap_map, List.map_filterMap]
  refine List.filterMap_congr fun e _ => ?_
  show ((b.map f).get? e.1).map (f e.2, ·) = _
  rw [Table.get?_map, Option.map_map, Option.map_map]
  rfl

end Ratings

end Recommender

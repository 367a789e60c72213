import Recommender.Proofs.Relevance
import Recommender.Proofs.Shelving

/-!
# Likes that are listed twice

The likes of the user are listed by themselves and among those of all users. A product that is liked
in both lists, or more than once, is liked once, where it stands first; so the user's own list says
nothing new where it holds just the user's rows of the other one, as a source over lists answers.

* `Snapshot.withUserLikes` : a snapshot with another list of the user's likes.
* `Snapshot.liked_of_copied` : a list that is copied from that of all likes changes nothing.
* `recommend_withUserLikes` : of the user's own list, only the liked products have a part in an
  answer.
* `recommend_likes_once` : no answer depends on how often a like is listed.
-/

namespace Recommender

namespace Snapshot

variable {α : Type} {s : Snapshot α} {userLikes before after : List Like} {like : Like}

/-- The snapshot with another list of the user's likes. -/
def withUserLikes (s : Snapshot α) (userLikes : List Like) : Snapshot α :=
  { s with userLikes }

/-- The user's likes are copied from the list of all likes. -/
def Copied (s : Snapshot α) : Prop :=
  s.userLikes = s.allLikes.filter (·.user = s.user)

instance : Decidable s.Copied := inferInstanceAs (Decidable (s.userLikes = _))

/-! ### The liked products -/

theorem liked_of_copied (h : s.Copied) : (s.withUserLikes []).liked = s.liked := by
  have hrows : s.userLikes.filter (·.user = s.user) = s.allLikes.filter (·.user = s.user) := by
    rw [h, List.filter_filter]
    simp only [Bool.and_self]
  have honce : s.liked = ((s.allLikes.filter (·.user = s.user)).map (·.product)).eraseDups := by
    rw [liked, List.filter_append, List.map_append, hrows,
      eraseDups_append_of_subset (List.Subset.refl _)]
  rw [honce]
  rfl

/-- A like of what is liked further up in the user's own list adds nothing. -/
theorem liked_of_repeated (hlikes : s.userLikes = before ++ after) (huser : like.user = s.user)
    (hbefore : ∃ l ∈ before, l.user = s.user ∧ l.product = like.product) :
    (s.withUserLikes (before ++ like :: after)).liked = s.liked := by
  have hmem : like.product ∈ (before.filter (·.user = s.user)).map (·.product) := by
    obtain ⟨l, hl, hown, hproduct⟩ := hbefore
    exact List.mem_map.2 ⟨l, List.mem_filter.2 ⟨hl, decide_eq_true hown⟩, hproduct⟩
  simp only [liked, withUserLikes, hlikes, List.append_assoc, List.cons_append, List.filter_append,
    List.filter_cons, huser, decide_true, if_true, List.map_append, List.map_cons]
  exact eraseDups_append_cons_of_mem hmem

/-! ### What is known -/

section

variable (h : (s.withUserLikes userLikes).liked = s.liked)

include h

theorem interacted_withUserLikes : (s.withUserLikes userLikes).interacted = s.interacted := by
  rw [interacted, interacted, h]
  rfl

theorem unseen_withUserLikes : (s.withUserLikes userLikes).unseen = s.unseen := by
  simp only [unseen, interacted_withUserLikes h]
  rfl

theorem history_withUserLikes (w : Weights α) :
    Taste.history (s.withUserLikes userLikes) w = Taste.history s w := by
  rw [Taste.history, Taste.history, h]
  rfl

variable [Scalar α]

theorem candidates_withUserLikes (w : Weights α) (strategy : Strategy) :
    strategy.candidates (s.withUserLikes userLikes) w = strategy.candidates s w := by
  have hunseen := unseen_withUserLikes h
  cases strategy with
  | collaborative =>
    simp only [Strategy.candidates, Neighbours.similarities, Neighbours.votes,
      interacted_withUserLikes h]
    rfl
  | contentBased =>
    refine Strategy.candidates_contentBased_congr hunseen rfl (fun _ _ => rfl) ?_ ?_ fun _ => ?_
    all_goals rw [history_withUserLikes h]
  | popularity => exact Strategy.candidates_popularity_congr hunseen fun _ _ => rfl
  | random => exact Strategy.candidates_random_congr hunseen

end

end Snapshot

open Snapshot

variable {α σ : Type} [Scalar α] [IndexSource σ]

/-- Of the user's own list, only the liked products have a part in an answer. -/
theorem recommend_withUserLikes {s : Snapshot α} {userLikes : List Like}
    (h : (s.withUserLikes userLikes).liked = s.liked) (w : Weights α) (requested : Int64)
    (source : σ) :
    recommend (s.withUserLikes userLikes) w requested source = recommend s w requested source := by
  refine recommend_congr fun strategy => ?_
  exact Strategy.ranking_congr (unseen_withUserLikes h) (candidates_withUserLikes h w strategy)

/-- **A like counts once, however often it is listed.** The liked products are those of the user's
rows in either list, each once, in the order in which the user's own list and then the list of all
likes name them first. So the own list may be left out if it is a copy of the user's rows in the
list of all likes, as a service over lists fetches it, and a like may be repeated in it: the liked
products stay the same in the same order, and every answer does, bit for bit. -/
theorem recommend_likes_once (w : Weights α) (requested : Int64) (source : σ) :
    (∀ s : Snapshot α, s.Copied →
      (s.withUserLikes []).liked = s.liked ∧
      recommend (s.withUserLikes []) w requested source = recommend s w requested source) ∧
    (∀ (products : List (Product α)) likes orders pageSize seed user now s,
      (Service.memory products likes orders w pageSize seed).fetch user now = .answered s →
      s.Copied) ∧
    (∀ s : Snapshot α,
      let rows := ((s.userLikes ++ s.allLikes).filter (·.user = s.user)).map (·.product)
      s.liked.Nodup ∧ (∀ id, id ∈ s.liked ↔ id ∈ rows) ∧
      s.liked.Pairwise fun a b => rows.idxOf a < rows.idxOf b) ∧
    ∀ (s : Snapshot α) (before after : List Like) (like : Like),
      s.userLikes = before ++ after → like.user = s.user →
      (∃ l ∈ before, l.user = s.user ∧ l.product = like.product) →
      (s.withUserLikes (before ++ like :: after)).liked = s.liked ∧
      recommend (s.withUserLikes (before ++ like :: after)) w requested source =
        recommend s w requested source := by
  refine ⟨fun s h => ?_, fun products likes orders pageSize seed user now s h => ?_, fun s => ?_,
    fun s before after like hlikes huser hbefore => ?_⟩
  · have hliked := liked_of_copied h
    exact ⟨hliked, recommend_withUserLikes hliked w requested source⟩
  · by_cases hsize : pageSize = 0
    · subst hsize
      rw [Service.fetch_memory_zero] at h
      nomatch h
    · rw [Service.fetch_memory hsize, Outcome.answered.injEq] at h
      rw [← h, Copied]
  · exact ⟨nodup_eraseDups _, fun _ => List.mem_eraseDups, pairwise_idxOf_eraseDups _⟩
  · have hliked := liked_of_repeated hlikes huser hbefore
    exact ⟨hliked, recommend_withUserLikes hliked w requested source⟩

/-- The regular customer of the shop may do without the own list of likes, or like the first book
once more. -/
theorem recommend_likes_once_regular :
    let again : Like := ⟨1, 1, { Shop.noon with day := 19876 }⟩
    Shop.regular.Copied ∧
    recommend (Shop.regular.withUserLikes []) .standard 3 (Generator.tape []) =
      recommend Shop.regular .standard 3 (Generator.tape []) ∧
    Shop.regular.userLikes = [⟨1, 1, Shop.noon⟩] ++ [] ∧
    (Shop.regular.withUserLikes [⟨1, 1, Shop.noon⟩, again]).liked = [1] ∧
    recommend (Shop.regular.withUserLikes [⟨1, 1, Shop.noon⟩, again]) .standard 3
        (Generator.tape []) =
      recommend Shop.regular .standard 3 (Generator.tape []) := by
  intro again
  obtain ⟨hcopied, -, -, hrepeated⟩ :=
    recommend_likes_once (α := Binary64) .standard 3 (Generator.tape [])
  have hcopy : Shop.regular.Copied := by decide
  have hsplit : Shop.regular.userLikes = [⟨1, 1, Shop.noon⟩] ++ [] := rfl
  obtain ⟨hliked, hanswer⟩ := hrepeated Shop.regular _ _ again hsplit rfl (by decide)
  exact ⟨hcopy, (hcopied _ hcopy).2, hsplit, hliked.trans (by decide), hanswer⟩

end Recommender

import Recommender.Proofs.Answer

/-!
# Asking until nothing is left

A user asks again and again and likes all that is recommended, while others like what they want. The
limit, the weights and the source of indices may differ from one call to the next, and so may the
strategy that answers.

* `Run` : the answers so far, and the snapshot that they have led to.
* `Run.conserves` : what was returned and what is unseen make up what was unseen at the start.
* `Run.exhausts` : no product is returned twice, every call returns something while a product is
  unseen, and after at most as many calls as there were unseen products just these have been
  returned.
-/

namespace Recommender

variable {α σ : Type} [Scalar α] [IndexSource σ]

/-! ### More likes -/

namespace Snapshot

/-- The snapshot after some more likes. -/
def withLikes (s : Snapshot α) (likes : List Like) : Snapshot α :=
  { s with allLikes := s.allLikes ++ likes }

variable {s : Snapshot α} {likes : List Like}

omit [Scalar α] in
theorem knows_withLikes {id : ProductId} :
    (s.withLikes likes).Knows id ↔ s.Knows id ∨ ∃ l ∈ likes, l.user = s.user ∧ l.product = id := by
  simp only [Knows, withLikes, List.mem_append, or_and_right, exists_or]
  exact (or_congr_left or_assoc.symm).trans or_right_comm

omit [Scalar α] in
/-- What others like changes nothing about what the user has seen. -/
theorem unseen_withLikes_of_others (others : ∀ l ∈ likes, l.user ≠ s.user) :
    (s.withLikes likes).unseen = s.unseen := by
  rw [unseen_eq, unseen_eq]
  apply List.filter_congr
  intro p _
  have hnone : ¬ ∃ l ∈ likes, l.user = s.user ∧ l.product = p.id := by
    rintro ⟨l, hl, hu, -⟩
    exact others l hl hu
  simp [knows_withLikes, hnone]

omit [Scalar α] in
/-- Likes never make a product unseen. -/
theorem unseen_withLikes_of_nil (h : s.unseen = []) : (s.withLikes likes).unseen = [] := by
  rw [unseen_eq_nil_iff] at h ⊢
  intro p hp
  exact knows_withLikes.2 (.inl (h p hp))

end Snapshot

/-! ### Runs -/

/-- The likes of a user on all that an answer recommends. -/
def likesOn (user : UserId) (time : Recommendation α → Instant) (answer : List (Recommendation α)) :
    List Like :=
  answer.map fun r => ⟨user, r.product.id, time r⟩

/-- The runs from a snapshot, with the answers so far and the snapshot reached. -/
inductive Run (s : Snapshot α) : List (List (Recommendation α)) → Snapshot α → Prop
  /-- Nothing has happened yet. -/
  | start : Run s [] s
  /-- Other users like something. -/
  | others {answers : List (List (Recommendation α))} {t : Snapshot α} (likes : List Like) :
    Run s answers t → (∀ l ∈ likes, l.user ≠ s.user) → Run s answers (t.withLikes likes)
  /-- The user asks and likes all that is recommended. -/
  | ask {answers : List (List (Recommendation α))} {t : Snapshot α} {σ : Type} [IndexSource σ]
    (w : Weights α) (requested : Int64) (source : σ) (time : Recommendation α → Instant) :
    Run s answers t →
    Run s (answers ++ [(recommend t w requested source).1])
      (t.withLikes (likesOn t.user time (recommend t w requested source).1))

variable {s t : Snapshot α} {answers : List (List (Recommendation α))}

/-- After the user has liked an answer, what it recommended is no longer unseen, and nothing else
has changed. -/
theorem unseen_after_ask (distinct : (s.catalog.map (·.id)).Nodup) (w : Weights α)
    (requested : Int64) (source : σ) (time : Recommendation α → Instant) :
    ((recommend s w requested source).1.map (·.product) ++
      (s.withLikes (likesOn s.user time (recommend s w requested source).1)).unseen).Perm
        s.unseen := by
  set answer := (recommend s w requested source).1 with hanswer
  let returned (p : Product α) : Bool := p.id ∈ answer.map (·.product.id)
  have hrest : (s.withLikes (likesOn s.user time answer)).unseen =
      s.unseen.filter fun p => !returned p := by
    rw [Snapshot.unseen_eq, Snapshot.unseen_eq, List.filter_filter]
    apply List.filter_congr
    intro p _
    have hliked : (∃ l ∈ likesOn s.user time answer, l.user = s.user ∧ l.product = p.id) ↔
        p.id ∈ answer.map (·.product.id) := by
      simp [likesOn]
    rw [Bool.eq_iff_iff, decide_eq_true_eq, Snapshot.knows_withLikes, hliked]
    simp [returned, and_comm]
  -- an answer and the part of `unseen` with its identifiers have the same elements, each once
  have hsame : (answer.map (·.product)).Perm (s.unseen.filter returned) := by
    have hids : ((answer.map (·.product)).map (·.id)).Nodup := by
      rw [List.map_map]
      exact nodup_recommend distinct
    have hunseen : s.unseen.Nodup := (distinct.of_map _).sublist s.unseen_sublist
    rw [List.perm_ext_iff_of_nodup (hids.of_map _) (hunseen.filter _)]
    intro p
    rw [List.mem_filter]
    constructor
    · intro hp
      refine ⟨products_recommend_subset hp, ?_⟩
      simpa [returned, List.map_map] using List.mem_map_of_mem (f := (·.id)) hp
    · rintro ⟨hp, hret⟩
      obtain ⟨r, hr, hid⟩ := List.mem_map.1 (by simpa [returned] using hret)
      have hr' : r.product ∈ answer.map (·.product) := List.mem_map_of_mem hr
      -- identifiers are not repeated, so the product returned is the entry itself
      have hsame := List.inj_on_of_nodup_map distinct
        (Snapshot.mem_unseen.1 (products_recommend_subset hr')).1 (Snapshot.mem_unseen.1 hp).1 hid
      rwa [← hsame]
  rw [hrest]
  exact (hsame.append_right _).trans (List.filter_append_perm returned s.unseen)

namespace Run

theorem user_eq (run : Run s answers t) : t.user = s.user := by
  induction run with
  | start => rfl
  | others _ _ _ ih => exact ih
  | ask _ _ _ _ _ ih => exact ih

theorem catalog_eq (run : Run s answers t) : t.catalog = s.catalog := by
  induction run with
  | start => rfl
  | others _ _ _ ih => exact ih
  | ask _ _ _ _ _ ih => exact ih

/-- **Conservation**: every product that was unseen at the start has been returned or is unseen. -/
theorem conserves (distinct : (s.catalog.map (·.id)).Nodup) (run : Run s answers t) :
    (answers.flatten.map (·.product) ++ t.unseen).Perm s.unseen := by
  induction run with
  | start => simp
  | others likes run hothers ih =>
    rwa [Snapshot.unseen_withLikes_of_others fun l hl => run.user_eq ▸ hothers l hl]
  | ask w requested source time run ih =>
    have step := unseen_after_ask (run.catalog_eq ▸ distinct) w requested source time
    rw [List.flatten_append, List.map_append, List.append_assoc, List.flatten_singleton]
    exact (step.append_left _).trans ih

omit [Scalar α] in
/-- Each answer that is not empty uses up an unseen product at least. -/
theorem countP_ne_nil_le (answers : List (List (Recommendation α))) :
    answers.countP (· ≠ []) ≤ answers.flatten.length := by
  induction answers with
  | nil => simp
  | cons answer answers ih =>
    rw [List.countP_cons, List.flatten_cons, List.length_append]
    cases answer with
    | nil => simpa using ih
    | cons r rest =>
      rw [if_pos (by simp), List.length_cons]
      omega

/-- Once an answer was empty, nothing is unseen any more. -/
theorem unseen_eq_nil_of_mem (run : Run s answers t) (h : [] ∈ answers) : t.unseen = [] := by
  induction run with
  | start => simp at h
  | others likes run hothers ih => exact Snapshot.unseen_withLikes_of_nil (ih h)
  | ask w requested source time run ih =>
    rcases List.mem_append.1 h with h | h
    · exact Snapshot.unseen_withLikes_of_nil (ih h)
    · have := recommend_eq_nil_iff.1 (List.mem_singleton.1 h).symm
      exact Snapshot.unseen_withLikes_of_nil (Snapshot.unseen_eq_nil_iff.2 this)

/-- After as many calls as there were unseen products, nothing is unseen any more. -/
theorem unseen_eq_nil_of_length (distinct : (s.catalog.map (·.id)).Nodup) (run : Run s answers t)
    (h : s.unseen.length ≤ answers.length) : t.unseen = [] := by
  by_cases hmem : [] ∈ answers
  · exact run.unseen_eq_nil_of_mem hmem
  · -- every call returned something, so everything has been returned
    have hall : answers.countP (· ≠ []) = answers.length := by
      rw [List.countP_eq_length]
      intro answer hanswer
      simpa using ne_of_mem_of_not_mem hanswer hmem
    have hle := countP_ne_nil_le answers
    have hlen := (run.conserves distinct).length_eq
    rw [List.length_append, List.length_map] at hlen
    exact List.length_eq_zero_iff.1 (by omega)

/-- **Asking until nothing is left.** In a run from a catalog without repeated identifiers no
product is returned twice; whatever is asked next, something is answered just if some product is not
known yet; no more answers than there were unseen products are not empty; and after as many calls,
or after one empty answer, every further answer is empty, and just the products that were unseen
have been returned, each once. -/
theorem exhausts (distinct : (s.catalog.map (·.id)).Nodup) (run : Run s answers t) :
    (answers.flatten.map (·.product.id)).Nodup ∧
    (∀ {σ : Type} [IndexSource σ] (w : Weights α) (requested : Int64) (source : σ),
      (recommend t w requested source).1 ≠ [] ↔ ∃ p ∈ s.catalog, ¬ t.Knows p.id) ∧
    answers.countP (· ≠ []) ≤ (s.catalog.filter fun p => ¬ s.Knows p.id).length ∧
    ((s.catalog.filter fun p => ¬ s.Knows p.id).length ≤ answers.length ∨ [] ∈ answers →
      (∀ {σ : Type} [IndexSource σ] (w : Weights α) (requested : Int64) (source : σ),
        (recommend t w requested source).1 = []) ∧
      (answers.flatten.map (·.product)).Perm (s.catalog.filter fun p => ¬ s.Knows p.id)) := by
  have hconserves := run.conserves distinct
  rw [← Snapshot.unseen_eq]
  refine ⟨?_, ?_, ?_, ?_⟩
  · have hids : (s.unseen.map (·.id)).Nodup := distinct.sublist (s.unseen_sublist.map _)
    have hall := (hconserves.map (·.id)).nodup_iff.2 hids
    rw [List.map_append, List.map_map] at hall
    exact hall.of_append_left
  · intro σ _ w requested source
    simp [recommend_eq_nil_iff, run.catalog_eq]
  · have hlen := hconserves.length_eq
    have hle := countP_ne_nil_le answers
    rw [List.length_append, List.length_map] at hlen
    omega
  · intro hdone
    have hnil : t.unseen = [] := hdone.elim (run.unseen_eq_nil_of_length distinct)
      run.unseen_eq_nil_of_mem
    constructor
    · intro σ _ w requested source
      exact recommend_eq_nil_iff.2 (Snapshot.unseen_eq_nil_iff.1 hnil)
    · simpa [hnil] using hconserves

/-- The first user of the shop asks for one product at a time, and a third user likes the lamp in
between. After four calls nothing is left. -/
theorem exhausts_shop :
    ∃ (answers : List (List (Recommendation Binary64))) (t : Snapshot Binary64),
      Run Shop.snapshot answers t ∧ answers.length = 4 ∧
      (answers.flatten.map (·.product.id)).Nodup ∧
      answers.countP (· ≠ []) ≤ 4 ∧
      (recommend t .standard 1 (Generator.tape [])).1 = [] ∧
      (answers.flatten.map (·.product)).Perm
        [Shop.product 2 "book", Shop.product 3 "book", Shop.product 4 "lamp",
          Shop.product 5 "tool"] := by
  let ask {answers t} (run : Run Shop.snapshot answers t) :=
    run.ask .standard 1 (Generator.tape []) fun _ => Shop.noon
  have run := ask <| ask <| (ask <| ask .start).others [⟨3, 4, Shop.noon⟩] (by decide)
  have distinct : (Shop.snapshot.catalog.map (·.id)).Nodup := by decide
  obtain ⟨hnodup, -, hcount, hdone⟩ := exhausts distinct run
  obtain ⟨hempty, hperm⟩ := hdone (.inl (by decide))
  exact ⟨_, _, run, rfl, hnodup, hcount, hempty _ _ _, hperm⟩

end Run

end Recommender

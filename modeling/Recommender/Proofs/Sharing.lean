import Recommender.Proofs.Choice

/-!
# Sharing a source of indices

Calls of the recommender that are made one after another may share one source of indices. Only the
answers of chance depend on it and move it on, and they move it by the draws of one shuffle.

* `session` : the answers to calls that share a source of indices.
* `Noted` : a source of indices that notes what is drawn.
* `Call.answer_of_not_random`, `Call.answer_noted` : what a call does to the source.
* `session_dropAt` : calls that chance does not answer can be left out.
* `session_frame` : what this means for calls and sessions.
-/

namespace Recommender

variable {α σ β : Type}

/-! ### Noted draws -/

/-- A source of indices that notes the largest index of every draw, the first draw first. -/
structure Noted (σ : Type) where
  /-- The source that is drawn from. -/
  source : σ
  /-- The largest index of every draw so far. -/
  draws : List Nat

section

variable [IndexSource σ]

instance : IndexSource (Noted σ) where
  draw largest noted :=
    let drawn := IndexSource.draw largest noted.source
    (drawn.1, ⟨drawn.2, noted.draws ++ [largest]⟩)

/-- A shuffle draws once for each place but the first, from the last one down. -/
theorem shuffleUpTo_noted (last : Nat) (xs : Array β) (source : σ) (draws : List Nat) :
    shuffleUpTo last xs (⟨source, draws⟩ : Noted σ) =
      ((shuffleUpTo last xs source).1,
        ⟨(shuffleUpTo last xs source).2, draws ++ (List.range' 1 last).reverse⟩) := by
  induction last generalizing xs source draws with
  | zero => simp [shuffleUpTo]
  | succ last ih => simp [shuffleUpTo, IndexSource.draw, ih, reverse_range'_succ]

theorem shuffle_noted (xs : List β) (source : σ) (draws : List Nat) :
    shuffle xs (⟨source, draws⟩ : Noted σ) =
      ((shuffle xs source).1,
        ⟨(shuffle xs source).2, draws ++ (List.range' 1 (xs.length - 1)).reverse⟩) := by
  simp only [shuffle, shuffleUpTo_noted]

end

/-! ### Calls -/

/-- A call of the recommender, up to the source of indices. -/
structure Call (α : Type) where
  /-- What the answer depends on. -/
  snapshot : Snapshot α
  /-- The coefficients of all strategies. -/
  weights : Weights α
  /-- The limit that is asked for. -/
  requested : Int64

variable [Scalar α] [IndexSource σ]

namespace Call

/-- The answer to a call, and the source of indices after it. -/
def answer (call : Call α) (source : σ) : List (Recommendation α) × σ :=
  recommend call.snapshot call.weights call.requested source

variable {call : Call α} {source : σ}

/-- A call that chance does not answer neither depends on the source nor moves it on. -/
theorem answer_of_not_random (h : ¬ AnsweredBy (call.answer source).1 .random) (source' : σ) :
    call.answer source' = ((call.answer source).1, source') := by
  rw [answer, answeredBy_iff] at h
  rw [answer, answer]
  cases hs : answering? call.snapshot call.weights with
  | none => rw [recommend_of_none hs, recommend_of_none hs]
  | some strategy =>
    rw [recommend_of_answering hs, recommend_of_answering hs]
    cases strategy with
    | random => exact absurd hs h
    | _ => rfl

/-- An answer of chance leaves the source as a shuffle of the unseen products does. -/
theorem answer_of_random (h : AnsweredBy (call.answer source).1 .random) :
    (call.answer source).2 = (shuffle call.snapshot.unseen source).2 := by
  rw [answer, recommend_of_answering (answeredBy_iff.1 h)]
  rfl

/-- An answer of chance draws just as often as a shuffle of the unseen products, whatever the
limit. -/
theorem answer_noted (h : AnsweredBy (call.answer source).1 .random) (draws : List Nat) :
    call.answer (⟨source, draws⟩ : Noted σ) =
      ((call.answer source).1,
        ⟨(shuffle call.snapshot.unseen source).2,
          draws ++ (List.range' 1 (call.snapshot.unseen.length - 1)).reverse⟩) := by
  have hs := answeredBy_iff.1 h
  simp only [answer, recommend_of_answering hs, Strategy.answer, Strategy.ranking, shuffle_noted]

end Call

/-! ### Sessions -/

/-- The answers to calls that are made one after another on one source of indices, and the source
after the last of them. -/
def session : List (Call α) → σ → List (List (Recommendation α)) × σ
  | [], source => ([], source)
  | call :: calls, source =>
    let (answer, source) := call.answer source
    let (answers, source) := session calls source
    (answer :: answers, source)

theorem session_cons (call : Call α) (calls : List (Call α)) (source : σ) :
    session (call :: calls) source =
      ((call.answer source).1 :: (session calls (call.answer source).2).1,
        (session calls (call.answer source).2).2) := rfl

/-- A list without the elements at some positions. -/
def dropAt (dropped : Nat → Bool) (xs : List β) : List β :=
  (xs.zipIdx.filter fun e => !dropped e.2).map (·.1)

theorem dropAt_cons (dropped : Nat → Bool) (x : β) (xs : List β) :
    dropAt dropped (x :: xs) =
      if dropped 0 then dropAt (dropped <| · + 1) xs else x :: dropAt (dropped <| · + 1) xs := by
  have hrest : ((xs.zipIdx 1).filter fun e => !dropped e.2).map (·.1) =
      dropAt (dropped <| · + 1) xs := by
    rw [← Nat.zero_add 1, List.zipIdx_succ, List.filter_map, List.map_map, dropAt]
    rfl
  rw [dropAt, List.zipIdx_cons, List.filter_cons, Nat.zero_add]
  cases dropped 0 <;> simp [hrest]

/-- Calls that chance does not answer can be left out of a session: all other answers and the source
after the session stay the same. -/
theorem session_dropAt {calls : List (Call α)} {source : σ} {dropped : Nat → Bool}
    (h : ∀ i answer, dropped i = true → (session calls source).1[i]? = some answer →
      ¬ AnsweredBy answer .random) :
    session (dropAt dropped calls) source =
      (dropAt dropped (session calls source).1, (session calls source).2) := by
  induction calls generalizing source dropped with
  | nil => rfl
  | cons call calls ih =>
    have hrest : session (dropAt (dropped <| · + 1) calls) (call.answer source).2 = _ :=
      ih fun i answer hdropped hanswer => h (i + 1) answer hdropped hanswer
    rw [session_cons, dropAt_cons, dropAt_cons]
    split_ifs with hdropped
    · -- the call that is left out has not moved the source on
      have hmoved : (call.answer source).2 = source :=
        congrArg Prod.snd (Call.answer_of_not_random (h 0 _ hdropped rfl) source)
      rwa [hmoved] at hrest ⊢
    · rw [session_cons, hrest]

/-- **Only chance moves a shared source of indices, by the draws of one shuffle.** A call that
chance does not answer gives one answer on every source and leaves it as it was, so that any such
calls can be left out of a session without a trace in the other answers or in the source after it.
An answer of chance draws once for each unseen product but one, first an index up to the number of
all others and at last one of the first two, whatever the limit and the weights. -/
theorem session_frame :
    (∀ (call : Call α) (source source' : σ), ¬ AnsweredBy (call.answer source).1 .random →
      call.answer source' = ((call.answer source).1, source')) ∧
    (∀ (calls : List (Call α)) (source : σ) (dropped : Nat → Bool),
      (∀ i answer, dropped i = true → (session calls source).1[i]? = some answer →
        ¬ AnsweredBy answer .random) →
      session (dropAt dropped calls) source =
        (dropAt dropped (session calls source).1, (session calls source).2)) ∧
    ∀ (call : Call α) (source : σ) (draws : List Nat), AnsweredBy (call.answer source).1 .random →
      let unseen := call.snapshot.catalog.filter fun p => ¬ call.snapshot.Knows p.id
      (call.answer source).2 = (shuffle unseen source).2 ∧
      call.answer (⟨source, draws⟩ : Noted σ) =
        ((call.answer source).1,
          ⟨(shuffle unseen source).2, draws ++ (List.range' 1 (unseen.length - 1)).reverse⟩) := by
  refine ⟨fun _ _ source' h => Call.answer_of_not_random h source', fun _ _ _ => session_dropAt, ?_⟩
  intro call source draws h
  rw [← Snapshot.unseen_eq]
  exact ⟨Call.answer_of_random h, Call.answer_noted h draws⟩

/-- The first user comes to the shop. -/
def Shop.visit : Call Binary64 :=
  ⟨Shop.snapshot, .standard, 1⟩

/-- The first user comes before anybody has liked anything. -/
def Shop.earlyVisit : Call Binary64 :=
  ⟨{ Shop.snapshot with allLikes := [] }, .standard, 2⟩

/-- In the shop only the early visit draws, four times for five products. The visits before and
after it can be left out. -/
theorem session_frame_shop :
    let source := Generator.tape [0x80000000, 5, 0xffffffff]
    let visits := [Shop.visit, Shop.earlyVisit, Shop.visit]
    ¬ AnsweredBy (Shop.visit.answer source).1 .random ∧
    Shop.visit.answer (Generator.tape []) = ((Shop.visit.answer source).1, Generator.tape []) ∧
    session [Shop.earlyVisit] source =
      (dropAt (· ≠ 1) (session visits source).1, (session visits source).2) ∧
    AnsweredBy (Shop.earlyVisit.answer source).1 .random ∧
    (Shop.earlyVisit.answer (⟨source, []⟩ : Noted Generator)).2.draws = [4, 3, 2, 1] := by
  intro source visits
  obtain ⟨hframe, hsession, hdraws⟩ := session_frame (α := Binary64) (σ := Generator)
  have hvisit (source : Generator) : ¬ AnsweredBy (Shop.visit.answer source).1 .random := by
    have hanswering : answering? Shop.snapshot .standard = some .collaborative := by decide +kernel
    rw [Call.answer, answeredBy_iff, Shop.visit, hanswering]
    decide
  have hearly : AnsweredBy (Shop.earlyVisit.answer source).1 .random :=
    answeredBy_iff.2 (by decide +kernel)
  have hothers : ∀ i answer, decide (i ≠ 1) = true →
      (session visits source).1[i]? = some answer → ¬ AnsweredBy answer .random := by
    intro i answer hi hanswer
    match i with
    | 0 | 2 => exact Option.some.inj hanswer ▸ hvisit _
    | 1 => exact absurd rfl (of_decide_eq_true hi)
    | i + 3 => simp [visits, session] at hanswer
  refine ⟨hvisit source, hframe _ _ _ (hvisit source), ?_, hearly, ?_⟩
  · exact hsession visits source (· ≠ 1) hothers
  · have hnoted := (hdraws Shop.earlyVisit source [] hearly).2
    rw [hnoted]
    decide

end Recommender

import Recommender.Service
import Mathlib.Data.Option.Basic

/-!
# All or nothing

The four fetches of a request are started together. A request is answered if all of them are, it
fails by the first failure in the order in which they are started, and otherwise nothing is heard.

* `Outcome.failure?` : the failure of a fetch.
* `Outcome.failure?_both`, `Outcome.both_eq_silent_iff`, `Outcome.both_eq_answered_iff` : what
  becomes of two fetches.
* `Service.fetches` : what becomes of the fetches of a request, in their order.
* `Service.recommendations_eq_failed_iff` and the like : what becomes of the request.
-/

namespace Recommender

namespace Outcome

variable {β γ : Type} {first : Outcome β} {second : Outcome γ}

/-- The failure of a fetch, if it fails. -/
def failure? : Outcome β → Option Failure
  | failed failure => some failure
  | answered _ | silent => none

/-- What becomes of a fetch, whatever the data. -/
def ending (outcome : Outcome β) : Outcome Unit :=
  outcome.map fun _ => ()

theorem eq_failed_iff {outcome : Outcome β} {failure : Failure} :
    outcome = failed failure ↔ outcome.failure? = some failure := by
  cases outcome <;> simp [failure?]

@[simp]
theorem failure?_map (f : β → γ) (outcome : Outcome β) :
    (outcome.map f).failure? = outcome.failure? := by
  cases outcome <;> rfl

theorem map_eq_silent_iff {f : β → γ} {outcome : Outcome β} :
    outcome.map f = silent ↔ outcome = silent := by
  cases outcome <;> simp [map]

theorem map_eq_answered_iff {f : β → γ} {outcome : Outcome β} {data : γ} :
    outcome.map f = answered data ↔ ∃ a, outcome = answered a ∧ f a = data := by
  cases outcome <;> simp [map]

/-- Two fetches fail by the first failure. -/
theorem failure?_both : (first.both second).failure? = first.failure?.or second.failure? := by
  cases first <;> cases second <;> rfl

/-- Nothing is heard of two fetches if neither fails and one is silent. -/
theorem both_eq_silent_iff : first.both second = silent ↔
    (first.failure? = none ∧ second.failure? = none) ∧
      (first.ending = silent ∨ second.ending = silent) := by
  cases first <;> cases second <;> simp [both, failure?, ending, map]

theorem both_eq_answered_iff {data : β × γ} : first.both second = answered data ↔
    first = answered data.1 ∧ second = answered data.2 := by
  cases first <;> cases second <;> simp [both, Prod.ext_iff]

end Outcome

namespace Service

variable {α : Type} {service : Service α} {user : UserId} {now : Instant}

/-- What becomes of the four fetches of a request, in the order in which they are started. -/
def fetches (service : Service α) (user : UserId) : List (Outcome Unit) :=
  [(service.source.likesByUser user).ending, (service.source.ordersByUser user).ending,
    service.source.allLikes.ending, (service.source.catalogPage 1 service.pageSize).ending]

theorem failure?_fetch :
    (service.fetch user now).failure? = (service.fetches user).findSome? Outcome.failure? := by
  have hcons (o : Outcome Unit) (others : List (Outcome Unit)) :
      (o :: others).findSome? Outcome.failure? =
        o.failure?.or (others.findSome? Outcome.failure?) := by
    rw [List.findSome?_cons]
    cases o.failure? <;> rfl
  simp only [fetch, fetches, hcons, List.findSome?_nil, Option.or_none, Outcome.ending,
    Outcome.failure?_map, Outcome.failure?_both]

theorem fetch_eq_silent_iff : service.fetch user now = .silent ↔
    (∀ o ∈ service.fetches user, o.failure? = none) ∧ .silent ∈ service.fetches user := by
  rw [fetch, Outcome.map_eq_silent_iff]
  simp only [fetches, Outcome.both_eq_silent_iff, Outcome.failure?_both, Outcome.ending,
    Outcome.map_eq_silent_iff, Option.or_eq_none_iff, List.mem_cons, forall_eq_or_imp,
    forall_eq, Outcome.failure?_map, List.not_mem_nil, or_false, eq_comm (a := Outcome.silent)]
  refine and_congr_right ?_
  rintro ⟨-, horders, hall, hpage⟩
  simp only [horders, hall, hpage, true_and]

/-- All four fetches are answered, with the data of a snapshot. -/
structure Fetched (service : Service α) (user : UserId) (now : Instant) (s : Snapshot α) :
    Prop where
  /-- The snapshot is of the user who asks. -/
  user_eq : s.user = user
  /-- The snapshot is of the time of the answer. -/
  now_eq : s.now = now
  /-- The likes of the user arrive. -/
  userLikes : service.source.likesByUser user = .answered s.userLikes
  /-- The orders of the user arrive. -/
  userOrders : service.source.ordersByUser user = .answered s.userOrders
  /-- The likes of all users arrive. -/
  allLikes : service.source.allLikes = .answered s.allLikes
  /-- The first page of the catalog arrives. -/
  catalog : ∃ total, service.source.catalogPage 1 service.pageSize = .answered (s.catalog, total)

theorem fetch_eq_answered_iff {s : Snapshot α} :
    service.fetch user now = .answered s ↔ service.Fetched user now s := by
  rw [fetch, Outcome.map_eq_answered_iff]
  simp only [Outcome.both_eq_answered_iff]
  constructor
  · rintro ⟨⟨userLikes, userOrders, allLikes, catalog, total⟩, ⟨hlikes, horders, hall, hpage⟩, rfl⟩
    exact ⟨rfl, rfl, hlikes, horders, hall, total, hpage⟩
  · rintro ⟨rfl, rfl, hlikes, horders, hall, total, hpage⟩
    exact ⟨(_, _, _, _, total), ⟨hlikes, horders, hall, hpage⟩, rfl⟩

/-! ### The answer to a request -/

variable [Scalar α] {requested : Int64} {entropy : Generator}

theorem recommendations_eq_failed_iff {failure : Failure} :
    service.recommendations user requested now entropy = .failed failure ↔
      (service.fetches user).findSome? Outcome.failure? = some failure := by
  rw [recommendations, Outcome.eq_failed_iff, Outcome.failure?_map, failure?_fetch]

theorem recommendations_eq_silent_iff :
    service.recommendations user requested now entropy = .silent ↔
      (∀ o ∈ service.fetches user, o.failure? = none) ∧ .silent ∈ service.fetches user := by
  rw [recommendations, Outcome.map_eq_silent_iff, fetch_eq_silent_iff]

theorem recommendations_eq_answered_iff {list : List (Recommendation α)} :
    service.recommendations user requested now entropy = .answered list ↔
      ∃ s, service.Fetched user now s ∧
        (recommend s service.weights requested (service.generator entropy)).1 = list := by
  simp only [recommendations, Outcome.map_eq_answered_iff, fetch_eq_answered_iff]

end Service

end Recommender

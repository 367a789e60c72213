/-!
# Outcomes of fetches

Scoring never fails; what fails is the retrieval of data, or a request that makes no sense. A fetch
is answered, fails, or is never answered.

* `Failure.message` : the text of a failure.
* `Outcome.both` : two fetches that are started together.
* `Outcome.andThen` : a fetch that is started with the data of another one.
-/

namespace Recommender

/-! ### Failures -/

/-- Why a database gave no answer. -/
inductive DatabaseCause
  /-- No connection became free in time. -/
  | poolTimedOut
  /-- The pool of connections is closed. -/
  | poolClosed
  /-- A row that must exist does not. -/
  | rowNotFound
  /-- A background worker is gone. -/
  | workerCrashed
  /-- Anything else that a database tells. -/
  | other (text : String)
deriving DecidableEq

/-- The text of a cause. -/
def DatabaseCause.message : DatabaseCause → String
  | poolTimedOut => "pool timed out while waiting for an open connection"
  | poolClosed => "attempted to acquire a connection on a closed pool"
  | rowNotFound =>
    "no rows returned by a query that expected to return at least one row"
  | workerCrashed => "attempted to communicate with a crashed background worker"
  | other text => text

/-- Why a request has no answer. -/
inductive Failure
  /-- The request makes no sense; the text says why. -/
  | invalidInput (text : String)
  /-- The database gave no answer. -/
  | database (cause : DatabaseCause)
deriving DecidableEq

/-- The text of a failure. -/
def Failure.message : Failure → String
  | invalidInput text => "Invalid input: " ++ text
  | database cause => "Database error: " ++ cause.message

/-! ### Outcomes -/

/-- What becomes of a fetch. -/
inductive Outcome (β : Type)
  /-- The data arrive. -/
  | answered (data : β)
  /-- The fetch fails. -/
  | failed (failure : Failure)
  /-- Nothing is ever heard. -/
  | silent
deriving DecidableEq

namespace Outcome

variable {β γ : Type}

/-- The outcome with its data changed. -/
def map (f : β → γ) : Outcome β → Outcome γ
  | answered data => answered (f data)
  | failed failure => failed failure
  | silent => silent

/-- The outcome of a fetch that is started when the data of an earlier one have arrived. -/
def andThen (first : Outcome β) (second : β → Outcome γ) : Outcome γ :=
  match first with
  | answered data => second data
  | failed failure => failed failure
  | silent => silent

/-- The outcome of two fetches started together, `first` before `second`. A failure of either is the
failure of both, and that of the first wins; silence of one does not hold back a failure of the
other. -/
def both (first : Outcome β) (second : Outcome γ) : Outcome (β × γ) :=
  match first, second with
  | failed failure, _ => failed failure
  | _, failed failure => failed failure
  | answered a, answered b => answered (a, b)
  | silent, _ => silent
  | _, silent => silent

end Outcome

end Recommender

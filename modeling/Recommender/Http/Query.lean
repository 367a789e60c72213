import Recommender.Text

/-!
# Queries

A query is a list of parameters. The only one that counts is the limit, which is read leniently: it
never makes a request fail unless it is repeated. In a URI a byte may be written as a percent sign
and two hexadecimal digits.

* `Percent.decode` : the bytes that are meant; `Percent.mem_decode` : most stand for themselves.
* `Query.parameters` : the names and values of a query, decoded.
* `Query.limit?` : the limit of a query.
-/

namespace Recommender.Http

open Text

/-! ### Percent encoding -/

namespace Percent

/-- The byte that a percent sign and two digits mean. -/
def escaped? (mark high low : UInt8) : Option UInt8 := do
  if mark ≠ ascii '%' then none
  else return UInt8.ofNat (16 * (← hexValue? high) + (← hexValue? low))

/-- The bytes that are meant. A percent sign that two digits do not follow stands for itself. -/
def decode : Bytes → Bytes
  | mark :: high :: low :: rest =>
    match escaped? mark high low with
    | some b => b :: decode rest
    | none => mark :: decode (high :: low :: rest)
  | bytes => bytes

/-- A byte that has no part in an escape stays. -/
theorem mem_decode {b : UInt8} {bytes : Bytes} (hmark : b ≠ ascii '%') (hdigit : hexValue? b = none)
    (h : b ∈ bytes) : b ∈ decode bytes := by
  fun_induction decode bytes with
  | case1 mark high low rest c hc ih =>
    simp only [escaped?, ite_not, Option.ite_none_right_eq_some, bind,
      Option.bind_eq_some_iff] at hc
    obtain ⟨rfl, _, hhigh, _, hlow, -⟩ := hc
    have hne {d : UInt8} {n : Nat} (hd : hexValue? d = some n) : b ≠ d := by
      rintro rfl
      simp [hdigit] at hd
    simp only [List.mem_cons, hmark, hne hhigh, hne hlow, false_or] at h
    exact List.mem_cons_of_mem _ (ih h)
  | case2 mark high low rest hc ih =>
    rcases List.mem_cons.1 h with rfl | h
    · exact List.mem_cons_self
    · exact List.mem_cons_of_mem _ (ih h)
  | case3 bytes hshort => exact h

end Percent

/-! ### Parameters -/

namespace Query

/-- The bytes that a name or a value means. A plus sign is a space. -/
def decode (bytes : Bytes) : Bytes :=
  Percent.decode <| bytes.map fun b => if b = ascii '+' then ascii ' ' else b

/-- The name and the value of a parameter, which the first equals sign parts; without one the value
is empty. -/
def parameter (part : Bytes) : Bytes × Bytes :=
  let name := part.takeWhile (· ≠ ascii '=')
  (decode name, decode (part.drop (name.length + 1)))

/-- The names and values of a query. -/
def parameters (query : Bytes) : List (Bytes × Bytes) :=
  ((parts (ascii '&') query).filter (· ≠ [])).map parameter

/-- The values of all parameters of a name. -/
def valuesOf (name : String) (query : Bytes) : List Bytes :=
  ((parameters query).filter (·.1 = bytesOf name)).map (·.2)

/-- The integer that a value gives, zero if it gives none. Blanks around it do not count. -/
def lenientInt (value : Bytes) : Int64 :=
  ((textOf? value).bind fun text => int64? (trim text.toList)).getD 0

/-- The limit of a query, zero without one; there is none if it is repeated. -/
def limit? (query : Bytes) : Option Int64 :=
  match valuesOf "limit" query with
  | [] => some 0
  | [value] => some (lenientInt value)
  | _ => none

end Query

end Recommender.Http

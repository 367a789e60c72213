import Recommender.Settings.Value

/-!
# Loading settings from an environment

An environment is a list of variables, names with values. A record of settings has a `Field` for
each name that it knows; variables are visited in order, and the first problem ends the loading.

* `Field.load` : the record with the values of an environment.
* `lowercase` : the form in which names are compared.
-/

namespace Recommender

/-- The variables of an environment, names with values. -/
abbrev Environment := List (String × String)

/-- The character in lower case. Names of fields are ASCII, and the Kelvin sign is the only
character outside ASCII whose lower case is a letter of ASCII, so nothing else can lead to a field.
-/
def lowerChar (c : Char) : Char :=
  if c = '\u212a' then 'k' else c.toLower

/-- The form in which names are compared. -/
def lowercase (name : String) : String :=
  String.ofList (name.toList.map lowerChar)

/-- Why settings cannot be loaded. -/
inductive LoadFault
  /-- Two variables name one field. -/
  | duplicate (field : String)
  /-- The value of a variable is not what its field asks for. -/
  | unreadable (why : ValueFault) (value name : String)
deriving DecidableEq

/-- The text of a fault. -/
def LoadFault.message : LoadFault → String
  | duplicate field => "duplicate field `" ++ field ++ "`"
  | unreadable why value name =>
    why.message ++ " while parsing value '" ++ value ++ "' provided by " ++ name

/-- A field of a record of settings. -/
structure Field (ρ : Type) where
  /-- The name, in lower case. -/
  name : String
  /-- Sets the field to the value that a text gives. -/
  assign : String → ρ → Except ValueFault ρ

namespace Field

variable {ρ : Type}

/-- Loads variables into a record in which the fields `taken` are already set. A field that is set
twice is refused before its value is looked at. -/
def loadInto (fields : List (Field ρ)) (taken : List String) (record : ρ) :
    Environment → Except LoadFault ρ
  | [] => .ok record
  | (name, value) :: others =>
    match fields.find? fun f => f.name = lowercase name with
    | none => loadInto fields taken record others
    | some field =>
      if field.name ∈ taken then .error (.duplicate field.name)
      else
        match field.assign value record with
        | .error why => .error (.unreadable why value name)
        | .ok record => loadInto fields (field.name :: taken) record others

/-- The record with the values of an environment; variables that name no field are ignored. -/
def load (fields : List (Field ρ)) (record : ρ) (environment : Environment) : Except LoadFault ρ :=
  loadInto fields [] record environment

end Field

end Recommender

import ServiceLoom.Json.Basic

/-!
# Members of JSON objects

Reading a structure out of an object: members that are not asked for are ignored, and a member that
is written twice, or whose value does not fit, makes the reading fail.
-/

namespace ServiceLoom

namespace Json

def valuesAt (key : String) (members : List (String × Json)) : List Json :=
  (members.filter (·.1 == key)).map Prod.snd

/-- A member that has to be there, once. -/
def required? {α : Type} (read : Json → Option α) (key : String) (members : List (String × Json)) :
    Option α :=
  match valuesAt key members with
  | [v] => read v
  | _ => none

def optional? {α : Type} (read : Json → Option α) (default : α) (key : String)
    (members : List (String × Json)) : Option α :=
  match valuesAt key members with
  | [] => some default
  | [v] => read v
  | _ => none

def string? : Json → Option String
  | string s => some s
  | _ => none

def bool? : Json → Option Bool
  | bool b => some b
  | _ => none

def list? {α : Type} (read : Json → Option α) : Json → Option (List α)
  | array items => items.mapM read
  | _ => none

def members? : Json → Option (List (String × Json))
  | object members => some members
  | _ => none

end Json

end ServiceLoom

import ServiceLoom.Double.Text
import ServiceLoom.Json.Basic

/-!
# Outlines

An indented listing of a JSON value for people. Strings stand as they are, an item is marked by a
dash, and a member whose value is null is left out.
-/

namespace ServiceLoom.Json

def inline? : Json → Option String
  | null => some "null"
  | bool b => some (if b then "true" else "false")
  | int n => some (toString n)
  | double x => some x.text
  | string s => some s
  | array [] => some "[]"
  | object [] => some "\x7b\x7d"
  | array _ | object _ => none

def padding (level : Nat) : String := String.ofList (List.replicate (2 * level) ' ')

mutual

def outlineLines (level : Nat) : Json → List String
  | object members => outlineMembers level members
  | array items => outlineItems level items
  | null => [padding level ++ "null"]
  | bool b => [padding level ++ if b then "true" else "false"]
  | int n => [padding level ++ toString n]
  | double x => [padding level ++ x.text]
  | string s => [padding level ++ s]

def outlineItems (level : Nat) : List Json → List String
  | [] => []
  | item :: items =>
    (match inline? item with
      | some text => [padding level ++ "- " ++ text]
      | none => (padding level ++ "-") :: item.outlineLines (level + 1)) ++
    outlineItems level items

def outlineMembers (level : Nat) : List (String × Json) → List String
  | [] => []
  | (key, value) :: members =>
    (if value.isNull then []
      else match inline? value with
        | some text => [padding level ++ key ++ ": " ++ text]
        | none => (padding level ++ key ++ ":") :: value.outlineLines (level + 1)) ++
    outlineMembers level members

end

/-- Members are listed in order of keys. -/
def outline (v : Json) : String := String.intercalate "\n" (v.sortKeys.outlineLines 0)

end ServiceLoom.Json

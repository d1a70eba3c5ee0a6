import ServiceLoom.Double.Basic

/-!
# JSON values

An object keeps its members in the order they were written, so a key may be written twice. A whole
number and a double are never the same value.
-/

namespace ServiceLoom

inductive Json where
  | null
  | bool (b : Bool)
  | int (n : Int)
  | double (x : Double)
  | string (s : String)
  | array (items : List Json)
  | object (members : List (String × Json))
  deriving Repr, BEq, Inhabited

namespace Json

def isNull : Json → Bool
  | null => true
  | _ => false

def ofStrings (texts : List String) : Json := array (texts.map string)

def ofOption (f : α → Json) : Option α → Json
  | none => null
  | some a => f a

def insertMember (m : String × Json) : List (String × Json) → List (String × Json)
  | [] => [m]
  | n :: rest => if n.1 < m.1 then n :: insertMember m rest else m :: n :: rest

/-- Members in order of keys; those with one key keep their order. -/
def sortMembers (members : List (String × Json)) : List (String × Json) :=
  members.foldr insertMember []

mutual

def sortKeys : Json → Json
  | array items => array (sortItems items)
  | object members => object (sortMembers (sortValues members))
  | null => null
  | bool b => bool b
  | int n => int n
  | double x => double x
  | string s => string s

def sortItems : List Json → List Json
  | [] => []
  | item :: items => item.sortKeys :: sortItems items

def sortValues : List (String × Json) → List (String × Json)
  | [] => []
  | (key, value) :: members => (key, value.sortKeys) :: sortValues members

end

mutual

/-- The value with distinct keys in every object: of the members with one key the last one stays. -/
def distinct : Json → Json
  | array items => array (distinctItems items)
  | object members => object (distinctMembers members)
  | null => null
  | bool b => bool b
  | int n => int n
  | double x => double x
  | string s => string s

def distinctItems : List Json → List Json
  | [] => []
  | item :: items => item.distinct :: distinctItems items

def distinctMembers : List (String × Json) → List (String × Json)
  | [] => []
  | (key, value) :: members =>
    let rest := distinctMembers members
    if (rest.lookup key).isSome then rest else (key, value.distinct) :: rest

end

end Json

end ServiceLoom

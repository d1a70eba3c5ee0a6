import ServiceLoom.Double.Text
import ServiceLoom.Json.Number

/-!
# Values in templates

How templates print values, which of them count as true, and how they compare. Numbers compare by
their value, also with the number that a text is.
-/

namespace ServiceLoom.Template

mutual

def display : Json → String
  | .null => ""
  | .bool b => if b then "true" else "false"
  | .int n => toString n
  | .double x => x.text
  | .string s => s
  | .array items => "[" ++ String.intercalate ", " (displayItems items) ++ "]"
  | .object _ => "[object]"

def displayItems : List Json → List String
  | [] => []
  | item :: items => display item :: displayItems items

end

def size? : Json → Option Int
  | .int n => some (n * Double.one)
  | .double x => some x.signed
  | _ => none

/-- Whether a value counts as true. A number does unless it is zero or too small to have all its
digits, or if zero is asked for. -/
def isTruthy (zero : Bool) : Json → Bool
  | .null => false
  | .bool b => b
  | .int n => zero || n != 0
  | .double x => zero || decide (Double.leastNormal ≤ x.units)
  | .string s => s != ""
  | .array items => !items.isEmpty
  | .object members => !members.isEmpty

def sizeOfText? (s : String) : Option Int := (Json.numberOfText? s).bind size?

def order? (a b : Json) : Option Ordering :=
  match a, b with
  | .string a, .string b => some (compare a b)
  | .bool a, .bool b => some (compare a b)
  | .string a, b => do return compare (← sizeOfText? a) (← size? b)
  | a, .string b => do return compare (← size? a) (← sizeOfText? b)
  | a, b => do return compare (← size? a) (← size? b)

mutual

/-- Whether two values are the same. Zero is the same as zero with a minus. -/
def same : Json → Json → Bool
  | .double a, .double b => a.signed == b.signed
  | .array as, .array bs => sameItems as bs
  | .object as, .object bs => sameMembers as bs
  | .null, .null => true
  | .bool a, .bool b => a == b
  | .int a, .int b => a == b
  | .string a, .string b => a == b
  | _, _ => false

def sameItems : List Json → List Json → Bool
  | [], [] => true
  | a :: as, b :: bs => same a b && sameItems as bs
  | _, _ => false

def sameMembers : List (String × Json) → List (String × Json) → Bool
  | [], [] => true
  | (k, a) :: as, (l, b) :: bs => k == l && same a b && sameMembers as bs
  | _, _ => false

end

end ServiceLoom.Template

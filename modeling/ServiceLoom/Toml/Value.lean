/-!
# TOML values

Of floats only the range is kept, and nothing of dates. Keys of a table are distinct.
-/

namespace ServiceLoom

inductive Toml where
  | string (s : String)
  | integer (n : Int)
  /-- A float, and whether it is in the range of double precision. -/
  | float (inRange : Bool)
  | boolean (b : Bool)
  | date
  | array (items : List Toml)
  | table (members : List (String × Toml))
  deriving Repr, Inhabited

namespace Toml

mutual

/-- Whether all numbers in the value can be held: integers of 128 bits, with or without a sign, and
floats of double precision. -/
def isHeld : Toml → Bool
  | integer n => -2 ^ 127 ≤ n && n < 2 ^ 128
  | float inRange => inRange
  | array items => areHeld items
  | table members => membersHeld members
  | string _ | boolean _ | date => true

def areHeld : List Toml → Bool
  | [] => true
  | item :: items => item.isHeld && areHeld items

def membersHeld : List (String × Toml) → Bool
  | [] => true
  | (_, value) :: members => value.isHeld && membersHeld members

end

end Toml

end ServiceLoom

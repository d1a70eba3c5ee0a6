/-!
# ASCII text

Names are compared up to the case of ASCII letters only, so folding never changes the length of a
text and leaves every other character alone.
-/

namespace ServiceLoom.Text

def isAsciiUpper (c : Char) : Bool := 'A' ≤ c && c ≤ 'Z'

def isAsciiLower (c : Char) : Bool := 'a' ≤ c && c ≤ 'z'

def isAsciiLetter (c : Char) : Bool := isAsciiUpper c || isAsciiLower c

def isAsciiDigit (c : Char) : Bool := '0' ≤ c && c ≤ '9'

def isAsciiWord (c : Char) : Bool := isAsciiLetter c || isAsciiDigit c

def lowerAscii (s : String) : String := String.ofList (s.toList.map Char.toLower)

def upperAscii (s : String) : String := String.ofList (s.toList.map Char.toUpper)

def sameUpToCase (a b : Char) : Bool := a.toLower == b.toLower

/-- Whether `s` starts with a spelling of `name`. -/
def startsWithFold : List Char → List Char → Bool
  | [], _ => true
  | _ :: _, [] => false
  | n :: name, c :: s => sameUpToCase n c && startsWithFold name s

def dropLead? : List Char → List Char → Option (List Char)
  | [], s => some s
  | _ :: _, [] => none
  | l :: lead, c :: s => if l = c then dropLead? lead s else none

end ServiceLoom.Text

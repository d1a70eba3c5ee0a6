import ServiceLoom.Text.Ascii
import ServiceLoom.Text.Case

/-!
# Naming helpers

How templates respell names: the case of the first letter, and snake case. Snake case puts an
underscore before an upper-case letter that starts a word, and in place of hyphens and spaces.
-/

namespace ServiceLoom.Naming

def mapFirst (f : Char → List Char) : List Char → List Char
  | [] => []
  | c :: cs => f c ++ cs

def lowerFirst (s : String) : String := String.ofList (mapFirst Text.toLowerLetters s.toList)

def upperFirst (s : String) : String := String.ofList (mapFirst Text.toUpperLetters s.toList)

/-- Whether an upper-case letter starts a word, given its neighbours. It does after a lower-case
letter or a digit, and after an upper-case letter if a lower-case letter follows. -/
def startsWord (previous next : Option Char) : Bool :=
  match previous with
  | none => false
  | some p =>
    Text.isLowerLetter p || Text.isAsciiDigit p ||
      (next.any Text.isLowerLetter && Text.isUpperLetter p)

def snakeFrom (previous : Option Char) : List Char → List Char
  | [] => []
  | c :: cs =>
    (if Text.isUpperLetter c then
      (if startsWord previous cs.head? then ['_'] else []) ++ Text.toLowerLetters c
    else if c = '-' ∨ c = ' ' then ['_']
    else [c]) ++ snakeFrom (some c) cs

def snakeCase (s : String) : String := String.ofList (snakeFrom none s.toList)

end ServiceLoom.Naming

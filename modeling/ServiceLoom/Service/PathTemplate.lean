import ServiceLoom.Text.Ascii

/-!
# Path placeholders

In a path, `{name}` and `{name:pattern}` stand for an argument. A name is an identifier, and
the pattern ends at the first closing brace. Placeholders are found from left to right and do not
overlap; a brace that opens none is plain text.
-/

namespace ServiceLoom.PathTemplate

def isNameStart (c : Char) : Bool := Text.isAsciiLetter c || c == '_'

def isNameChar (c : Char) : Bool := Text.isAsciiWord c || c == '_'

/-- The name of the placeholder that a text after an opening brace starts with, and how many
characters that placeholder takes after the brace. -/
def placeholder? (s : List Char) : Option (List Char × Nat) :=
  let name := s.takeWhile isNameChar
  match name with
  | [] => none
  | first :: _ =>
    if isNameStart first then
      match s.dropWhile isNameChar with
      | '\x7d' :: _ => some (name, name.length + 1)
      | ':' :: rest =>
        let pattern := rest.takeWhile (· != '\x7d')
        match rest.dropWhile (· != '\x7d') with
        | _ :: _ => some (name, name.length + pattern.length + 2)
        | [] => none
      | _ => none
    else none

/-- `skip` counts the characters of a placeholder that are still to be passed over. -/
def namesFrom : Nat → List Char → List (List Char)
  | _, [] => []
  | skip + 1, _ :: cs => namesFrom skip cs
  | 0, c :: cs =>
    if c = '\x7b' then
      match placeholder? cs with
      | some (name, length) => name :: namesFrom length cs
      | none => namesFrom 0 cs
    else namesFrom 0 cs

def placeholders (path : String) : List String := (namesFrom 0 path.toList).map String.ofList

end ServiceLoom.PathTemplate

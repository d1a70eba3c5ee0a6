/-!
# Lines of TOML

What may stand between the parts of a document: spaces, comments and line ends. A line end is a
line feed or a carriage return before one, so a carriage return by itself is nothing.
-/

namespace ServiceLoom.Toml.Reader

def isSpace (c : Char) : Bool := c == ' ' || c == '\t'

def skipSpaces (s : List Char) : List Char := s.dropWhile isSpace

def isControl (c : Char) : Bool := (c.toNat < 0x20 && c != '\t') || c.toNat == 0x7F

def lineEnd? : List Char → Option (List Char)
  | '\n' :: rest => some rest
  | '\r' :: '\n' :: rest => some rest
  | _ => none

/-- The text after a comment, from its line end on. -/
def comment? (s : List Char) : Option (List Char) :=
  match s with
  | '#' :: rest =>
    match rest.dropWhile (!isControl ·) with
    | [] => some []
    | rest => (lineEnd? rest).map fun _ => rest
  | _ => some s

/-- The text after spaces, an optional comment and the end of the line or of the text. -/
def lineRest? (s : List Char) : Option (List Char) :=
  match comment? (skipSpaces s) with
  | some [] => some []
  | some rest => lineEnd? rest
  | none => none

def skipLines? (steps : Nat) (s : List Char) : Option (List Char) :=
  match steps with
  | 0 => none
  | steps + 1 => do
    let rest ← comment? (skipSpaces s)
    match lineEnd? rest with
    | some rest => skipLines? steps rest
    | none => return rest

def skipBlankLines : List Char → List Char
  | '\r' :: '\n' :: rest => skipBlankLines rest
  | c :: rest => if isSpace c || c == '\n' then skipBlankLines rest else c :: rest
  | [] => []

end ServiceLoom.Toml.Reader

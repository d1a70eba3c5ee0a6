import ServiceLoom.Template.Syntax
import ServiceLoom.Text.Ascii

/-!
# Names and paths in tags

A path is a chain of names, or of any text in square brackets, with dots or slashes between. In
front it may go up some levels, start at the root, or start among the loop variables. The name of a
template has dots and slashes like a path, but is one name.

The readers return what they read and the rest of the text.
-/

namespace ServiceLoom.Template

def isGap (c : Char) : Bool := c == ' ' || c == '\t' || c == '\n' || c == '\r'

def isLineEnd (c : Char) : Bool := c == '\n' || c == '\r'

def skipGaps (s : List Char) : List Char := s.dropWhile isGap

def isNameChar (c : Char) : Bool :=
  Text.isAsciiWord c || c == '_' || c == '-' || c == '$' || c == ':' || 0x80 ≤ c.toNat

def name? (s : List Char) : Option (String × List Char) :=
  match s.span isNameChar with
  | ([], _) => none
  | (name, rest) => some (String.ofList name, rest)

def isSeparator (c : Char) : Bool := c == '.' || c == '/'

def templateNameEnd? : Nat → List Char → Option (List Char)
  | _, [] => none
  | skip + 1, _ :: rest => templateNameEnd? skip rest
  | 0, c :: rest =>
    if c = '\'' then some rest
    else templateNameEnd? (if c = '\\' ∧ rest.head? = some '\'' then 1 else 0) rest

def isTemplateNameChar (c : Char) : Bool :=
  Text.isAsciiWord c || c == '_' || c == '-' || c == '@' || isSeparator c || 0x80 ≤ c.toNat

/-- The name of a template: a word, or any text between single quotes, which belong to the name. -/
def templateName? (s : List Char) : Option (String × List Char) :=
  match s.span isTemplateNameChar with
  | ([], '\'' :: c :: rest) =>
    if c = '\'' then none
    else (templateNameEnd? 0 (c :: rest)).map fun rest =>
      (String.ofList (s.take (s.length - rest.length)), rest)
  | ([], _) => none
  | (name, rest) => some (String.ofList name, rest)

def key? (s : List Char) : Option (String × List Char) :=
  match s with
  | '[' :: rest =>
    match rest.span (· != ']') with
    | (key, _ :: rest) => some (String.ofList key, rest)
    | (_, []) => none
  | _ => name? s

def keys (steps : Nat) (s : List Char) : List String × List Char :=
  match steps with
  | 0 => ([], s)
  | steps + 1 =>
    match s with
    | c :: rest =>
      if isSeparator c then
        match key? rest with
        | some (key, rest) =>
          let (more, rest) := keys steps rest
          (key :: more, rest)
        | none => ([], s)
      else ([], s)
    | [] => ([], s)

def ups : List Char → Nat × List Char
  | '.' :: '.' :: c :: rest =>
    if isSeparator c then
      let (n, rest) := ups rest
      (n + 1, rest)
    else (0, '.' :: '.' :: c :: rest)
  | s => (0, s)

def dropHere (s : List Char) : List Char :=
  match s with
  | '.' :: '/' :: rest => rest
  | 't' :: 'h' :: 'i' :: 's' :: c :: rest => if isSeparator c then rest else s
  | _ => s

def dropRoot? (s : List Char) : Option (List Char) :=
  match s with
  | '@' :: 'r' :: 'o' :: 'o' :: 't' :: c :: rest => if isSeparator c then some rest else none
  | _ => none

def dropAt (s : List Char) : List Char :=
  match s with
  | '@' :: rest => rest
  | _ => s

/-- Where a path starts. From the root nothing leads up, and nothing is a loop variable. -/
def start (s : List Char) : Start × List Char :=
  match dropRoot? s with
  | some rest => (.root, (ups (dropAt rest)).2)
  | none =>
    match s with
    | '@' :: rest =>
      let (n, rest) := ups rest
      (.loop n, rest)
    | _ =>
      let (n, rest) := ups s
      (.here n, rest)

/-- A step called `this` stays where it is, and a loop variable without a name is the current
value. -/
def Path.ofSteps (start : Start) (steps : List String) : Path :=
  let keys := steps.filter (· != "this")
  match start, keys with
  | .loop _, [] => ⟨.here 0, []⟩
  | _, _ => ⟨start, keys⟩

def path? (s : List Char) : Option (Path × List Char) := do
  let (start, rest) := start (dropHere s)
  let (first, rest) ← key? rest
  let (more, rest) := keys rest.length rest
  return (.ofSteps start (first :: more), rest)

end ServiceLoom.Template

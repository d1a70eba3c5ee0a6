import ServiceLoom.Template.Path

/-!
# Output of templates

The text printed so far. In a template that is included with an indent every line gets the indent.
The first line of a block or template that had a line for itself gets it only once something is
printed, so that nothing is left where nothing is printed.
-/

namespace ServiceLoom.Template

structure Output where
  text : String := ""
  lineEnded : Bool := false
  indentNext : Bool := false
  printed : Bool := false
  defined : List (String × Template) := []
  /-- The name of the template begun last; a block has begun one without a name. -/
  current : Option String := none

def indentLines (indent : List Char) : List Char → List Char
  | [] => []
  | c :: rest =>
    if c = '\n' ∧ rest ≠ [] then c :: (indent ++ indentLines indent rest)
    else c :: indentLines indent rest

namespace Output

def append (s : String) (out : Output) : Output := { out with text := out.text ++ s }

def write (indent s : String) (out : Output) : Output :=
  let chars := s.toList
  match chars with
  | [] => out
  | first :: _ =>
    let lead := if out.indentNext && !isLineEnd first then indent else ""
    let body := if indent.isEmpty then s else String.ofList (indentLines indent.toList chars)
    let ended := chars.getLast?.any isLineEnd
    { out with
      text := out.text ++ lead ++ body
      lineEnded := ended
      indentNext := ended
      printed := true }

/-- Let a block print, or a template. What was known before stays if it prints nothing. -/
def inside {ε : Type} (indentNext : Bool) (f : Output → Except ε Output) (out : Output) :
    Except ε Output := do
  let after ← f { out with printed := false, indentNext }
  if after.printed then return { after with indentNext := after.lineEnded }
  else return { after with printed := out.printed, indentNext := out.indentNext }

def inScope {ε : Type} (f : Output → Except ε Output) (out : Output) : Except ε Output := do
  return { ← f out with defined := out.defined }

end Output

end ServiceLoom.Template

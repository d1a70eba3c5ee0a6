import ServiceLoom.Error
import ServiceLoom.Text.Ascii
import ServiceLoom.Text.Blank

/-!
# Argument origins

Where an HTTP transport reads an argument from.
-/

namespace ServiceLoom

inductive Origin where
  | body
  | header
  | query
  | path
  deriving DecidableEq, Repr, Inhabited

namespace Origin

def word : Origin → String
  | body => "BODY"
  | header => "HEADER"
  | query => "QUERY"
  | path => "PATH"

def ofWord? : String → Option Origin
  | "BODY" => some body
  | "HEADER" => some header
  | "QUERY" => some query
  | "PATH" => some path
  | _ => none

/-- Case and surrounding blanks do not matter. -/
def parse (text : String) : Except Error Origin :=
  let word := Text.upperAscii (String.ofList (Text.trim text.toList))
  match ofWord? word with
  | some origin => .ok origin
  | none =>
    .error (.configuration
      s!"unknown http origin '{word}', expected BODY, HEADER, QUERY, or PATH")

theorem ofWord?_word (origin : Origin) : ofWord? origin.word = some origin := by
  cases origin <;> rfl

end Origin

end ServiceLoom

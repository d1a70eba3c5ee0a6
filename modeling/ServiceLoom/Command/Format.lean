import ServiceLoom.Error
import ServiceLoom.Json.Outline
import ServiceLoom.Json.Printer
import ServiceLoom.Text.Ascii
import ServiceLoom.Text.Blank

/-!
# Output formats

The three ways a result is printed. A format is named up to case and surrounding blanks.
-/

namespace ServiceLoom

inductive OutputFormat where
  /-- JSON over several lines. -/
  | json
  /-- JSON on one line. -/
  | text
  /-- An outline. -/
  | pretty
  deriving DecidableEq, Repr, Inhabited

namespace OutputFormat

def default : OutputFormat := pretty

def word : OutputFormat → String
  | json => "json"
  | text => "text"
  | pretty => "pretty"

def ofWord? : String → Option OutputFormat
  | "json" => some json
  | "text" => some text
  | "pretty" => some pretty
  | _ => none

def parse (name : String) : Except Error OutputFormat :=
  match ofWord? (Text.lowerAscii (String.ofList (Text.trim name.toList))) with
  | some format => .ok format
  | none => .error (.configuration s!"unknown output format '{name}', use json, text or pretty")

def render (v : Json) : OutputFormat → String
  | json => v.pretty
  | text => v.compact
  | pretty => v.outline

theorem ofWord?_word (format : OutputFormat) : ofWord? format.word = some format := by
  cases format <;> rfl

end OutputFormat

end ServiceLoom

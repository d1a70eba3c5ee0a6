import ServiceLoom.Error
import ServiceLoom.Json.Member
import ServiceLoom.Text.Ascii
import ServiceLoom.Text.Blank

/-!
# Conventions

What an interface has to look like to be a service: the end of its name, the type of every first
parameter and the type of every last result.
-/

namespace ServiceLoom

structure Convention where
  serviceSuffix : String := "Service"
  contextType : String := "context.Context"
  errorType : String := "error"
  deriving DecidableEq, Repr

namespace Convention

/-- An exported identifier: an upper-case letter, then letters, digits and underscores. -/
def isExported (name : List Char) : Bool :=
  match name with
  | [] => false
  | c :: _ => Text.isAsciiUpper c && name.all fun c => Text.isAsciiWord c || c == '_'

def isServiceName (c : Convention) (name : String) : Bool :=
  let name := name.toList
  let suffix := c.serviceSuffix.toList
  isExported name && suffix.isSuffixOf name && decide (suffix.length < name.length)

def validate (c : Convention) : Except Error Unit :=
  if Text.isBlankText c.contextType then .error (.configuration "context_type cannot be empty")
  else if Text.isBlankText c.errorType then .error (.configuration "error_type cannot be empty")
  else .ok ()

def toJson (c : Convention) : Json :=
  .object [("service_suffix", .string c.serviceSuffix), ("context_type", .string c.contextType),
    ("error_type", .string c.errorType)]

def keys : List String := ["service_suffix", "context_type", "error_type"]

/-- Conventions from an object, or from the values of its members in a list. What is missing has its
default. -/
def ofJson? (v : Json) : Option Convention := do
  let members ← match v with
    | .object members => some members
    | .array items =>
      if items.length ≤ keys.length then some (keys.zip items) else none
    | _ => none
  return {
    serviceSuffix := ← Json.optional? Json.string? "Service" "service_suffix" members
    contextType := ← Json.optional? Json.string? "context.Context" "context_type" members
    errorType := ← Json.optional? Json.string? "error" "error_type" members
  }

end Convention

end ServiceLoom

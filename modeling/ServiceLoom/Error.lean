import ServiceLoom.Entity

/-!
# Errors

One constructor per cause. An error carries the entity and the text at fault, and `message` is the
only place where causes are put into words.
-/

namespace ServiceLoom

inductive Error where
  | malformedTag (entity tag reason : String)
  | unknownTag (entity tag : String)
  /-- The longest matching name exists among the built-in and among the custom tags. -/
  | ambiguousTag (entity tag name : String)
  | invalidFlag (kind : EntityKind) (entity directive value : String)
  | invalidDeclaration (entity reason : String)
  /-- A generator gave up; `source` is its own account. -/
  | generatorFailed (generator source : String)
  | tagRejected (name reason : String)
  | configuration (detail : String)
  | template (detail : String)
  deriving DecidableEq, Repr

namespace Error

def message : Error → String
  | malformedTag entity tag reason => s!"malformed tag '{tag}' on {entity}: {reason}"
  | unknownTag entity tag => s!"unknown tag '{tag}' on {entity}"
  | ambiguousTag entity tag name =>
    s!"ambiguous tag '{tag}' on {entity}: '{name}' is both built-in and custom"
  | invalidFlag kind entity directive value =>
    s!"invalid value '{value}' for @{directive} on {kind.word} {entity}"
  | invalidDeclaration entity reason => s!"invalid declaration {entity}: {reason}"
  | generatorFailed generator _ => s!"generator '{generator}' failed"
  | tagRejected name reason => s!"cannot register tag '{name}': {reason}"
  | configuration detail => s!"configuration error: {detail}"
  | template detail => s!"template error: {detail}"

def source? : Error → Option String
  | generatorFailed _ source => some source
  | _ => none

def isTagError : Error → Bool
  | malformedTag .. | unknownTag .. | ambiguousTag .. | invalidFlag .. => true
  | _ => false

end Error

end ServiceLoom

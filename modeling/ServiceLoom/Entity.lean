/-!
# Entity kinds

What a tag or a flag directive is attached to.
-/

namespace ServiceLoom

inductive EntityKind where
  | service
  | method
  | param
  deriving DecidableEq, Repr

def EntityKind.word : EntityKind → String
  | .service => "service"
  | .method => "method"
  | .param => "param"

def EntityKind.ofWord? : String → Option EntityKind
  | "service" => some .service
  | "method" => some .method
  | "param" => some .param
  | _ => none

theorem EntityKind.ofWord?_word (kind : EntityKind) : ofWord? kind.word = some kind := by
  cases kind <;> rfl

end ServiceLoom

import ServiceLoom.Convention
import ServiceLoom.Flag.Universe
import ServiceLoom.Tag.Parsers
import ServiceLoom.Tag.Payload
import ServiceLoom.Tag.Resolve

/-!
# Builders

What building a service depends on besides its declaration, and how a builder finds out which tag a
token is.
-/

namespace ServiceLoom

structure Builder where
  convention : Convention := {}
  parsers : TagParsers := {}
  serviceFlags : FlagUniverse := FlagUniverse.service
  methodFlags : FlagUniverse := FlagUniverse.method

namespace Builder

/-- Replace the flag universes; they have to be of the right kinds. -/
def withFlags (b : Builder) (service method : FlagUniverse) : Except Error Builder :=
  if service.kind = .service ∧ method.kind = .method then
    .ok { b with serviceFlags := service, methodFlags := method }
  else
    .error (.configuration
      s!"expected service and method flag universes, got {service.kind.word} and {method.kind.word}")

end Builder

namespace Tag

def resolveOn (entity token : String) (builtin custom : List String) : Except Error Resolved :=
  match resolve token builtin custom with
  | .ok tag => .ok tag
  | .error .unknown => .error (.unknownTag entity token)
  | .error (.ambiguous name) => .error (.ambiguousTag entity token name)
  | .error (.malformed _ cause) => .error (.malformedTag entity token cause.message)

def readOn {α : Type} (entity token : String) : Except Fault α → Except Error α
  | .ok value => .ok value
  | .error fault => .error (.malformedTag entity token fault.message)

def directOn {α : Type} (entity directive : String) : Except UnknownFlag α → Except Error α
  | .ok value => .ok value
  | .error unknown => .error (unknown.toError entity directive)

def optionsOn {α : Type} (entity token : String) (table : TagTable α) (tag : Resolved) (view : α) :
    Except Error OptionBag :=
  match table.find? tag.name with
  | some parser => parser view tag.payload
  | none => .error (.unknownTag entity token)

end Tag

end ServiceLoom

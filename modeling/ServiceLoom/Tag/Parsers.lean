import ServiceLoom.Service.Basic
import ServiceLoom.Tag.Builtin
import ServiceLoom.Tag.Name

/-!
# Custom tag parsers

One table per kind of entity, in the order of registration. A name is taken only if no built-in tag
and no earlier parser of its kind has it. A parser sees the entity as it is when the tag is applied
and yields options; it cannot change the entity.
-/

namespace ServiceLoom

/-- Options from an entity and the payload of a tag. -/
abbrev TagParser (α : Type) := α → Option String → Except Error OptionBag

abbrev TagTable (α : Type) := List (TagName × TagParser α)

namespace TagTable

variable {α : Type}

def names (table : TagTable α) : List String := table.map (·.1.text)

def find? (table : TagTable α) (name : String) : Option (TagParser α) :=
  (List.find? (·.1.text == name) table).map (·.2)

/-- Append a parser under a name that is free. -/
def register (table : TagTable α) (kind : EntityKind) (builtin : List String) (name : String)
    (parser : TagParser α) : Except Error (TagTable α) := do
  let tag ← TagName.make name
  if tag.text ∈ builtin then
    throw (.tagRejected name s!"'{tag.text}' is a built-in {kind.word} tag")
  else if tag.text ∈ table.names then
    throw (.tagRejected name s!"'{tag.text}' is already registered for {kind.word}s")
  else return table ++ [(tag, parser)]

end TagTable

structure TagParsers where
  service : TagTable Service := []
  method : TagTable Method := []
  param : TagTable Argument := []

namespace TagParsers

def names (parsers : TagParsers) : EntityKind → List String
  | .service => parsers.service.names
  | .method => parsers.method.names
  | .param => parsers.param.names

def isEmpty (parsers : TagParsers) : Bool :=
  parsers.service.isEmpty && parsers.method.isEmpty && parsers.param.isEmpty

def registerService (parsers : TagParsers) (name : String) (parser : TagParser Service) :
    Except Error TagParsers := do
  let table ← parsers.service.register .service Tag.ServiceTag.names name parser
  return { parsers with service := table }

def registerMethod (parsers : TagParsers) (name : String) (parser : TagParser Method) :
    Except Error TagParsers := do
  let table ← parsers.method.register .method Tag.MethodTag.names name parser
  return { parsers with method := table }

def registerParam (parsers : TagParsers) (name : String) (parser : TagParser Argument) :
    Except Error TagParsers := do
  let table ← parsers.param.register .param Tag.ParamTag.names name parser
  return { parsers with param := table }

end TagParsers

end ServiceLoom

import ServiceLoom.Json.Basic
import ServiceLoom.Service.Basic

/-!
# Services as JSON

Every member is written, absent values as null; the options of tags are objects.
-/

namespace ServiceLoom

def OptionBag.toJson (bag : OptionBag) : Json :=
  .object (bag.entries.map fun (key, value) => (key, .string value))

def TagOptions.toJson (all : TagOptions) : Json :=
  .object (all.tags.map fun (tag, bag) => (tag, bag.toJson))

def FieldType.toJson : FieldType → Json
  | builtin name => .object [("kind", .string "builtin"), ("name", .string name)]
  | imported package name =>
    .object [("kind", .string "imported"), ("package", .ofOption .string package),
      ("name", .string name)]
  | slice elem => .object [("kind", .string "slice"), ("elem", elem.toJson)]
  | variadic elem => .object [("kind", .string "variadic"), ("elem", elem.toJson)]
  | map key value =>
    .object [("kind", .string "map"), ("key", key.toJson), ("value", value.toJson)]
  | pointer elem => .object [("kind", .string "pointer"), ("elem", elem.toJson)]
  | bytes => .object [("kind", .string "bytes")]

def Argument.toJson (a : Argument) : Json :=
  .object [("name", .string a.name), ("alias", .string a.aliasName), ("type", a.type.toJson),
    ("http_origin", .string a.origin.word), ("docs", .ofStrings a.docs), ("tags", a.tags.toJson)]

def Field.toJson (f : Field) : Json :=
  .object [("name", .string f.name), ("alias", .string f.aliasName), ("type", f.type.toJson)]

def Method.toJson (m : Method) : Json :=
  .object [("service", .string m.service), ("name", .string m.name), ("alias", .string m.aliasName),
    ("docs", .ofStrings m.docs), ("arguments", .array (m.arguments.map Argument.toJson)),
    ("results", .array (m.results.map Field.toJson)), ("generate", .ofStrings m.flags.flags),
    ("http_method", .ofOption .string m.httpMethod), ("http_path", .ofOption .string m.httpPath),
    ("logs_ignore", .ofStrings m.logsIgnore), ("logs_len", .ofStrings m.logsLen),
    ("tags", m.tags.toJson)]

def Service.toJson (s : Service) : Json :=
  .object [("name", .string s.name), ("alias", .string s.aliasName), ("package", .string s.package),
    ("docs", .ofStrings s.docs), ("methods", .array (s.methods.map Method.toJson)),
    ("generate", .ofStrings s.flags.flags), ("http_prefix", .ofOption .string s.httpPrefix),
    ("capabilities", .ofStrings (s.capabilities.map Capability.word)), ("tags", s.tags.toJson)]

end ServiceLoom

import ServiceLoom.Declaration.Basic
import ServiceLoom.Json.Member
import ServiceLoom.Json.Reader

/-!
# Declarations as JSON

Every member is written out. Reading ignores members it does not know, fills in those that have a
default, and fails on a known member that is missing, null, of a wrong type or written twice. A
type expression is an object whose `kind` names its shape; inside another type expression the kind
may also be given by its number. In a text, unknown members are skipped, except that a type
expression has to be one that can be held as a whole.
-/

namespace ServiceLoom

namespace TypeExpr

def kinds : List String :=
  ["ident", "selector", "slice", "ellipsis", "map", "star", "array", "chan", "func", "struct",
    "interface"]

def toJson : TypeExpr → Json
  | ident name => .object [("kind", .string "ident"), ("name", .string name)]
  | selector package name =>
    .object [("kind", .string "selector"), ("package", .string package), ("name", .string name)]
  | slice elem => .object [("kind", .string "slice"), ("elem", elem.toJson)]
  | ellipsis elem => .object [("kind", .string "ellipsis"), ("elem", elem.toJson)]
  | map key value =>
    .object [("kind", .string "map"), ("key", key.toJson), ("value", value.toJson)]
  | star elem => .object [("kind", .string "star"), ("elem", elem.toJson)]
  | array len elem =>
    .object [("kind", .string "array"), ("len", .string len), ("elem", elem.toJson)]
  | chan elem => .object [("kind", .string "chan"), ("elem", elem.toJson)]
  | func => .object [("kind", .string "func")]
  | struct => .object [("kind", .string "struct")]
  | interface => .object [("kind", .string "interface")]

/-- The kind of a type expression; by number only inside another one. -/
def kind? (nested : Bool) (members : List (String × Json)) : Option String :=
  match Json.valuesAt "kind" members with
  | [.string kind] => some kind
  | [.int n] => if nested && decide (0 ≤ n) then kinds[n.toNat]? else none
  | _ => none

def part? (key : String) (parts : List (String × Option TypeExpr)) : Option TypeExpr :=
  match parts.filter (·.1 == key) with
  | [(_, part)] => part
  | _ => none

/-- A type expression from its members and from what each of them is as a type expression. -/
def ofMembers? (nested : Bool) (members : List (String × Json))
    (parts : List (String × Option TypeExpr)) : Option TypeExpr := do
  match ← kind? nested members with
  | "ident" => return ident (← Json.required? Json.string? "name" members)
  | "selector" =>
    return selector (← Json.required? Json.string? "package" members)
      (← Json.required? Json.string? "name" members)
  | "slice" => return slice (← part? "elem" parts)
  | "ellipsis" => return ellipsis (← part? "elem" parts)
  | "map" => return map (← part? "key" parts) (← part? "value" parts)
  | "star" => return star (← part? "elem" parts)
  | "array" => return array (← Json.required? Json.string? "len" members) (← part? "elem" parts)
  | "chan" => return chan (← part? "elem" parts)
  | "func" => return func
  | "struct" => return struct
  | "interface" => return interface
  | _ => none

mutual

def read? (nested : Bool) : Json → Option TypeExpr
  | .object members => ofMembers? nested members (readParts members)
  | _ => none

def readParts : List (String × Json) → List (String × Option TypeExpr)
  | [] => []
  | (key, value) :: rest => (key, read? true value) :: readParts rest

end

def ofJson? (v : Json) : Option TypeExpr := read? false v

end TypeExpr

namespace FieldDecl

def toJson (f : FieldDecl) : Json :=
  .object [("name", .string f.name), ("type", f.type.toJson), ("docs", .ofStrings f.docs)]

def shape : Json.Shape := .members [("name", .whole), ("type", .whole), ("docs", .whole)]

def ofJson? (v : Json) : Option FieldDecl := do
  let members ← v.members?
  return {
    name := ← Json.optional? Json.string? "" "name" members
    type := ← Json.required? TypeExpr.ofJson? "type" members
    docs := ← Json.optional? (Json.list? Json.string?) [] "docs" members
  }

end FieldDecl

namespace MethodDecl

def toJson (m : MethodDecl) : Json :=
  .object [("name", .string m.name), ("docs", .ofStrings m.docs),
    ("params", .array (m.params.map FieldDecl.toJson)),
    ("results", .array (m.results.map FieldDecl.toJson))]

def shape : Json.Shape :=
  .members [("name", .whole), ("docs", .whole), ("params", .items FieldDecl.shape),
    ("results", .items FieldDecl.shape)]

def ofJson? (v : Json) : Option MethodDecl := do
  let members ← v.members?
  return {
    name := ← Json.required? Json.string? "name" members
    docs := ← Json.optional? (Json.list? Json.string?) [] "docs" members
    params := ← Json.optional? (Json.list? FieldDecl.ofJson?) [] "params" members
    results := ← Json.optional? (Json.list? FieldDecl.ofJson?) [] "results" members
  }

end MethodDecl

namespace InterfaceDecl

def toJson (i : InterfaceDecl) : Json :=
  .object [("name", .string i.name), ("docs", .ofStrings i.docs), ("embeds", .ofStrings i.embeds),
    ("methods", .array (i.methods.map MethodDecl.toJson))]

def shape : Json.Shape :=
  .members [("name", .whole), ("docs", .whole), ("embeds", .whole),
    ("methods", .items MethodDecl.shape)]

def ofJson? (v : Json) : Option InterfaceDecl := do
  let members ← v.members?
  return {
    name := ← Json.required? Json.string? "name" members
    docs := ← Json.optional? (Json.list? Json.string?) [] "docs" members
    embeds := ← Json.optional? (Json.list? Json.string?) [] "embeds" members
    methods := ← Json.optional? (Json.list? MethodDecl.ofJson?) [] "methods" members
  }

end InterfaceDecl

namespace Declaration

def toJson (d : Declaration) : Json :=
  .object [("package", .string d.package),
    ("interfaces", .array (d.interfaces.map InterfaceDecl.toJson))]

def shape : Json.Shape :=
  .members [("package", .whole), ("interfaces", .items InterfaceDecl.shape)]

def ofJson? (v : Json) : Option Declaration := do
  let members ← v.members?
  return {
    package := ← Json.required? Json.string? "package" members
    interfaces := ← Json.optional? (Json.list? InterfaceDecl.ofJson?) [] "interfaces" members
  }

def parse? (text : String) : Option Declaration := (Json.read? shape text).bind ofJson?

end Declaration

end ServiceLoom

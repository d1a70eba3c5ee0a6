import ServiceLoom.Recipe.Basic
import ServiceLoom.Service.Json
import ServiceLoom.Template.Store

/-!
# What templates see

A flat view of the model: types are texts and flags are lists. A template sees its service and, when
it is rendered for a method, that method; otherwise the method is null.
-/

namespace ServiceLoom

structure FieldView where
  name : String
  aliasName : String
  typeName : String
  origin : Option Origin
  logIgnored : Bool
  logLen : Bool
  deriving DecidableEq, Repr

structure MethodView where
  name : String
  aliasName : String
  docs : List String
  arguments : List FieldView
  results : List FieldView
  flags : List String
  httpMethod : Option String
  httpPath : Option String
  tags : TagOptions
  deriving DecidableEq, Repr

structure ServiceView where
  name : String
  aliasName : String
  package : String
  docs : List String
  httpPrefix : Option String
  capabilities : List String
  flags : List String
  methods : List MethodView
  tags : TagOptions
  deriving DecidableEq, Repr

namespace FieldView

def ofArgument (m : Method) (a : Argument) : FieldView where
  name := a.name
  aliasName := a.aliasName
  typeName := a.type.text
  origin := some a.origin
  logIgnored := decide (a.name ∈ m.logsIgnore)
  logLen := decide (a.name ∈ m.logsLen)

def ofResult (m : Method) (r : Field) : FieldView where
  name := r.name
  aliasName := r.aliasName
  typeName := r.type.text
  origin := none
  logIgnored := decide (r.name ∈ m.logsIgnore)
  logLen := decide (r.name ∈ m.logsLen)

def toJson (f : FieldView) : Json :=
  .object [("name", .string f.name), ("alias", .string f.aliasName),
    ("type_name", .string f.typeName),
    ("http_origin", .ofOption (fun o => .string (Origin.word o)) f.origin),
    ("log_ignored", .bool f.logIgnored), ("log_len", .bool f.logLen)]

end FieldView

namespace MethodView

def ofMethod (m : Method) : MethodView where
  name := m.name
  aliasName := m.aliasName
  docs := m.docs
  arguments := m.arguments.map (FieldView.ofArgument m)
  results := m.results.map (FieldView.ofResult m)
  flags := m.flags.flags
  httpMethod := m.httpMethod
  httpPath := m.httpPath
  tags := m.tags

def toJson (m : MethodView) : Json :=
  .object [("name", .string m.name), ("alias", .string m.aliasName), ("docs", .ofStrings m.docs),
    ("arguments", .array (m.arguments.map FieldView.toJson)),
    ("results", .array (m.results.map FieldView.toJson)), ("flags", .ofStrings m.flags),
    ("http_method", .ofOption .string m.httpMethod), ("http_path", .ofOption .string m.httpPath),
    ("tags", m.tags.toJson)]

end MethodView

namespace ServiceView

def ofService (s : Service) : ServiceView where
  name := s.name
  aliasName := s.aliasName
  package := s.package
  docs := s.docs
  httpPrefix := s.httpPrefix
  capabilities := s.capabilities.map Capability.word
  flags := s.flags.flags
  methods := s.methods.map MethodView.ofMethod
  tags := s.tags

def toJson (s : ServiceView) : Json :=
  .object [("name", .string s.name), ("alias", .string s.aliasName), ("package", .string s.package),
    ("docs", .ofStrings s.docs), ("http_prefix", .ofOption .string s.httpPrefix),
    ("capabilities", .ofStrings s.capabilities), ("flags", .ofStrings s.flags),
    ("methods", .array (s.methods.map MethodView.toJson)), ("tags", s.tags.toJson)]

end ServiceView

namespace TemplateStore

/-- The data a template is rendered with. -/
def viewData (s : Service) (m : Option Method) : Json :=
  .object [("service", (ServiceView.ofService s).toJson),
    ("method", .ofOption (fun m => (MethodView.ofMethod m).toJson) m)]

def renderFor (store : TemplateStore) (template : String) (s : Service) (m : Option Method) :
    Except Error String :=
  store.render template (viewData s m)

/-- A generator that appends a template rendered for the service. -/
def serviceGenerator (store : TemplateStore) (template name : String) : ServiceGenerator where
  name := name
  run := fun a s => do return a.append (← store.renderFor template s none)

/-- A generator that appends a template rendered for each method. -/
def methodGenerator (store : TemplateStore) (template name : String) : MethodGenerator where
  name := name
  run := fun a s m => do return a.append (← store.renderFor template s (some m))

end TemplateStore

end ServiceLoom

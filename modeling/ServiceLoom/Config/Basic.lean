import ServiceLoom.Convention
import ServiceLoom.Error
import ServiceLoom.Text.Blank
import ServiceLoom.Toml.Reader

/-!
# Configurations

The conventions of the model and the artifacts to make. Unknown keys are refused at the top and in
artifacts, and ignored among the conventions.
-/

namespace ServiceLoom

structure ArtifactConfig where
  name : String
  fileType : String := "go"
  path : String := ""
  file : String
  overwrite : Bool := false
  merge : Bool := false
  /-- Make the artifact only if this flag is on somewhere. -/
  condition : Option String := none
  header : Option String := none
  serviceTemplate : Option String := none
  methodTemplate : Option String := none
  /-- Render only the methods with this flag. -/
  methodFlag : Option String := none
  deriving DecidableEq, Repr

structure Config where
  model : Convention := {}
  artifacts : List ArtifactConfig := []
  deriving DecidableEq, Repr

namespace ArtifactConfig

def validate (a : ArtifactConfig) : Except Error Unit :=
  if Text.isBlankText a.name then .error (.configuration "artifact name cannot be empty")
  else if Text.isBlankText a.file then
    .error (.configuration s!"artifact '{a.name}' has no file name")
  else if a.serviceTemplate.isNone && a.methodTemplate.isNone then
    .error (.configuration s!"artifact '{a.name}' has no template")
  else if a.overwrite && a.merge then
    .error (.configuration s!"artifact '{a.name}' cannot both overwrite and merge")
  else if a.methodFlag.isSome && a.methodTemplate.isNone then
    .error (.configuration s!"artifact '{a.name}' sets method_flag without a method template")
  else .ok ()

def toJson (a : ArtifactConfig) : Json :=
  .object [("name", .string a.name), ("file_type", .string a.fileType), ("path", .string a.path),
    ("file", .string a.file), ("overwrite", .bool a.overwrite), ("merge", .bool a.merge),
    ("when", .ofOption .string a.condition), ("header", .ofOption .string a.header),
    ("service_template", .ofOption .string a.serviceTemplate),
    ("method_template", .ofOption .string a.methodTemplate),
    ("method_flag", .ofOption .string a.methodFlag)]

end ArtifactConfig

namespace Config

/-- Check artifacts in order; `seen` are the names of those before. -/
def validateArtifacts (seen : List String) : List ArtifactConfig → Except Error Unit
  | [] => .ok ()
  | a :: rest => do
    if a.name ∈ seen then throw (.configuration s!"artifact '{a.name}' defined twice")
    a.validate
    validateArtifacts (a.name :: seen) rest

def validate (c : Config) : Except Error Unit := do
  c.model.validate
  validateArtifacts [] c.artifacts

def toJson (c : Config) : Json :=
  .object [("model", c.model.toJson),
    ("artifacts", .array (c.artifacts.map ArtifactConfig.toJson))]

end Config

namespace Toml

def string? : Toml → Option String
  | string s => some s
  | _ => none

def boolean? : Toml → Option Bool
  | boolean b => some b
  | _ => none

def setting? {α : Type} (read : Toml → Option α) (default : α) (key : String)
    (members : List (String × Toml)) : Option α :=
  match members.lookup key with
  | some v => read v
  | none => some default

def othersHeld (keys : List String) (members : List (String × Toml)) : Bool :=
  membersHeld (members.filter fun (key, _) => !keys.contains key)

def onlyKeys (keys : List String) (members : List (String × Toml)) : Bool :=
  members.all fun (key, _) => key ∈ keys

end Toml

namespace Convention

/-- Conventions from a table, or from the values of its keys in a list. A table with other keys
has to be one that can be held, and a date stands for a table with none of the keys. -/
def ofToml? (v : Toml) : Option Convention := do
  let members ← match v with
    | .table members => if Toml.othersHeld keys members then some members else none
    | .array items => some (keys.zip items)
    | .date => some []
    | _ => none
  return {
    serviceSuffix := ← Toml.setting? Toml.string? "Service" "service_suffix" members
    contextType := ← Toml.setting? Toml.string? "context.Context" "context_type" members
    errorType := ← Toml.setting? Toml.string? "error" "error_type" members
  }

end Convention

namespace ArtifactConfig

def keys : List String :=
  ["name", "file_type", "path", "file", "overwrite", "merge", "when", "header", "service_template",
    "method_template", "method_flag"]

def ofToml? (v : Toml) : Option ArtifactConfig := do
  let members ← match v with
    | .table members => if Toml.onlyKeys keys members then some members else none
    | .array items => if keys.length ≤ items.length then some (keys.zip items) else none
    | _ => none
  let text? (key : String) : Option (Option String) :=
    Toml.setting? (fun v => v.string?.map some) none key members
  return {
    name := ← (← members.lookup "name").string?
    fileType := ← Toml.setting? Toml.string? "go" "file_type" members
    path := ← Toml.setting? Toml.string? "" "path" members
    file := ← (← members.lookup "file").string?
    overwrite := ← Toml.setting? Toml.boolean? false "overwrite" members
    merge := ← Toml.setting? Toml.boolean? false "merge" members
    condition := ← text? "when"
    header := ← text? "header"
    serviceTemplate := ← text? "service_template"
    methodTemplate := ← text? "method_template"
    methodFlag := ← text? "method_flag"
  }

end ArtifactConfig

namespace Config

def ofToml? (members : List (String × Toml)) : Option Config := do
  let artifacts? (v : Toml) : Option (List ArtifactConfig) :=
    match v with
    | .array items => items.mapM ArtifactConfig.ofToml?
    | _ => none
  if !Toml.onlyKeys ["model", "artifacts"] members then none
  return {
    model := ← Toml.setting? Convention.ofToml? {} "model" members
    artifacts := ← Toml.setting? artifacts? [] "artifacts" members
  }

def parse (source : String) : Except Error Config := do
  match (Toml.parse? source).bind ofToml? with
  | none => throw (.configuration "invalid configuration")
  | some config =>
    config.validate
    return config

end Config

end ServiceLoom

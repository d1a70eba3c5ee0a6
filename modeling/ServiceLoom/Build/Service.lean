import ServiceLoom.Build.Method

/-!
# Services from declarations

The name is checked first, then the tags of the interface are applied, then its methods are built in
order. The first error ends the service.
-/

namespace ServiceLoom.Builder

def applyServiceTag (b : Builder) (entity token : String) (payload : Option String) (s : Service) :
    Tag.ServiceTag → Except Error Service
  | .generate => do
    let names ← Tag.readOn entity token (Tag.Payload.someNames payload)
    let flags ← Tag.directOn s.name "generate" (b.serviceFlags.only names)
    return { s with flags := flags }
  | .generateAll => do
    let names := Tag.Payload.names payload
    let flags ← Tag.directOn s.name "generate-all" (b.serviceFlags.allBut true names s.flags)
    return { s with flags := flags }
  | .aliasName => do
    let name ← Tag.readOn entity token (Tag.Payload.singleName payload)
    return { s with aliasName := name }
  | .httpPrefix => do
    let path ← Tag.readOn entity token (Tag.Payload.path payload)
    return { s with httpPrefix := some path }

def applyServiceToken (b : Builder) (entity : String) (s : Service) (token : String) :
    Except Error Service := do
  let tag ← Tag.resolveOn entity token Tag.ServiceTag.names b.parsers.service.names
  match tag.pool with
  | .custom =>
    let options ← Tag.optionsOn entity token b.parsers.service tag s
    return { s with tags := s.tags.merge tag.name options }
  | .builtin =>
    match Tag.ServiceTag.ofName? tag.name with
    | some builtin => b.applyServiceTag entity token tag.payload s builtin
    | none => throw (.unknownTag entity token)

/-- A service before its tags are applied; it has no methods yet. -/
def plainService (package : String) (decl : InterfaceDecl) (docs : List String) : Service where
  name := decl.name
  aliasName := decl.name
  package := package
  docs := docs
  methods := []
  flags := FlagSet.empty
  httpPrefix := none
  capabilities := Capability.ofEmbeds decl.embeds
  tags := {}

/-- Methods in order; `built` are the names of those before. -/
def buildMethods (b : Builder) (service : String) (seed : FlagSet) (built : List String) :
    List MethodDecl → Except Error (List Method)
  | [] => .ok []
  | decl :: rest => do
    if decl.name ∈ built then
      throw (.invalidDeclaration s!"service {service}" s!"method '{decl.name}' is declared twice")
    let method ← b.buildMethod service seed decl
    let methods ← b.buildMethods service seed (decl.name :: built) rest
    return method :: methods

def buildHead (b : Builder) (package : String) (decl : InterfaceDecl) : Except Error Service := do
  let entity := s!"service {decl.name}"
  if !b.convention.isServiceName decl.name then
    throw (.invalidDeclaration entity
      s!"name must be an exported identifier ending in '{b.convention.serviceSuffix}'")
  let comment := Comment.classify decl.docs
  comment.tags.foldlM (b.applyServiceToken entity) (plainService package decl comment.docs)

def buildIn (b : Builder) (package : String) (decl : InterfaceDecl) : Except Error Service := do
  let head ← b.buildHead package decl
  let methods ← b.buildMethods decl.name head.flags [] decl.methods
  return { head with methods := methods }

def buildAll (b : Builder) (decl : Declaration) : Except Error (List Service) :=
  decl.interfaces.mapM (b.buildIn decl.package)

end ServiceLoom.Builder

import ServiceLoom.Build.Argument
import ServiceLoom.Service.PathTemplate

/-!
# Methods from declarations

The signature is checked first, then arguments, results and the method's own tags are taken in
order. The flags start as those of the service. Placeholders of the path are looked up at the very
end, under the final aliases.
-/

namespace ServiceLoom.Builder

def changeFirst {α ε : Type} (p : α → Bool) (change : α → Except ε α) (missing : ε) :
    List α → Except ε (List α)
  | [] => .error missing
  | a :: rest =>
    if p a then return (← change a) :: rest
    else return a :: (← changeFirst p change missing rest)

/-- Rename an argument, or else a result. -/
def renameField (entity name new : String) (m : Method) : Except Error Method := do
  let missing : Error :=
    .invalidDeclaration entity s!"alias references unknown argument or result '{name}'"
  if (m.argument? name).isSome then
    let arguments ←
      changeFirst (·.name == name) (fun a => .ok { a with aliasName := new }) missing m.arguments
    return { m with arguments := arguments }
  else
    let results ←
      changeFirst (·.name == name) (fun r => .ok { r with aliasName := new }) missing m.results
    return { m with results := results }

def applyParams (b : Builder) (entity label : String) (tags : List String) (m : Method)
    (name : String) : Except Error Method := do
  let missing : Error :=
    .invalidDeclaration entity s!"params references unknown argument '{name}'"
  let arguments ←
    changeFirst (·.name == name)
      (fun a => b.applyParamTokens (paramEntity label name) a tags) missing m.arguments
  return { m with arguments := arguments }

def addNew (names : List String) (name : String) : List String :=
  if name ∈ names then names else names ++ [name]

def loggedType (entity tag name : String) (m : Method) : Except Error FieldType :=
  match m.typeOf? name with
  | some type => .ok type
  | none =>
    .error (.invalidDeclaration entity s!"{tag} references unknown argument or result '{name}'")

def ignoreInLogs (entity : String) (m : Method) (name : String) : Except Error Method := do
  let _ ← loggedType entity "logs-ignore" name m
  return { m with logsIgnore := addNew m.logsIgnore name }

def logByLength (entity : String) (m : Method) (name : String) : Except Error Method := do
  let type ← loggedType entity "logs-len" name m
  if type.hasLen then return { m with logsLen := addNew m.logsLen name }
  else
    throw (.invalidDeclaration entity
      s!"logs-len target '{name}' of type {type.text} has no length")

def applyMethodTag (b : Builder) (entity label token : String) (payload : Option String)
    (m : Method) : Tag.MethodTag → Except Error Method
  | .enable => do
    let names ← Tag.readOn entity token (Tag.Payload.someNames payload)
    let flags ← Tag.directOn label "enable" (b.methodFlags.add names m.flags)
    return { m with flags := flags }
  | .disable => do
    let names ← Tag.readOn entity token (Tag.Payload.someNames payload)
    let flags ← Tag.directOn label "disable" (b.methodFlags.remove names m.flags)
    return { m with flags := flags }
  | .enableAll => do
    let names := Tag.Payload.names payload
    let flags ← Tag.directOn label "enable-all" (b.methodFlags.allBut true names m.flags)
    return { m with flags := flags }
  | .disableAll => do
    let names := Tag.Payload.names payload
    let flags ← Tag.directOn label "disable-all" (b.methodFlags.allBut false names m.flags)
    return { m with flags := flags }
  | .aliasName => do
    match ← Tag.readOn entity token (Tag.Payload.aliasName payload) with
    | .own new => return { m with aliasName := new }
    | .field name new => renameField entity name new m
  | .params => do
    let params ← Tag.readOn entity token (Tag.Payload.params payload)
    params.names.foldlM (b.applyParams entity label params.tags) m
  | .logsIgnore => do
    let names ← Tag.readOn entity token (Tag.Payload.someNames payload)
    names.foldlM (ignoreInLogs entity) m
  | .logsLen => do
    let names ← Tag.readOn entity token (Tag.Payload.someNames payload)
    names.foldlM (logByLength entity) m
  | .httpMethod => do
    let verb ← Tag.readOn entity token (Tag.Payload.verb payload)
    return { m with httpMethod := some verb }
  | .httpPath => do
    let path ← Tag.readOn entity token (Tag.Payload.path payload)
    return { m with httpPath := some path }

def applyMethodToken (b : Builder) (entity label : String) (m : Method) (token : String) :
    Except Error Method := do
  let tag ← Tag.resolveOn entity token Tag.MethodTag.names b.parsers.method.names
  match tag.pool with
  | .custom =>
    let options ← Tag.optionsOn entity token b.parsers.method tag m
    return { m with tags := m.tags.merge tag.name options }
  | .builtin =>
    match Tag.MethodTag.ofName? tag.name with
    | some builtin => b.applyMethodTag entity label token tag.payload m builtin
    | none => throw (.unknownTag entity token)

def contextRest (b : Builder) (entity : String) (params : List FieldDecl) :
    Except Error (List FieldDecl) :=
  let expected := b.convention.contextType
  match params with
  | [] => .error (.invalidDeclaration entity s!"first parameter must be {expected}")
  | context :: rest =>
    if context.type.text = expected then .ok rest
    else
      .error (.invalidDeclaration entity
        s!"first parameter must be {expected}, found {context.type.text}")

def errorRest (b : Builder) (entity : String) (results : List FieldDecl) :
    Except Error (List FieldDecl) :=
  let expected := b.convention.errorType
  match results.getLast? with
  | none => .error (.invalidDeclaration entity s!"last result must be {expected}")
  | some error =>
    if error.type.text = expected then .ok results.dropLast
    else
      .error (.invalidDeclaration entity
        s!"last result must be {expected}, found {error.type.text}")

def buildResult (entity : String) (position : Nat) (result : FieldDecl) : Except Error Field := do
  checkNamed entity "result" position result
  let type ← convertType entity result.type false
  return ⟨result.name, result.name, type⟩

def buildResults (entity : String) (position : Nat) : List FieldDecl → Except Error (List Field)
  | [] => .ok []
  | result :: rest => do
    let field ← buildResult entity position result
    let fields ← buildResults entity (position + 1) rest
    return field :: fields

def namedBy (a : Argument) (name : String) : Bool := name == a.name || name == a.aliasName

/-- Every placeholder of the path names an argument, and an argument named by one comes from the
path unless a tag chose its origin. -/
def bindPath (entity : String) (m : Method) : Except Error Method :=
  match m.httpPath with
  | none => .ok m
  | some path =>
    let names := PathTemplate.placeholders path
    match names.find? fun name => !m.arguments.any (namedBy · name) with
    | some unknown =>
      .error (.invalidDeclaration entity s!"http-path placeholder '{unknown}' is not an argument")
    | none =>
      .ok { m with
        arguments := m.arguments.map fun a =>
          if !a.originTagged && names.any (namedBy a) then { a with origin := .path } else a }

def plainMethod (b : Builder) (service : String) (seed : FlagSet) (name : String)
    (docs : List String) (arguments : List Argument) (results : List Field) : Method where
  service := service
  name := name
  aliasName := name
  docs := docs
  arguments := arguments
  results := results
  flags := b.methodFlags.inherit FlagSet.empty seed
  httpMethod := none
  httpPath := none
  logsIgnore := []
  logsLen := []
  tags := {}

/-- A method of the service of that name, whose flags are `seed`. -/
def buildMethod (b : Builder) (service : String) (seed : FlagSet) (decl : MethodDecl) :
    Except Error Method := do
  let label := s!"{service}.{decl.name}"
  let entity := s!"method {label}"
  let params ← b.contextRest entity decl.params
  let results ← b.errorRest entity decl.results
  let arguments ← b.buildArguments label 1 params
  let fields ← buildResults entity 1 results
  let comment := Comment.classify decl.docs
  let plain := b.plainMethod service seed decl.name comment.docs arguments fields
  let tagged ← comment.tags.foldlM (b.applyMethodToken entity label) plain
  bindPath entity tagged

end ServiceLoom.Builder

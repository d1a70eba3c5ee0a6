import ServiceLoom.Build.Builder
import ServiceLoom.Build.FieldType
import ServiceLoom.Comment
import ServiceLoom.Declaration.Basic

/-!
# Arguments from parameters

Parameters are taken in order, and each of them is checked, converted and tagged before the next.
-/

namespace ServiceLoom

/-- Refuse a field without a name; `position` counts from one. -/
def checkNamed (entity what : String) (position : Nat) (field : FieldDecl) : Except Error Unit :=
  if field.name = "" ∨ field.name = "_" then
    .error (.invalidDeclaration entity s!"{what} {position} ({field.type.text}) is unnamed")
  else .ok ()

namespace Builder

def applyParamTag (entity token : String) (payload : Option String) (a : Argument) :
    Tag.ParamTag → Except Error Argument
  | .aliasName => do
    let name ← Tag.readOn entity token (Tag.Payload.singleName payload)
    return { a with aliasName := name }
  | .httpOrigin => do
    let origin ← Tag.readOn entity token (Tag.Payload.origin payload)
    return { a with origin := origin, originTagged := true }

def applyParamToken (b : Builder) (entity : String) (a : Argument) (token : String) :
    Except Error Argument := do
  let tag ← Tag.resolveOn entity token Tag.ParamTag.names b.parsers.param.names
  match tag.pool with
  | .custom =>
    let options ← Tag.optionsOn entity token b.parsers.param tag a
    return { a with tags := a.tags.merge tag.name options }
  | .builtin =>
    match Tag.ParamTag.ofName? tag.name with
    | some builtin => applyParamTag entity token tag.payload a builtin
    | none => throw (.unknownTag entity token)

def applyParamTokens (b : Builder) (entity : String) (a : Argument) (tokens : List String) :
    Except Error Argument :=
  tokens.foldlM (b.applyParamToken entity) a

def plainArgument (param : FieldDecl) (type : FieldType) (docs : List String) : Argument where
  name := param.name
  aliasName := param.name
  type := type
  origin := .body
  originTagged := false
  docs := docs
  tags := {}

def paramEntity (label name : String) : String := s!"param {label}.{name}"

/-- `label` is the full name of the method; only the last parameter may be variadic. -/
def buildArgument (b : Builder) (label : String) (position : Nat) (last : Bool)
    (param : FieldDecl) : Except Error Argument := do
  let entity := s!"method {label}"
  checkNamed entity "parameter" position param
  let comment := Comment.classify param.docs
  let type ← convertType entity param.type last
  b.applyParamTokens (paramEntity label param.name) (plainArgument param type comment.docs)
    comment.tags

def buildArguments (b : Builder) (label : String) (position : Nat) :
    List FieldDecl → Except Error (List Argument)
  | [] => .ok []
  | param :: rest => do
    let argument ← b.buildArgument label position rest.isEmpty param
    let arguments ← b.buildArguments label (position + 1) rest
    return argument :: arguments

end Builder

end ServiceLoom

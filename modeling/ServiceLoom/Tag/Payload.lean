import ServiceLoom.Service.Origin
import ServiceLoom.Split

/-!
# Payloads of built-in tags

Each reader turns the text between a tag's parentheses into a value, or says what is wrong with it.
A missing payload reads as an empty one.
-/

namespace ServiceLoom.Tag

inductive Fault where
  | noNames
  | noName
  | severalNames
  | badName (text : String)
  | badAlias
  | badVerb (verb : String)
  | relativePath
  | blankInPath
  | unbalancedPath (imbalance : Brackets.Imbalance)
  | badParams
  | noParamNames
  | bareParamTags
  | noParamTags
  | badOrigin (cause : Error)
  deriving DecidableEq, Repr

def httpVerbs : List String := ["GET", "POST", "PUT", "PATCH", "DELETE", "HEAD", "OPTIONS"]

def Fault.message : Fault → String
  | noNames => "expects at least one name"
  | noName => "expects a name"
  | severalNames => "expects exactly one name"
  | badName text => s!"'{text}' is not a valid name"
  | badAlias => "expects 'name' or 'field, name'"
  | badVerb verb =>
    s!"unknown HTTP method '{verb}', expected one of " ++ String.intercalate ", " httpVerbs
  | relativePath => "path must start with '/'"
  | blankInPath => "path cannot contain whitespace"
  | unbalancedPath imbalance => imbalance.message
  | badParams => "expects '[names], (tags)'"
  | noParamNames => "expects at least one parameter name"
  | bareParamTags => "parameter tags must be wrapped in '(...)'"
  | noParamTags => "expects at least one parameter tag"
  | badOrigin cause => cause.message

/-- A new name for the tagged entity, or for an argument or result of the tagged method. -/
inductive Alias where
  | own (new : String)
  | field (name new : String)
  deriving DecidableEq, Repr

structure Params where
  names : List String
  tags : List String
  deriving DecidableEq, Repr

namespace Payload

def names (payload : Option String) : List String := Split.onCommas (payload.getD "")

def someNames (payload : Option String) : Except Fault (List String) :=
  match names payload with
  | [] => .error .noNames
  | names => .ok names

def isName (text : String) : Bool :=
  match text.toList with
  | [] => false
  | c :: cs =>
    (Text.isAsciiLetter c || c == '_') &&
      cs.all fun c => Text.isAsciiWord c || c == '_' || c == '.' || c == '-'

def validName (text : String) : Except Fault String :=
  if isName text then .ok text else .error (.badName text)

def singleName (payload : Option String) : Except Fault String :=
  match names payload with
  | [] => .error .noName
  | [one] => validName one
  | _ => .error .severalNames

def aliasName (payload : Option String) : Except Fault Alias := do
  match names payload with
  | [own] => return .own (← validName own)
  | [name, new] => return .field (← validName name) (← validName new)
  | _ => throw .badAlias

def verb (payload : Option String) : Except Fault String := do
  let verb := Text.upperAscii (← singleName payload)
  if verb ∈ httpVerbs then return verb else throw (.badVerb verb)

def origin (payload : Option String) : Except Fault Origin := do
  match Origin.parse (← singleName payload) with
  | .ok origin => return origin
  | .error cause => throw (.badOrigin cause)

def path (payload : Option String) : Except Fault String :=
  let path := Text.trim (payload.getD "").toList
  if path.head? ≠ some '/' then .error .relativePath
  else if path.any Text.isBlank then .error .blankInPath
  else match Brackets.check path with
    | .error imbalance => .error (.unbalancedPath imbalance)
    | .ok () => .ok (String.ofList path)

/-- The text between a first and a last character, if the text has both; they are two. -/
def between? (first last : Char) (text : String) : Option String :=
  match text.toList with
  | [] => none
  | c :: cs =>
    if c = first ∧ cs.getLast? = some last then some (String.ofList cs.dropLast) else none

def withAt (tag : String) : String := if tag.toList.head? = some '@' then tag else "@" ++ tag

def params (payload : Option String) : Except Fault Params := do
  match names payload with
  | [namesPart, tagsPart] =>
    let names :=
      match between? '[' ']' namesPart with
      | some inner => Split.onCommas inner
      | none => [namesPart]
    if names.isEmpty then throw .noParamNames
    let names ← names.mapM validName
    match between? '(' ')' tagsPart with
    | none => throw .bareParamTags
    | some inner =>
      match (Split.onCommas inner).map withAt with
      | [] => throw .noParamTags
      | tags => return ⟨names, tags⟩
  | _ => throw .badParams

end Payload

end ServiceLoom.Tag

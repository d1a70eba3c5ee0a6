import ServiceLoom.Template.Helper
import ServiceLoom.Template.Syntax

/-!
# Scopes of templates

What names and paths stand for at a place in a template. Every block that walks through a value
opens a scope, and so does every template that is included.
-/

namespace ServiceLoom.Template

structure Scope where
  value : Json
  locals : List (String × Json) := []
  names : List (String × Json) := []

structure Env where
  /-- The scopes of the open blocks, innermost first. -/
  scopes : List Scope
  root : Json
  templates : String → Option Template
  /-- The text of the body of the inclusion that led here, if it has one. -/
  body : Option String := none
  indent : String := ""

def Env.value (env : Env) : Json :=
  match env.scopes with
  | scope :: _ => scope.value
  | [] => env.root

def Env.locals (env : Env) : List (String × Json) :=
  match env.scopes with
  | scope :: _ => scope.locals
  | [] => []

def Env.named? (env : Env) (name : String) : Option Json :=
  env.scopes.findSome? fun scope => scope.names.lookup name

def index? (key : String) : Option Nat :=
  let digits :=
    match key.toList with
    | '+' :: rest => rest
    | digits => digits
  if digits.isEmpty || !digits.all Char.isDigit then none
  else
    let n : Nat := digits.foldl (fun n d => 10 * n + (d.toNat - 48)) 0
    if n < UInt64.size then some n else none

def follow (v : Json) : List String → Except RenderError (Option Json)
  | [] => .ok (some v)
  | key :: keys =>
    match v with
    | .object members =>
      match members.lookup key with
      | some next => follow next keys
      | none => .ok none
    | .array items =>
      match index? key with
      | some i =>
        match items[i]? with
        | some next => follow next keys
        | none => .ok none
      | none => .error .badIndex
    | _ => .ok none

/-- A path may start with a name that a block uses. One that goes up too far stays at the innermost
scope. -/
def Env.find (env : Env) (p : Path) : Except RenderError (Option Json) :=
  match p.start with
  | .here ups =>
    match p.keys.head?.bind env.named? with
    | some v => follow v p.keys.tail
    | none =>
      match env.scopes[ups]?.or env.scopes.head? with
      | some scope => follow scope.value p.keys
      | none => .ok none
  | .root => follow env.root p.keys
  | .loop ups =>
    match env.scopes[ups]?, p.keys with
    | some scope, name :: _ => .ok (scope.locals.lookup name)
    | _, _ => .ok none

mutual

def evalArg (env : Env) : Arg → Except RenderError (Option Json)
  | .literal v => .ok (some v)
  | .path p => env.find p
  | .call helper args options => do
    let args ← evalArgs env args
    let options ← evalOptions env options
    return some (← callResult helper ⟨args, options⟩)

def evalArgs (env : Env) : List Arg → Except RenderError (List (Option Json))
  | [] => .ok []
  | arg :: args => do
    let value ← evalArg env arg
    let values ← evalArgs env args
    return value :: values

def evalOptions (env : Env) :
    List (String × Arg) → Except RenderError (List (String × Option Json))
  | [] => .ok []
  | (name, arg) :: options => do
    let value ← evalArg env arg
    let values ← evalOptions env options
    return (name, value) :: values

end

def Call.values (env : Env) (call : Call) : Except RenderError Values := do
  return ⟨← evalArgs env call.args, ← evalOptions env call.options⟩

end ServiceLoom.Template

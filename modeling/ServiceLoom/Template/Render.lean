import ServiceLoom.Tag.Options
import ServiceLoom.Template.Output
import ServiceLoom.Template.Scope

/-!
# Rendering templates

A path that leads nowhere is an error where its value is printed or handed to a helper that gives a
value, and also where a block would have to walk through it and has no else part. A value that is
there and is null prints nothing.

An inclusion renders another template, or prints the body of an inclusion. A template may come to
include itself again, but not before it has begun a block; templates that include each other without
end are an error. What a template or block defines is known up to the end of its scope.
-/

namespace ServiceLoom.Template

def loopVariables (i count : Nat) : List (String × Json) :=
  [("index", .int i), ("first", .bool (i == 0)), ("last", .bool (i + 1 == count))]

def bind (names : List String) (value place : Json) : List (String × Json) :=
  (names.zip [value, place]).reverse

def itemScopes (names : List String) (items : List Json) : List Scope :=
  items.zipIdx.map fun (item, i) =>
    ⟨item, loopVariables i items.length, bind names item (.int i)⟩

def memberScopes (names : List String) (members : List (String × Json)) : List Scope :=
  members.zipIdx.map fun ((key, value), i) =>
    let locals := ("key", .string key) :: loopVariables i members.length
    ⟨value, locals, bind names value (.string key)⟩

inductive Plan where
  | body (scopes : List Scope)
  /-- Render the body in the scope around it. -/
  | here
  | otherwise
  | value (v : Json)

def emptyPlan (hasElse : Bool) : Except RenderError Plan :=
  if hasElse then .ok .otherwise else .error .missing

def planEach (names : List String) (hasElse : Bool) (value : Option Json) :
    Except RenderError Plan :=
  match value with
  | some (.array items) =>
    if items.isEmpty && hasElse then .ok .otherwise else .ok (.body (itemScopes names items))
  | some (.object members) =>
    if members.isEmpty && hasElse then .ok .otherwise
    else .ok (.body (memberScopes names members))
  | _ => emptyPlan hasElse

/-- The body sees the loop variables of the scope around it. -/
def planWithin (locals : List (String × Json)) (names : List String) (hasElse : Bool)
    (value : Option Json) : Except RenderError Plan :=
  match value with
  | some v =>
    if isTruthy false v then
      .ok (.body [⟨v, locals, if names.length = 1 then bind names v .null else []⟩])
    else emptyPlan hasElse
  | none => emptyPlan hasElse

def planBlock (locals : List (String × Json)) (helper : Helper) (names : List String)
    (hasElse : Bool) (v : Values) : Except RenderError Plan := do
  match helper with
  | .choice whenTrue => return if ← Helper.chooses whenTrue v then .here else .otherwise
  | .each => planEach names hasElse (← v.arg 0)
  | .within => planWithin locals names hasElse (← v.arg 0)
  | .raw => return .here
  | .test f => return if ← f v then .here else .otherwise
  | .log | .value _ => return .value (← helper.result v)

def writeResult (indent : String) (helper : Helper) (v : Values) (out : Output) :
    Except RenderError Output := do
  let text := display (← helper.result v)
  match helper with
  | .test _ => return out.append text
  | _ => return out.write indent text

/-- Print a value by itself. A nested call may also give the name of a helper, which is then called
without arguments. -/
def writeValue (indent : String) (value : Arg) (v : Json) (out : Output) :
    Except RenderError Output :=
  match value with
  | .call .. =>
    match Helper.ofName? (display v) with
    | some helper => writeResult indent helper {} out
    | none => .ok (out.write indent (display v))
  | _ => .ok (out.write indent (display v))

def membersOf : Json → List (String × Json)
  | .object members => members
  | .array items => items.zipIdx.map fun (item, i) => (toString i, item)
  | .string s => s.toList.zipIdx.map fun (c, i) => (toString i, .string c.toString)
  | _ => []

def withOptions (v : Json) (options : List (String × Option Json)) : Json :=
  match options with
  | [] => v
  | _ =>
    (Json.object (options.foldl
      (fun members (name, value) => putEntry name (fun _ => value.getD .null) members)
      (membersOf v))).sortKeys

def bodyName : String := "@partial-block"

def Env.template? (env : Env) (defined : List (String × Template)) (name : String) :
    Option (Template × Option String) :=
  match if name = bodyName then none else defined.lookup name with
  | some template => some (template, none)
  | none => (env.templates name).map (·, some name)

/-- The scope of an included template. Its value is the first argument or else the value around it.
Named arguments join the value, and are names for all that the template does. -/
def Env.enter (env : Env) (values : Values) : Env :=
  let value :=
    match values.args with
    | [] => env.value
    | v :: _ => v.getD .null
  let names := values.options.map fun (name, value) => (name, value.getD .null)
  let scope : Scope := ⟨withOptions value values.options, env.locals, names⟩
  { env with scopes := scope :: env.scopes }

def define (env : Env) (call : Call) (body : Option Template) (out : Output) :
    Except RenderError Output := do
  let values ← call.values env
  match call.helper, values.args, body with
  | "inline", some (.string name) :: _, some body =>
    return { out with defined := putEntry name (fun _ => body) out.defined }
  | _, _, _ => throw .badDefinition

abbrev Renderer := Env → Option String → Template → Output → Except RenderError Output

def bodyText (deeper : Renderer) (env : Env) (body : Option Template) (out : Output) :
    Except RenderError (Option String × Output) :=
  match body with
  | none => .ok (none, out)
  | some body => do
    let inner ← deeper env none body { out with text := "" }
    return (some inner.text, { inner with text := out.text })

/-- Render the template of an inclusion in its scope. The body comes first, so that the template may
use what the body defines; its text stands in for an unknown template. -/
def renderIncluded (deeper : Renderer) (env : Env) (name indent : String) (body : Option Template)
    (out : Output) : Except RenderError Output := do
  let (text, out) ← bodyText deeper env body out
  match env.template? out.defined name, text with
  | some (template, name), _ =>
    deeper { env with body := text.or env.body, indent := env.indent ++ indent } name template out
  | none, some text => return out.append text
  | none, none => throw .unknownTemplate

/-- Print what an inclusion includes. What follows does not see that another template was begun. -/
def renderInclusion (deeper : Renderer) (env : Env) (i : Inclusion) (body : Option Template)
    (out : Output) : Except RenderError Output := do
  let some name ← evalArg env i.name | throw .missing
  let name := display name
  let values ← Call.values env ⟨name, i.args, i.options⟩
  match if name = bodyName then env.body else none with
  | some text => return out.append text
  | none =>
    if out.current = some name then throw .includesItself
    let after ← out.inScope fun out =>
      out.inside (i.ownLine && (out.lineEnded || !i.indent.isEmpty))
        (renderIncluded deeper (env.enter values) name i.indent body)
    return { after with current := out.current }

mutual

def renderNode (deeper : Renderer) (env : Env) (node : Node) (out : Output) :
    Except RenderError Output :=
  match node with
  | .text s => .ok (out.write env.indent s)
  | .print value => do
    let some v ← evalArg env value | throw .missing
    writeValue env.indent value v out
  | .inline call => do
    let values ← call.values env
    let some helper := Helper.ofName? call.helper | throw .unknownHelper
    writeResult env.indent helper values out
  | .block opening body hasElse otherwise => do
    let values ← opening.call.values env
    let some helper := Helper.ofName? opening.call.helper | throw .unknownHelper
    let plan ← planBlock env.locals helper opening.names hasElse values
    out.inside (out.indentNext || (opening.ownLine && out.lineEnded)) fun out =>
      match plan with
      | .body scopes =>
        out.inScope fun out => scopes.foldlM
          (fun out scope =>
            renderNodes deeper { env with scopes := scope :: env.scopes } body
              { out with current := none })
          out
      | .here => renderNodes deeper env body { out with current := none }
      | .otherwise =>
        if hasElse then renderNodes deeper env otherwise { out with current := none } else .ok out
      | .value v => .ok (out.write env.indent (display v))
  | .inclusion i body => renderInclusion deeper env i body out
  | .definition call body => define env call body out

def renderNodes (deeper : Renderer) (env : Env) (nodes : List Node) (out : Output) :
    Except RenderError Output :=
  match nodes with
  | [] => .ok out
  | node :: nodes => do
    let out ← renderNode deeper env node out
    renderNodes deeper env nodes out

end

def renderTo : Nat → Renderer
  | 0, _, _, _, _ => .error .tooDeep
  | depth + 1, env, name, template, out =>
    renderNodes (renderTo depth) env template { out with current := name }

def deepest : Nat := 500

def render (templates : String → Option Template) (name : String) (template : Template)
    (data : Json) : Except RenderError String := do
  let data := data.sortKeys
  let env : Env := { scopes := [{ value := data }], root := data, templates }
  return (← renderTo deepest env (some name) template {}).text

end ServiceLoom.Template

import ServiceLoom.Template.Naming
import ServiceLoom.Template.Value
import ServiceLoom.Text.Ascii

/-!
# Helpers of templates

What a name in front of arguments means. A helper gives a value, or it is a block that renders its
body. Arguments may be missing: a path may lead nowhere, which most helpers do not accept.
-/

namespace ServiceLoom.Template

inductive RenderError where
  | missing
  | badIndex
  | noArgument
  | notText
  | unknownHelper
  | unknownLevel
  | unknownTemplate
  | includesItself
  | tooDeep
  | badDefinition
  deriving DecidableEq, Repr

/-- The values of arguments, in order and by name; none for a path that leads nowhere. -/
structure Values where
  args : List (Option Json) := []
  options : List (String × Option Json) := []

namespace Values

def arg (i : Nat) (v : Values) : Except RenderError (Option Json) :=
  match v.args[i]? with
  | some value => .ok value
  | none => .error .noArgument

def value (i : Nat) (v : Values) : Except RenderError Json :=
  match v.args[i]? with
  | some (some value) => .ok value
  | _ => .error .noArgument

def option? (name : String) (v : Values) : Option Json := (v.options.lookup name).join

end Values

inductive Helper where
  | choice (whenTrue : Bool)
  | each
  | within
  | raw
  | log
  /-- The body if the test holds; without a body the value of the test. -/
  | test (f : Values → Except RenderError Bool)
  | value (f : Values → Except RenderError Json)

namespace Helper

def naming (f : String → String) : Helper :=
  .value fun v => do
    match ← v.value 0 with
    | .string s => return .string (f s)
    | _ => throw .notText

def relation (f : Json → Json → Bool) : Helper :=
  .test fun v => do return f (← v.value 0) (← v.value 1)

/-- A test of the order of two values; values without an order fail it. -/
def ordered (f : Ordering → Bool) : Helper := relation fun a b => (order? a b).any f

def counts (value : Option Json) : Bool := value.any (isTruthy false)

def negation : Helper := .test fun v => do return !isTruthy false (← v.value 0)

def length : Json → Nat
  | .array items => items.length
  | .object members => members.length
  | .string s => s.utf8ByteSize
  | _ => 0

def find? : Option Json → Option Json → Option Json
  | some (.array items), some (.int i) => if 0 ≤ i then items[i.toNat]? else none
  | some (.object members), some (.string key) => members.lookup key
  | _, _ => none

def lookup : Helper :=
  .value fun v => do
    match find? (← v.arg 0) (← v.arg 1) with
    | some found => return found
    | none => throw .missing

def ofName? : String → Option Helper
  | "if" => some (.choice true)
  | "unless" => some (.choice false)
  | "each" => some .each
  | "with" => some .within
  | "raw" => some .raw
  | "log" => some .log
  | "lookup" => some lookup
  | "eq" => some (relation same)
  | "ne" => some (relation fun a b => !same a b)
  | "gt" => some (ordered (· == .gt))
  | "gte" => some (ordered (· != .lt))
  | "lt" => some (ordered (· == .lt))
  | "lte" => some (ordered (· != .gt))
  | "and" => some (.test fun v => .ok (v.args.all counts))
  | "or" => some (.test fun v => .ok (v.args.any counts))
  | "not" => some negation
  | "len" => some (.value fun v => do return .int (length (← v.value 0)))
  | "lower_first" => some (naming Naming.lowerFirst)
  | "upper_first" => some (naming Naming.upperFirst)
  | "snake_case" => some (naming Naming.snakeCase)
  | _ => none

def levels : List String := ["error", "warn", "info", "debug", "trace"]

def chooses (whenTrue : Bool) (v : Values) : Except RenderError Bool := do
  let zero := v.option? "includeZero" == some (.bool true)
  return (← v.arg 0).any (isTruthy zero) == whenTrue

def checkLevel (v : Values) : Except RenderError Unit :=
  match v.option? "level" with
  | some (.string level) =>
    if Text.lowerAscii level ∈ levels then .ok () else .error .unknownLevel
  | _ => .ok ()

/-- What a helper gives where it has no body: a block prints nothing then. -/
def result (v : Values) : Helper → Except RenderError Json
  | choice whenTrue => do
    let _ ← chooses whenTrue v
    return .string ""
  | each => do
    let _ ← v.arg 0
    return .string ""
  | within => do
    if counts (← v.arg 0) then return .string "" else throw .missing
  | raw => .ok (.string "")
  | log => do
    checkLevel v
    return .string ""
  | test f => (f v).map .bool
  | value f => f v

end Helper

def callResult (helper : String) (v : Values) : Except RenderError Json :=
  match Helper.ofName? helper with
  | some h => h.result v
  | none => .error .unknownHelper

end ServiceLoom.Template

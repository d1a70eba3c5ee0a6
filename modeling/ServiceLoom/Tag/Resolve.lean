import ServiceLoom.Brackets
import ServiceLoom.Text.Ascii
import ServiceLoom.Text.Blank

/-!
# Tag resolution

A token is matched against two pools of names. The longest name that the text after `@` starts
with, up to ASCII case, wins, so a name is never hidden by a shorter one. What follows the name is
nothing, or one parenthesized payload.
-/

namespace ServiceLoom.Tag

inductive Pool where
  | builtin
  | custom
  deriving DecidableEq, Repr

structure Resolved where
  pool : Pool
  name : String
  payload : Option String
  deriving DecidableEq, Repr

inductive PayloadError where
  | textAfterName (rest : String)
  | unbalanced (imbalance : Brackets.Imbalance)
  | textAfterPayload (rest : String)
  /-- The payload never ends. -/
  | unfinished
  deriving DecidableEq, Repr

def PayloadError.message : PayloadError → String
  | textAfterName rest => s!"unexpected text '{rest}' after tag name"
  | unbalanced imbalance => s!"unbalanced payload: {imbalance.message}"
  | textAfterPayload rest => s!"unexpected text '{rest}' after payload"
  | unfinished => "unbalanced payload"

inductive ResolveError where
  | unknown
  | ambiguous (name : String)
  | malformed (name : String) (cause : PayloadError)
  deriving DecidableEq, Repr

def ResolveError.message : ResolveError → String
  | unknown => "no parser matches"
  | ambiguous name => s!"'{name}' is registered as both built-in and custom"
  | malformed _ cause => cause.message

def candidates (body : List Char) (names : List String) : List String :=
  names.filter fun name => name != "" && Text.startsWithFold name.toList body

/-- The longest candidate; of several, the last one listed. -/
def longest? (candidates : List String) : Option String :=
  candidates.foldl (fun best name =>
    match best with
    | none => some name
    | some b => if b.length ≤ name.length then some name else some b) none

def longestMatch? (token : List Char) (names : List String) : Option String :=
  match token with
  | '@' :: body => longest? (candidates body names)
  | _ => none

/-- The text up to the parenthesis that closes the first one, and the text after it; `depth` are
already open. -/
def closeParen (depth : Nat) : List Char → Option (List Char × List Char)
  | [] => none
  | '(' :: cs => (closeParen (depth + 1) cs).map fun (inner, rest) => ('(' :: inner, rest)
  | ')' :: cs =>
    if depth ≤ 1 then some ([], cs)
    else (closeParen (depth - 1) cs).map fun (inner, rest) => (')' :: inner, rest)
  | c :: cs => (closeParen depth cs).map fun (inner, rest) => (c :: inner, rest)

def payload (rest : List Char) : Except PayloadError (Option String) :=
  match rest with
  | [] => .ok none
  | '(' :: cs =>
    match Brackets.check rest with
    | .error imbalance => .error (.unbalanced imbalance)
    | .ok () =>
      match closeParen 1 cs with
      | none => .error .unfinished
      | some (inner, []) => .ok (some (String.ofList (Text.trim inner)))
      | some (_, after) => .error (.textAfterPayload (String.ofList after))
  | _ => .error (.textAfterName (String.ofList rest))

def choose (token : List Char) (builtin custom : List String) :
    Except ResolveError (Pool × String) :=
  match longestMatch? token builtin, longestMatch? token custom with
  | none, none => .error .unknown
  | some b, none => .ok (.builtin, b)
  | none, some c => .ok (.custom, c)
  | some b, some c =>
    if c.length < b.length then .ok (.builtin, b)
    else if b.length < c.length then .ok (.custom, c)
    else .error (.ambiguous b)

def resolve (token : String) (builtin custom : List String) : Except ResolveError Resolved := do
  let (pool, name) ← choose token.toList builtin custom
  match payload (token.toList.drop (name.length + 1)) with
  | .ok text => return ⟨pool, name, text⟩
  | .error cause => throw (.malformed name cause)

end ServiceLoom.Tag

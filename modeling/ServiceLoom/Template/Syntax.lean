import ServiceLoom.Json.Basic

/-!
# Templates

Text with values in it. Blocks choose or repeat their body; a block may have an else part, which is
not the same as an empty one. A template may include others by their names, and define some itself.
-/

namespace ServiceLoom.Template

inductive Start where
  /-- At the current value, or at the one that many blocks further out. -/
  | here (ups : Nat)
  | root
  | loop (ups : Nat)
  deriving DecidableEq, Repr

structure Path where
  start : Start
  keys : List String
  deriving DecidableEq, Repr

inductive Arg where
  | literal (v : Json)
  | path (p : Path)
  | call (helper : String) (args : List Arg) (options : List (String × Arg))
  deriving Repr, Inhabited

structure Call where
  helper : String
  args : List Arg := []
  options : List (String × Arg) := []
  deriving Repr, Inhabited

structure Opening where
  call : Call
  names : List String := []
  /-- Whether the tag had a line for itself, which is gone. -/
  ownLine : Bool := false
  deriving Repr, Inhabited

structure Inclusion where
  name : Arg
  args : List Arg := []
  options : List (String × Arg) := []
  indent : String := ""
  ownLine : Bool := false
  deriving Repr, Inhabited

inductive Node where
  | text (s : String)
  | print (value : Arg)
  | inline (call : Call)
  | block (opening : Opening) (body : List Node) (hasElse : Bool) (otherwise : List Node)
  /-- Another template. It may include the body, which also stands in for it if it is unknown. -/
  | inclusion (inclusion : Inclusion) (body : Option (List Node))
  | definition (call : Call) (body : Option (List Node))
  deriving Repr, Inhabited

end ServiceLoom.Template

abbrev ServiceLoom.Template := List ServiceLoom.Template.Node

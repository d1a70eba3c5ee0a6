import ServiceLoom.Declaration.TypeExpr
import ServiceLoom.Error
import ServiceLoom.Service.FieldType

/-!
# Field types from type expressions

Named types, slices, maps and pointers become field types; `...` is allowed only outermost, and only
where the caller allows it. A slice of bytes is `bytes`.
-/

namespace ServiceLoom

namespace FieldType

def ofIdent (name : String) : FieldType :=
  if name ∈ builtinNames then builtin name else imported none name

/-- A type expression that has no place in a service. -/
inductive Misplaced where
  | variadic (expr : TypeExpr)
  | shape (expr : TypeExpr)
  deriving DecidableEq, Repr

def Misplaced.message : Misplaced → String
  | variadic expr => s!"variadic type {expr.text} is only allowed on the last parameter"
  | shape expr => s!"unsupported type shape {expr.text}"

def ofExpr (allowVariadic : Bool) : TypeExpr → Except Misplaced FieldType
  | .ident name => .ok (ofIdent name)
  | .selector package name => .ok (.imported (some package) name)
  | .slice elem =>
    if elem = .ident "byte" then .ok .bytes
    else (ofExpr false elem).map .slice
  | .ellipsis elem =>
    if allowVariadic then (ofExpr false elem).map .variadic
    else .error (.variadic (.ellipsis elem))
  | .map key value => do
    let key ← ofExpr false key
    let value ← ofExpr false value
    return .map key value
  | .star elem => (ofExpr false elem).map .pointer
  | .array len elem => .error (.shape (.array len elem))
  | .chan elem => .error (.shape (.chan elem))
  | .func => .error (.shape .func)
  | .struct => .error (.shape .struct)
  | .interface => .error (.shape .interface)

end FieldType

def convertType (entity : String) (expr : TypeExpr) (allowVariadic : Bool) :
    Except Error FieldType :=
  match FieldType.ofExpr allowVariadic expr with
  | .ok type => .ok type
  | .error misplaced => .error (.invalidDeclaration entity misplaced.message)

end ServiceLoom

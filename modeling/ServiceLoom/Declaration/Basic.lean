import ServiceLoom.Declaration.TypeExpr

/-!
# Declarations

Interfaces as they were declared. Nothing is checked here: comments are raw lines, and a field
without a name has the empty one.
-/

namespace ServiceLoom

structure FieldDecl where
  name : String := ""
  type : TypeExpr
  docs : List String := []
  deriving DecidableEq, Repr

/-- The first parameter and the last result are the context and the error. -/
structure MethodDecl where
  name : String
  docs : List String := []
  params : List FieldDecl := []
  results : List FieldDecl := []
  deriving DecidableEq, Repr

structure InterfaceDecl where
  name : String
  docs : List String := []
  embeds : List String := []
  methods : List MethodDecl := []
  deriving DecidableEq, Repr

structure Declaration where
  package : String
  interfaces : List InterfaceDecl := []
  deriving DecidableEq, Repr

end ServiceLoom

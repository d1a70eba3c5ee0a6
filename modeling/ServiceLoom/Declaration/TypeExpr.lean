/-!
# Type expressions

Types as they were declared, of any shape, and the text they are written as.
-/

namespace ServiceLoom

inductive TypeExpr where
  | ident (name : String)
  | selector (package name : String)
  | slice (elem : TypeExpr)
  | ellipsis (elem : TypeExpr)
  | map (key value : TypeExpr)
  | star (elem : TypeExpr)
  | array (len : String) (elem : TypeExpr)
  | chan (elem : TypeExpr)
  | func
  | struct
  | interface
  deriving DecidableEq, Repr, Inhabited

def TypeExpr.text : TypeExpr → String
  | ident name => name
  | selector package name => package ++ "." ++ name
  | slice elem => "[]" ++ elem.text
  | ellipsis elem => "..." ++ elem.text
  | map key value => "map[" ++ key.text ++ "]" ++ value.text
  | star elem => "*" ++ elem.text
  | array len elem => "[" ++ len ++ "]" ++ elem.text
  | chan elem => "chan " ++ elem.text
  | func => "func"
  | struct => "struct\x7b\x7d"
  | interface => "interface\x7b\x7d"

end ServiceLoom

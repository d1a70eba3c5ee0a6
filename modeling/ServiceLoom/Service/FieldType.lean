/-!
# Field types

The types arguments and results may have. A variadic type stands for the rest of an argument list.
-/

namespace ServiceLoom

inductive FieldType where
  | builtin (name : String)
  /-- A named type; without a package it is declared beside the service. -/
  | imported (package : Option String) (name : String)
  | slice (elem : FieldType)
  | variadic (elem : FieldType)
  | map (key value : FieldType)
  | pointer (elem : FieldType)
  | bytes
  deriving DecidableEq, Repr, Inhabited

namespace FieldType

def builtinNames : List String :=
  ["bool", "string", "int", "int8", "int16", "int32", "int64", "uint", "uint8", "uint16", "uint32",
    "uint64", "uintptr", "float32", "float64", "complex64", "complex128", "byte", "rune", "error",
    "any"]

def text : FieldType → String
  | builtin name => name
  | imported none name => name
  | imported (some package) name => package ++ "." ++ name
  | slice elem => "[]" ++ elem.text
  | variadic elem => "..." ++ elem.text
  | map key value => "map[" ++ key.text ++ "]" ++ value.text
  | pointer elem => "*" ++ elem.text
  | bytes => "[]byte"

def hasLen : FieldType → Bool
  | slice _ | variadic _ | map _ _ | bytes => true
  | builtin _ | imported _ _ | pointer _ => false

end FieldType

end ServiceLoom

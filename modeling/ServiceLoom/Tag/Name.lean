import ServiceLoom.Error
import ServiceLoom.Text.Ascii

/-!
# Tag names

A tag name is not empty and is written with ASCII letters, digits, `-` and `_`. Names are compared
up to case, so they are kept in lower case.
-/

namespace ServiceLoom

structure TagName where
  text : String
  deriving DecidableEq, Repr

namespace TagName

def allowed (c : Char) : Bool := Text.isAsciiWord c || c == '-' || c == '_'

def make (name : String) : Except Error TagName :=
  if name = "" then .error (.tagRejected name "tag name cannot be empty")
  else match name.toList.find? (!allowed ·) with
    | some c => .error (.tagRejected name s!"character '{c}' is outside [A-Za-z0-9-_]")
    | none => .ok ⟨Text.lowerAscii name⟩

end TagName

end ServiceLoom

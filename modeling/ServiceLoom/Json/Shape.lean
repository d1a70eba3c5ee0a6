/-!
# Shapes of JSON documents

What a reader wants of a document. A member of an object that it does not know is skipped: its text
has to be JSON, but its value need not be one that can be held.
-/

namespace ServiceLoom.Json

inductive Shape where
  | whole
  | skipped
  | items (item : Shape)
  /-- An object with the known keys. -/
  | members (known : List (String × Shape))
  deriving Repr

namespace Shape

def isSkipped : Shape → Bool
  | skipped => true
  | _ => false

/-- The shape of the items of an array; one that stands in the place of an object is wanted whole.
-/
def item : Shape → Shape
  | items item => item
  | skipped => skipped
  | whole | members _ => whole

def member (key : String) : Shape → Shape
  | members known => (known.lookup key).getD skipped
  | skipped => skipped
  | whole | items _ => whole

end Shape

end ServiceLoom.Json

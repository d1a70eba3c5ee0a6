/-!
# Exit codes
-/

namespace ServiceLoom

inductive ExitCode where
  | success
  /-- Something could not be loaded or written. -/
  | failure
  /-- An interface is not a service. -/
  | invalidInput
  /-- An artifact failed and the others were made. -/
  | incomplete
  deriving DecidableEq, Repr

namespace ExitCode

def default : ExitCode := success

def code : ExitCode → Nat
  | success => 0
  | failure => 1
  | invalidInput => 2
  | incomplete => 3

def text (e : ExitCode) : String := toString e.code

def isSuccess (e : ExitCode) : Bool := e.code == 0

end ExitCode

end ServiceLoom

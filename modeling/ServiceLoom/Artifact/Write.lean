import ServiceLoom.Abort
import ServiceLoom.Artifact.Basic
import ServiceLoom.File.System
import ServiceLoom.Text.Search

/-!
# Writing artifacts

A file that is not there is made. One that is there is replaced if its artifact says so, else
extended if its artifact says so and the text is not in it yet, and else kept. No artifact is
written outside the root it is meant for.
-/

namespace ServiceLoom

inductive Outcome where
  | created
  | overwritten
  | merged
  | unchanged
  | skipped
  deriving DecidableEq, Repr

def Outcome.word : Outcome → String
  | created => "created"
  | overwritten => "overwritten"
  | merged => "merged"
  | unchanged => "unchanged"
  | skipped => "skipped"

namespace Artifact

/-- The first component of a path that could lead out of the directory the path is in. -/
def escaping? (path : String) : Option FilePath.Component :=
  (FilePath.components path).find? fun c => c != .current && !c.isNormal

def target (root : String) (a : Artifact) : Except Abort String :=
  match escaping? a.relativePath with
  | some component => .error ⟨[], .escape a.relativePath component⟩
  | none => .ok (FilePath.join root a.relativePath)

def mergeOutcome (a : Artifact) (existing : String) : Outcome :=
  if Text.occursIn a.content.toList existing.toList then .unchanged else .merged

variable {m : Type → Type} [Monad m] [FileSystem m]

/-- What writing to a target would do; nothing is written. -/
def plan (a : Artifact) (target : String) : ExceptT Abort m Outcome := do
  if !(← FileSystem.present target) then return .created
  else if a.descriptor.overwrite then return .overwritten
  else if a.descriptor.merge then
    match ← FileSystem.readText target with
    | some existing => return a.mergeOutcome existing
    | none => throw (.file (.readTarget target))
  else return .skipped

def store (a : Artifact) (target : String) : ExceptT Abort m Unit := do
  if let some parent := FilePath.parent? target then
    if !(← FileSystem.createDirs parent) then throw (.file (.createDirectory parent))
  if !(← FileSystem.writeText target a.content) then throw (.file (.writeTarget target))

def extend (a : Artifact) (target : String) : ExceptT Abort m Unit := do
  match ← FileSystem.appendText target a.content with
  | .done => return ()
  | .notOpened => throw (.file (.openTarget target))
  | .notWritten => throw (.file (.appendTarget target))

def perform (a : Artifact) (target : String) : Outcome → ExceptT Abort m Unit
  | .created | .overwritten => a.store target
  | .merged => a.extend target
  | .unchanged | .skipped => return ()

def persist (a : Artifact) (target : String) : ExceptT Abort m Outcome := do
  let outcome ← a.plan target
  a.perform target outcome
  return outcome

def write (root : String) (a : Artifact) : ExceptT Abort m (String × Outcome) := do
  let target ← a.target root
  return (target, ← a.persist target)

end Artifact

end ServiceLoom

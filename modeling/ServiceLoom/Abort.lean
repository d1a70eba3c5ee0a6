import ServiceLoom.Error
import ServiceLoom.File.Path

/-!
# Aborts

A command that cannot go on says what it was doing, from the whole to the part, and why it stopped.
-/

namespace ServiceLoom

inductive Activity where
  | readDeclaration (path : String)
  | decodeDeclaration (path : String)
  | readConfig (path : String)
  | loadConfig (path : String)
  | prepareArtifacts
  | buildServices (declaration : String)
  | confine (root : String)
  | readTarget (target : String)
  | createDirectory (path : String)
  | writeTarget (target : String)
  | openTarget (target : String)
  | appendTarget (target : String)
  deriving DecidableEq, Repr

def Activity.message : Activity → String
  | readDeclaration path => s!"failed to read declaration {path}"
  | decodeDeclaration path => s!"invalid declaration {path}"
  | readConfig path => s!"failed to read config {path}"
  | loadConfig path => s!"failed to load config {path}"
  | prepareArtifacts => "failed to prepare configured artifacts"
  | buildServices declaration => s!"failed to build service model from {declaration}"
  | confine root => s!"refusing to write outside {root}"
  | readTarget target => s!"failed to read {target}"
  | createDirectory path => s!"failed to create directory {path}"
  | writeTarget target => s!"failed to write {target}"
  | openTarget target => s!"failed to open {target}"
  | appendTarget target => s!"failed to append to {target}"

inductive Cause where
  | error (error : Error)
  | escape (path : String) (component : FilePath.Component)
  | fileSystem
  | json
  deriving DecidableEq, Repr

/-- The account that a cause gives of itself, where its words are this program's own. -/
def Cause.message? : Cause → Option String
  | error e => some e.message
  | escape path component =>
    some s!"artifact path '{path}' escapes the output root ({component.word})"
  | fileSystem | json => none

structure Abort where
  activities : List Activity := []
  cause : Cause
  deriving DecidableEq, Repr

namespace Abort

def file (activity : Activity) : Abort := ⟨[activity], .fileSystem⟩

def during {α : Type} (activity : Activity) : Except Abort α → Except Abort α
  | .ok a => .ok a
  | .error abort => .error { abort with activities := activity :: abort.activities }

def ofError {α : Type} (activity : Activity) : Except Error α → Except Abort α
  | .ok a => .ok a
  | .error e => .error ⟨[activity], .error e⟩

end Abort

end ServiceLoom

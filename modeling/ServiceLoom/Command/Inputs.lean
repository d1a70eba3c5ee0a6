import ServiceLoom.Abort
import ServiceLoom.Build.Service
import ServiceLoom.Config.Basic
import ServiceLoom.Declaration.Json
import ServiceLoom.File.System

/-!
# Inputs of a command

The declaration and the configuration, read from files. Without a configuration the defaults apply.
-/

namespace ServiceLoom

variable {m : Type → Type} [Monad m] [FileSystem m]

def Declaration.load (path : String) : ExceptT Abort m Declaration := do
  match ← FileSystem.readText path with
  | none => throw (.file (.readDeclaration path))
  | some source =>
    match Declaration.parse? source with
    | none => throw ⟨[.decodeDeclaration path], .json⟩
    | some declaration => return declaration

def Config.load : Option String → ExceptT Abort m Config
  | none => return {}
  | some path => do
    match ← FileSystem.readText path with
    | none => throw (.file (.readConfig path))
    | some source => Abort.ofError (.loadConfig path) (Config.parse source)

/-- The builder that a configuration asks for; a command knows no custom tags. -/
def Config.builder (c : Config) : Builder := { convention := c.model }

end ServiceLoom

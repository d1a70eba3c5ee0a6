import ServiceLoom.Command.Inputs
import ServiceLoom.Service.Json

/-!
# Inspecting services

All services of a declaration as the builder sees them; the first rejected interface ends it.
-/

namespace ServiceLoom.Inspect

variable {m : Type → Type} [Monad m] [FileSystem m]

def fromFiles (declaration : String) (config : Option String) : ExceptT Abort m (List Service) := do
  let d ← Declaration.load declaration
  let c ← Config.load config
  Abort.ofError (.buildServices declaration) (c.builder.buildAll d)

def toJson (services : List Service) : Json := .array (services.map Service.toJson)

end ServiceLoom.Inspect

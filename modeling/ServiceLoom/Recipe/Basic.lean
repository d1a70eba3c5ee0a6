import ServiceLoom.Artifact.Basic
import ServiceLoom.Error
import ServiceLoom.Service.Basic

/-!
# Recipes

A recipe makes at most one artifact of a service: it is gated by conditions, its descriptor is
resolved, the artifact is created, and then hooks, service generators and method generators work on
it in that order. The first error ends it.
-/

namespace ServiceLoom

/-- A fixed value, or one that depends on the service. -/
inductive Setting (α : Type) where
  | const (value : α)
  | ofService (f : Service → α)

def Setting.resolve {α : Type} (s : Service) : Setting α → α
  | const value => value
  | ofService f => f s

structure ServiceGenerator where
  name : String
  conditions : List (Service → Bool) := []
  run : Artifact → Service → Except Error Artifact

structure MethodGenerator where
  name : String
  conditions : List (Service → Method → Bool) := []
  /-- Which methods, in which order and how often; all of them in order if there is none. -/
  extract : Option (Service → List Method) := none
  run : Artifact → Service → Method → Except Error Artifact

abbrev Creator := Descriptor → Service → Except Error Artifact

/-- An artifact with nothing in it, or with a first line. -/
def bufferCreator (header : Option String) : Creator := fun descriptor _ =>
  .ok (match header with
    | some line => Artifact.appendLine { descriptor := descriptor } line
    | none => { descriptor := descriptor })

structure Recipe where
  fileType : String
  path : Setting String := .const ""
  file : Setting String
  overwrite : Setting Bool := .const false
  merge : Setting Bool := .const false
  conditions : List (Service → Bool) := []
  before : List (Artifact → Service → Except Error Artifact) := []
  serviceGenerators : List ServiceGenerator := []
  methodGenerators : List MethodGenerator := []
  create : Creator := bufferCreator none

namespace ServiceGenerator

def applies (g : ServiceGenerator) (s : Service) : Bool := g.conditions.all (· s)

end ServiceGenerator

namespace MethodGenerator

def applies (g : MethodGenerator) (s : Service) (m : Method) : Bool := g.conditions.all (· s m)

def methods (g : MethodGenerator) (s : Service) : List Method :=
  match g.extract with
  | some extract => extract s
  | none => s.methods

end MethodGenerator

namespace Recipe

def serviceGeneratorNames (r : Recipe) : List String := r.serviceGenerators.map (·.name)

def methodGeneratorNames (r : Recipe) : List String := r.methodGenerators.map (·.name)

def addServiceGenerator (r : Recipe) (g : ServiceGenerator) : Except Error Recipe :=
  if g.name ∈ r.serviceGeneratorNames then
    .error (.configuration s!"service generator '{g.name}' registered twice")
  else .ok { r with serviceGenerators := r.serviceGenerators ++ [g] }

def addMethodGenerator (r : Recipe) (g : MethodGenerator) : Except Error Recipe :=
  if g.name ∈ r.methodGeneratorNames then
    .error (.configuration s!"method generator '{g.name}' registered twice")
  else .ok { r with methodGenerators := r.methodGenerators ++ [g] }

def appliesTo (r : Recipe) (s : Service) : Bool := r.conditions.all (· s)

def descriptor (r : Recipe) (s : Service) : Descriptor where
  fileType := r.fileType
  path := r.path.resolve s
  name := r.file.resolve s
  overwrite := r.overwrite.resolve s
  merge := r.merge.resolve s

def runHooks (r : Recipe) (s : Service) (a : Artifact) : Except Error Artifact :=
  r.before.foldlM (fun a hook => hook a s) a

def runServiceGenerators (r : Recipe) (s : Service) (a : Artifact) : Except Error Artifact :=
  r.serviceGenerators.foldlM (fun a g => if g.applies s then g.run a s else .ok a) a

def runMethodGenerator (s : Service) (a : Artifact) (g : MethodGenerator) :
    Except Error Artifact :=
  (g.methods s).foldlM (fun a m => if g.applies s m then g.run a s m else .ok a) a

def runMethodGenerators (r : Recipe) (s : Service) (a : Artifact) : Except Error Artifact :=
  r.methodGenerators.foldlM (runMethodGenerator s) a

/-- The artifact of a service; none if a condition does not hold. -/
def generate (r : Recipe) (s : Service) : Except Error (Option Artifact) :=
  if r.appliesTo s then do
    let created ← r.create (r.descriptor s) s
    let hooked ← r.runHooks s created
    let served ← r.runServiceGenerators s hooked
    return some (← r.runMethodGenerators s served)
  else .ok none

end Recipe

namespace Condition

def flagAnywhere (flag : String) (s : Service) : Bool := s.isEnabledAnywhere flag

def serviceFlag (flag : String) (s : Service) : Bool := s.isEnabled flag

def methodFlag (flag : String) (_ : Service) (m : Method) : Bool := m.isEnabled flag

def capability (c : Capability) (s : Service) : Bool := s.hasCapability c

end Condition

/-- The methods that have a flag, in order. -/
def methodsWithFlag (flag : String) (s : Service) : List Method :=
  s.methods.filter (·.isEnabled flag)

end ServiceLoom

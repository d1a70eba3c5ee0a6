import ServiceLoom.Artifact.Write
import ServiceLoom.Command.ExitCode
import ServiceLoom.Command.Inputs
import ServiceLoom.Config.Book

/-!
# Generating artifacts

Every interface is built on its own, every artifact of every service is made on its own, and all
targets are checked before the first one is written. A dry run plans every artifact on the files as
they are.
-/

namespace ServiceLoom

namespace Generate

structure Rejection where
  interface : String
  error : Error
  deriving DecidableEq, Repr

structure Entry where
  path : String
  outcome : Outcome
  bytes : Nat
  deriving DecidableEq, Repr

structure Summary where
  services : List String := []
  entries : List Entry := []
  rejections : List Rejection := []
  failures : List Failure := []
  dryRun : Bool := false
  deriving DecidableEq, Repr

/-- Interfaces in order, each built or rejected. -/
structure Census where
  services : List Service := []
  rejections : List Rejection := []
  deriving DecidableEq, Repr

namespace Census

def add (interface : InterfaceDecl) : Except Error Service → Census → Census
  | .ok service, c => { c with services := service :: c.services }
  | .error error, c => { c with rejections := ⟨interface.name, error⟩ :: c.rejections }

def ofInterfaces (b : Builder) (package : String) (interfaces : List InterfaceDecl) : Census :=
  interfaces.foldr (fun i c => c.add i (b.buildIn package i)) {}

def of (b : Builder) (d : Declaration) : Census := ofInterfaces b d.package d.interfaces

end Census

namespace Summary

def exitCode (s : Summary) : ExitCode :=
  if !s.rejections.isEmpty then .invalidInput
  else if !s.failures.isEmpty then .incomplete
  else .success

def toJson (s : Summary) : Json :=
  .object [
    ("services", .ofStrings s.services),
    ("artifacts", .array (s.entries.map fun e =>
      .object [("path", .string e.path), ("outcome", .string e.outcome.word),
        ("bytes", .int e.bytes)])),
    ("model_errors", .array (s.rejections.map fun r =>
      .object [("interface", .string r.interface), ("error", .string r.error.message)])),
    ("failures", .array (s.failures.map fun f =>
      .object [("artifact", .string f.recipe), ("service", .string f.service),
        ("error", .string f.error.message)])),
    ("dry_run", .bool s.dryRun)]

end Summary

/-- The targets of all artifacts in a root, or the first that leads out of it. -/
def targets (out : String) (artifacts : List Artifact) : Except Abort (List (Artifact × String)) :=
  Abort.during (.confine out) (artifacts.mapM fun a => do return (a, ← a.target out))

variable {m : Type → Type} [Monad m] [FileSystem m]

def emit (dryRun : Bool) (a : Artifact) (target : String) : ExceptT Abort m Entry := do
  let outcome ← if dryRun then a.plan target else a.persist target
  return ⟨target, outcome, a.content.utf8ByteSize⟩

def run (d : Declaration) (c : Config) (out : String) (dryRun : Bool) :
    ExceptT Abort m Summary := do
  let book ← Abort.ofError .prepareArtifacts c.book
  let census := Census.of c.builder d
  let report := book.generateAll census.services
  let targets ← targets out report.artifacts
  let entries ← targets.mapM fun (a, target) => emit dryRun a target
  return {
    services := census.services.map (·.name)
    entries := entries
    rejections := census.rejections
    failures := report.failures
    dryRun := dryRun
  }

def fromFiles (declaration : String) (config : Option String) (out : String) (dryRun : Bool) :
    ExceptT Abort m Summary := do
  let d ← Declaration.load declaration
  let c ← Config.load config
  run d c out dryRun

end Generate

end ServiceLoom

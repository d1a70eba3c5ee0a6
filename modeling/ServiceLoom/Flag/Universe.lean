import ServiceLoom.Error
import ServiceLoom.Flag.Set
import ServiceLoom.Text.Ascii
import ServiceLoom.Text.Blank

/-!
# Flag universes

The flags one kind of entity may carry, and named groups of them. Groups never nest. Every
directive expands its names first and fails on the first unknown one, so a failing directive leaves
its target as it was.
-/

namespace ServiceLoom

structure FlagUniverse where
  kind : EntityKind
  allowed : FlagSet
  groups : List (String × List String)
  deriving DecidableEq, Repr

structure UnknownFlag where
  kind : EntityKind
  value : String
  deriving DecidableEq, Repr

namespace UnknownFlag

def message (e : UnknownFlag) : String := s!"'{e.value}' is not a {e.kind.word} flag or group"

def toError (e : UnknownFlag) (entity directive : String) : Error :=
  .invalidFlag e.kind entity directive e.value

end UnknownFlag

namespace FlagUniverse

def group? (u : FlagUniverse) (name : String) : Option (List String) := u.groups.lookup name

def addGroup (u : FlagUniverse) (name : String) (members : List String) :
    Except Error FlagUniverse :=
  let kind := u.kind.word
  if u.allowed.contains name then .error (.configuration s!"{kind} group '{name}' shadows a flag")
  else if (u.group? name).isSome then
    .error (.configuration s!"{kind} group '{name}' defined twice")
  else match members.find? (!u.allowed.contains ·) with
    | some member =>
      .error (.configuration
        s!"{kind} group '{name}' lists '{member}', which is not a {kind} flag")
    | none => .ok { u with groups := u.groups ++ [(name, members)] }

def make (kind : EntityKind) (flags : List String) (groups : List (String × List String)) :
    Except Error FlagUniverse :=
  groups.foldlM (fun u group => u.addGroup group.1 group.2) ⟨kind, FlagSet.ofList flags, []⟩

def normalize (name : String) : String :=
  Text.lowerAscii (String.ofList (Text.trim name.toList))

def expandName (u : FlagUniverse) (name : String) : Except UnknownFlag (List String) :=
  let name := normalize name
  match u.group? name with
  | some members => .ok members
  | none => if u.allowed.contains name then .ok [name] else .error ⟨u.kind, name⟩

def expand (u : FlagUniverse) : List String → Except UnknownFlag (List String)
  | [] => .ok []
  | name :: names => do
    let leaves ← u.expandName name
    let rest ← u.expand names
    return leaves ++ rest

/-- Take over the flags of `reference` that exist in this universe. -/
def inherit (u : FlagUniverse) (target reference : FlagSet) : FlagSet :=
  target.insertAll (reference.flags.filter u.allowed.contains)

/-- Set every flag of the universe to `enabled`, then the named ones to the opposite. -/
def allBut (u : FlagUniverse) (enabled : Bool) (names : List String) (target : FlagSet) :
    Except UnknownFlag FlagSet := do
  let leaves ← u.expand names
  return if enabled then (target.insertAll u.allowed.flags).eraseAll leaves
    else (target.eraseAll u.allowed.flags).insertAll leaves

def add (u : FlagUniverse) (names : List String) (target : FlagSet) :
    Except UnknownFlag FlagSet := do
  return target.insertAll (← u.expand names)

def remove (u : FlagUniverse) (names : List String) (target : FlagSet) :
    Except UnknownFlag FlagSet := do
  return target.eraseAll (← u.expand names)

def only (u : FlagUniverse) (names : List String) : Except UnknownFlag FlagSet := do
  return FlagSet.ofList (← u.expand names)

def middlewareFlags : List String :=
  ["logging", "error-logging", "recovering", "caching", "tracing", "metrics", "validating"]

def httpFlags : List String := ["http-server", "http-client", "http-converter"]

def grpcFlags : List String := ["grpc-server", "grpc-client", "grpc-converter"]

def transportFlags : List String := ["endpoints", "exchanges"]

def leafFlags : List String := middlewareFlags ++ httpFlags ++ grpcFlags ++ transportFlags

def standardGroups : List (String × List String) :=
  [("middleware", middlewareFlags), ("http", httpFlags), ("grpc", grpcFlags),
    ("transport", transportFlags)]

/-- The standard service universe; only a service has an entry point, `main`. -/
def service : FlagUniverse := ⟨.service, FlagSet.ofList (leafFlags ++ ["main"]), standardGroups⟩

def method : FlagUniverse := ⟨.method, FlagSet.ofList leafFlags, standardGroups⟩

end FlagUniverse

end ServiceLoom

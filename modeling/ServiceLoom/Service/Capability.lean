import ServiceLoom.Text.Blank

/-!
# Capabilities

A service declares a capability by embedding an interface of a known name; a package in front of
the name does not matter.
-/

namespace ServiceLoom

inductive Capability where
  | validator
  deriving DecidableEq, Repr

namespace Capability

def all : List Capability := [validator]

def word : Capability → String
  | validator => "validator"

def lastSegment (name : String) : String :=
  String.ofList ((Text.cutWhere (· == '.') name.toList).getLastD [])

def ofEmbed? (name : String) : Option Capability :=
  if lastSegment name = "Validator" then some validator else none

/-- Each capability at most once, in a fixed order. -/
def ofEmbeds (embeds : List String) : List Capability :=
  all.filter fun c => embeds.any fun name => ofEmbed? name == some c

end Capability

end ServiceLoom

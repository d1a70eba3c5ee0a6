import ServiceLoom.Flag.Set
import ServiceLoom.Service.Capability
import ServiceLoom.Service.FieldType
import ServiceLoom.Service.Origin
import ServiceLoom.Tag.Options

/-!
# Services

The checked model of an interface: methods with their arguments and results, the flags that are on,
and what tags said about each part. The context parameter and the error result are not part of it.
-/

namespace ServiceLoom

structure Argument where
  name : String
  aliasName : String
  type : FieldType
  origin : Origin
  originTagged : Bool
  docs : List String
  tags : TagOptions
  deriving DecidableEq, Repr

structure Field where
  name : String
  aliasName : String
  type : FieldType
  deriving DecidableEq, Repr

structure Method where
  service : String
  name : String
  aliasName : String
  docs : List String
  arguments : List Argument
  results : List Field
  flags : FlagSet
  httpMethod : Option String
  httpPath : Option String
  logsIgnore : List String
  logsLen : List String
  tags : TagOptions
  deriving DecidableEq, Repr

structure Service where
  name : String
  aliasName : String
  package : String
  docs : List String
  methods : List Method
  flags : FlagSet
  httpPrefix : Option String
  capabilities : List Capability
  tags : TagOptions
  deriving DecidableEq, Repr

namespace Method

def isEnabled (m : Method) (flag : String) : Bool := m.flags.contains flag

def argument? (m : Method) (name : String) : Option Argument := m.arguments.find? (·.name == name)

def result? (m : Method) (name : String) : Option Field := m.results.find? (·.name == name)

def hasField (m : Method) (name : String) : Bool :=
  (m.argument? name).isSome || (m.result? name).isSome

/-- The type of the argument of that name, or else of the result of that name. -/
def typeOf? (m : Method) (name : String) : Option FieldType :=
  ((m.argument? name).map (·.type)).or ((m.result? name).map (·.type))

end Method

namespace Service

def isEnabled (s : Service) (flag : String) : Bool := s.flags.contains flag

/-- On the service itself or on one of its methods. -/
def isEnabledAnywhere (s : Service) (flag : String) : Bool :=
  s.isEnabled flag || s.methods.any (·.isEnabled flag)

def method? (s : Service) (name : String) : Option Method := s.methods.find? (·.name == name)

def hasCapability (s : Service) (c : Capability) : Bool := s.capabilities.contains c

end Service

end ServiceLoom

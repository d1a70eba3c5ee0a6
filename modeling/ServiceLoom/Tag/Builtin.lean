/-!
# Built-in tags

The tags each kind of entity understands by itself, and the names they are written with.
-/

namespace ServiceLoom.Tag

inductive ServiceTag where
  | generate
  | generateAll
  | aliasName
  | httpPrefix
  deriving DecidableEq, Repr

inductive MethodTag where
  | enable
  | disable
  | enableAll
  | disableAll
  | aliasName
  | params
  | logsIgnore
  | logsLen
  | httpMethod
  | httpPath
  deriving DecidableEq, Repr

inductive ParamTag where
  | aliasName
  | httpOrigin
  deriving DecidableEq, Repr

namespace ServiceTag

def all : List ServiceTag := [generate, generateAll, aliasName, httpPrefix]

def name : ServiceTag → String
  | generate => "generate"
  | generateAll => "generate-all"
  | aliasName => "alias"
  | httpPrefix => "http-prefix"

def names : List String := all.map name

def ofName? (text : String) : Option ServiceTag := all.find? (·.name == text)

theorem ofName?_name (t : ServiceTag) : ofName? t.name = some t := by cases t <;> decide

end ServiceTag

namespace MethodTag

def all : List MethodTag :=
  [enable, disable, enableAll, disableAll, aliasName, params, logsIgnore, logsLen, httpMethod,
    httpPath]

def name : MethodTag → String
  | enable => "enable"
  | disable => "disable"
  | enableAll => "enable-all"
  | disableAll => "disable-all"
  | aliasName => "alias"
  | params => "params"
  | logsIgnore => "logs-ignore"
  | logsLen => "logs-len"
  | httpMethod => "http-method"
  | httpPath => "http-path"

def names : List String := all.map name

def ofName? (text : String) : Option MethodTag := all.find? (·.name == text)

theorem ofName?_name (t : MethodTag) : ofName? t.name = some t := by cases t <;> decide

end MethodTag

namespace ParamTag

def all : List ParamTag := [aliasName, httpOrigin]

def name : ParamTag → String
  | aliasName => "alias"
  | httpOrigin => "http-origin"

def names : List String := all.map name

def ofName? (text : String) : Option ParamTag := all.find? (·.name == text)

theorem ofName?_name (t : ParamTag) : ofName? t.name = some t := by cases t <;> decide

end ParamTag

end ServiceLoom.Tag

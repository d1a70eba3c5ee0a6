import ServiceLoom.File.Path
import ServiceLoom.Json.Basic

/-!
# Artifacts

A text to be written to a file, and what to do if the file is already there.
-/

namespace ServiceLoom

structure Descriptor where
  fileType : String
  path : String
  name : String
  overwrite : Bool := false
  merge : Bool := false
  deriving DecidableEq, Repr

structure Artifact where
  descriptor : Descriptor
  content : String := ""
  deriving DecidableEq, Repr

namespace Artifact

def append (a : Artifact) (text : String) : Artifact := { a with content := a.content ++ text }

def appendLine (a : Artifact) (line : String) : Artifact := a.append (line ++ "\n")

def isEmpty (a : Artifact) : Bool := a.content.isEmpty

/-- The file's name inside its path. -/
def relativePath (a : Artifact) : String := FilePath.join a.descriptor.path a.descriptor.name

end Artifact

def Descriptor.toJson (d : Descriptor) : Json :=
  .object [("file_type", .string d.fileType), ("path", .string d.path), ("name", .string d.name),
    ("overwrite", .bool d.overwrite), ("merge", .bool d.merge)]

end ServiceLoom

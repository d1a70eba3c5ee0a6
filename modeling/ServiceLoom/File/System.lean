/-!
# File systems

What the program asks of a file system. Paths and contents are text. An operation says whether it
worked and not why it did not.
-/

namespace ServiceLoom

inductive Appended where
  | notOpened
  | notWritten
  | done
  deriving DecidableEq, Repr

class FileSystem (m : Type → Type) where
  present : String → m Bool
  readText : String → m (Option String)
  /-- Make a directory and those it is in; what is already made stays if a later one fails. -/
  createDirs : String → m Bool
  /-- Make a file in an existing directory, or replace what it holds. -/
  writeText : String → String → m Bool
  appendText : String → String → m Appended

instance {ε : Type} {m : Type → Type} [Monad m] [FileSystem m] : FileSystem (ExceptT ε m) where
  present path := ExceptT.lift (FileSystem.present path)
  readText path := ExceptT.lift (FileSystem.readText path)
  createDirs path := ExceptT.lift (FileSystem.createDirs path)
  writeText path content := ExceptT.lift (FileSystem.writeText path content)
  appendText path content := ExceptT.lift (FileSystem.appendText path content)

end ServiceLoom

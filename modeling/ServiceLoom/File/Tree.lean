import ServiceLoom.File.Path
import ServiceLoom.File.System
import ServiceLoom.Text.Blank

/-!
# File trees

A file system in memory: texts and directories at locations. A location is the list of names from
the root, so two paths lead to one file if and only if they resolve to one location. Every name on
the way of a path has to be a directory, also where the path turns back with `..`.
-/

namespace ServiceLoom

namespace FilePath

def maxName : Nat := 255

def maxPath : Nat := 4095

def isRefused (path : String) : Bool :=
  path.toList.contains '\x00' || decide (maxPath < path.utf8ByteSize)

/-- The names on the way of a path, dots included. A slash at the end counts as a dot after it. -/
def names (path : String) : List String :=
  ((Text.cutWhere (· == '/') path.toList).filter (!·.isEmpty)).map String.ofList ++
    if path.toList.getLast? == some '/' then ["."] else []

def initials (path : String) : List String := (located path).map fun c => String.ofList c.2

end FilePath

abbrev Location := List String

structure FileTree where
  /-- The text at every location in use; none at a directory. -/
  entries : List (Location × Option String) := []
  working : Location := []
  deriving DecidableEq, Repr

namespace FileTree

inductive Node where
  | directory
  | file (text : String)
  deriving DecidableEq, Repr

inductive Place where
  | taken (location : Location) (node : Node)
  /-- Nothing is there, but the directory it would be in exists. -/
  | free (location : Location)
  | missing
  /-- Something on the way is a file, or a name cannot exist. -/
  | blocked
  deriving DecidableEq, Repr

def node? (t : FileTree) (location : Location) : Option Node :=
  if location = [] then some .directory
  else (t.entries.lookup location).map fun | none => .directory | some text => .file text

def walk (t : FileTree) (location : Location) : List String → Place
  | [] =>
    match t.node? location with
    | some node => .taken location node
    | none => .free location
  | name :: names =>
    match t.node? location with
    | none => .missing
    | some (.file _) => .blocked
    | some .directory =>
      if name = "." then t.walk location names
      else if name = ".." then t.walk location.dropLast names
      else if FilePath.maxName < name.utf8ByteSize then .blocked
      else t.walk (location ++ [name]) names

def start (t : FileTree) (path : String) : Location :=
  if FilePath.isAbsolute path then [] else t.working

def find (t : FileTree) (path : String) : Place :=
  if FilePath.isRefused path then .blocked
  else if path = "" then .missing
  else t.walk (t.start path) (FilePath.names path)

def putEntry (location : Location) (content : Option String) :
    List (Location × Option String) → List (Location × Option String)
  | [] => [(location, content)]
  | entry :: rest =>
    if entry.1 = location then (location, content) :: rest
    else entry :: putEntry location content rest

def put (t : FileTree) (location : Location) (node : Node) : FileTree :=
  let content := match node with
    | .directory => none
    | .file text => some text
  { t with entries := putEntry location content t.entries }

def present (t : FileTree) (path : String) : Bool :=
  match t.find path with
  | .taken _ _ => true
  | _ => false

def readText? (t : FileTree) (path : String) : Option String :=
  match t.find path with
  | .taken _ (.file text) => some text
  | _ => none

def makeDirs (t : FileTree) : List String → Bool × FileTree
  | [] => (true, t)
  | path :: paths =>
    match t.find path with
    | .taken _ .directory => t.makeDirs paths
    | .free location => (t.put location .directory).makeDirs paths
    | _ => (false, t)

/-- The empty path stands for the working directory, which is there. -/
def createDirs (t : FileTree) (path : String) : Bool × FileTree :=
  if FilePath.isRefused path then (false, t) else t.makeDirs (FilePath.initials path)

def writeText? (t : FileTree) (path content : String) : Option FileTree :=
  match t.find path with
  | .taken location (.file _) => some (t.put location (.file content))
  | .free location => some (t.put location (.file content))
  | _ => none

def appendText? (t : FileTree) (path content : String) : Option FileTree :=
  match t.find path with
  | .taken location (.file text) => some (t.put location (.file (text ++ content)))
  | _ => none

instance : FileSystem (StateM FileTree) where
  present path := fun t => (t.present path, t)
  readText path := fun t => (t.readText? path, t)
  createDirs path := fun t => t.createDirs path
  writeText path content := fun t =>
    match t.writeText? path content with
    | some u => (true, u)
    | none => (false, t)
  appendText path content := fun t =>
    match t.appendText? path content with
    | some u => (.done, u)
    | none => (.notOpened, t)

def below? : Location → Location → Option Location
  | [], [] => none
  | [], rest => some rest
  | _ :: _, [] => none
  | a :: directory, b :: location => if a = b then below? directory location else none

def hasEntryBelow (t : FileTree) (location : Location) : Bool :=
  t.entries.any fun entry => (below? location entry.1).isSome

/-- Files with their texts and empty directories without one, by their paths from the working
directory. -/
def listing (t : FileTree) : List (String × Option String) :=
  t.entries.filterMap fun (location, content) =>
    match below? t.working location with
    | none => none
    | some names =>
      if content.isNone && t.hasEntryBelow location then none
      else some (String.intercalate "/" names, content)

def scratch : FileTree := ⟨[(["scratch"], none)], ["scratch"]⟩

@[simp] theorem lookup_putEntry_self (location : Location) (content : Option String)
    (entries : List (Location × Option String)) :
    (putEntry location content entries).lookup location = some content := by
  induction entries with
  | nil => simp [putEntry]
  | cons entry rest ih =>
    obtain ⟨l, c⟩ := entry
    unfold putEntry
    by_cases h : l = location
    · simp [h]
    · have h' : (location == l) = false := by simpa using Ne.symm h
      simp [h, List.lookup_cons, h', ih]

theorem lookup_putEntry_of_ne {location other : Location} (content : Option String)
    (entries : List (Location × Option String)) (hne : other ≠ location) :
    (putEntry location content entries).lookup other = entries.lookup other := by
  have hother : (other == location) = false := by simpa using hne
  induction entries with
  | nil => simp [putEntry, List.lookup_cons, hother]
  | cons entry rest ih =>
    obtain ⟨l, c⟩ := entry
    unfold putEntry
    by_cases h : l = location
    · subst h
      simp [List.lookup_cons, hother]
    · simp [h, List.lookup_cons, ih]

theorem node?_put_self (t : FileTree) {location : Location} (node : Node) (h : location ≠ []) :
    (t.put location node).node? location = some node := by
  cases node <;> simp [node?, put, h]

theorem node?_put_of_ne (t : FileTree) {location other : Location} (node : Node)
    (h : other ≠ location) : (t.put location node).node? other = t.node? other := by
  simp [node?, put, lookup_putEntry_of_ne _ _ h]

end FileTree

end ServiceLoom

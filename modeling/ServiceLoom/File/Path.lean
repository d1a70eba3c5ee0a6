/-!
# Paths

A path is text. Its components are what stands between slashes; a dot counts only at the very start,
and repeated slashes count once. Joining never normalizes: the text stays as it was written.
-/

namespace ServiceLoom.FilePath

inductive Component where
  | root
  | current
  | parent
  | normal (name : String)
  deriving DecidableEq, Repr

namespace Component

def ofName (name : List Char) : Component :=
  if name = ['.'] then current
  else if name = ['.', '.'] then parent
  else normal (String.ofList name)

def isNormal : Component → Bool
  | normal _ => true
  | _ => false

def word : Component → String
  | root => "RootDir"
  | current => "CurDir"
  | parent => "ParentDir"
  | normal name => name

end Component

/-- The components after the start of a path, each with the text from the start of the path up to
its end; `before` is the text before them. -/
def laterComponents (before : List Char) (s : List Char) : List (Component × List Char) :=
  match s with
  | [] => []
  | c :: cs =>
    if c = '/' then laterComponents (before ++ [c]) cs
    else
      let name := c :: cs.takeWhile (· != '/')
      let rest := cs.dropWhile (· != '/')
      let upTo := before ++ name
      if name = ['.'] then laterComponents upTo rest
      else (Component.ofName name, upTo) :: laterComponents upTo rest
  termination_by s.length
  decreasing_by
    all_goals
      simp only [List.length_cons]
      have := (List.dropWhile_suffix (l := cs) (· != '/')).length_le
      omega

def located (path : String) : List (Component × List Char) :=
  match path.toList with
  | '/' :: rest => (.root, ['/']) :: laterComponents ['/'] rest
  | ['.'] => [(.current, ['.'])]
  | '.' :: '/' :: rest => (.current, ['.']) :: laterComponents ['.', '/'] rest
  | s => laterComponents [] s

def components (path : String) : List Component := (located path).map (·.1)

def isAbsolute (path : String) : Bool := path.toList.head? == some '/'

/-- `second` inside `first`; an absolute second path stands for itself. -/
def join (first second : String) : String :=
  if isAbsolute second then second
  else
    let s := first.toList
    if s.isEmpty || s.getLast? == some '/' then first ++ second else first ++ "/" ++ second

/-- The text of a path without its last component; none for a path that has no parent. -/
def parent? (path : String) : Option String :=
  match (located path).reverse with
  | [] => none
  | (.root, _) :: _ => none
  | [_] => some ""
  | _ :: (_, text) :: _ => some (String.ofList text)

end ServiceLoom.FilePath

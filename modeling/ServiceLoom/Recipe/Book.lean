import ServiceLoom.Recipe.Basic

/-!
# Recipe books

Recipes under distinct names, in the order of registration. Every recipe is tried on every service,
and one that fails leaves the others alone.
-/

namespace ServiceLoom

structure Failure where
  recipe : String
  service : String
  error : Error
  deriving DecidableEq, Repr

structure Report where
  artifacts : List Artifact := []
  failures : List Failure := []
  deriving DecidableEq, Repr

namespace Report

def append (r s : Report) : Report := ⟨r.artifacts ++ s.artifacts, r.failures ++ s.failures⟩

instance : Append Report := ⟨append⟩

def join (reports : List Report) : Report := reports.foldr (· ++ ·) {}

def isSuccess (r : Report) : Bool := r.failures.isEmpty

/-- The report of one recipe on one service. -/
def ofResult (recipe service : String) : Except Error (Option Artifact) → Report
  | .ok (some artifact) => { artifacts := [artifact] }
  | .ok none => {}
  | .error error => { failures := [⟨recipe, service, error⟩] }

end Report

structure RecipeBook where
  recipes : List (String × Recipe) := []

namespace RecipeBook

def names (book : RecipeBook) : List String := book.recipes.map (·.1)

def size (book : RecipeBook) : Nat := book.recipes.length

def isEmpty (book : RecipeBook) : Bool := book.recipes.isEmpty

def register (book : RecipeBook) (name : String) (recipe : Recipe) : Except Error RecipeBook :=
  if name ∈ book.names then .error (.configuration s!"spec '{name}' registered twice")
  else .ok ⟨book.recipes ++ [(name, recipe)]⟩

def generate (book : RecipeBook) (s : Service) : Report :=
  Report.join (book.recipes.map fun (name, recipe) =>
    Report.ofResult name s.name (recipe.generate s))

def generateAll (book : RecipeBook) (services : List Service) : Report :=
  Report.join (services.map book.generate)

end RecipeBook

end ServiceLoom

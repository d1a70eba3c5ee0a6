import Mathlib.Data.List.Basic
import ServiceLoom.Recipe.Book

/-!
# What a report holds

A recipe contributes an artifact, an error or nothing for a service. The contributions of a book, by
services and then by recipes, are all there is in its report: the artifacts are the artifacts among
them and the failures are the errors, each in that order.
-/

namespace ServiceLoom

/-- What a recipe adds to a report for one service. -/
structure Contribution where
  recipe : String
  service : String
  outcome : Except Error Artifact

namespace Contribution

/-- What a named recipe makes of a service; nothing if a condition fails. -/
def of? (s : Service) (entry : String × Recipe) : Option Contribution :=
  match entry.2.generate s with
  | .ok (some a) => some ⟨entry.1, s.name, .ok a⟩
  | .ok none => none
  | .error e => some ⟨entry.1, s.name, .error e⟩

def artifact? (c : Contribution) : Option Artifact :=
  match c.outcome with
  | .ok a => some a
  | .error _ => none

def failure? (c : Contribution) : Option Failure :=
  match c.outcome with
  | .ok _ => none
  | .error e => some ⟨c.recipe, c.service, e⟩

theorem recipe_of_of? {s : Service} {entry : String × Recipe} {c : Contribution}
    (h : of? s entry = some c) : c.recipe = entry.1 := by
  unfold of? at h
  split at h
  · rw [← Option.some.inj h]
  · cases h
  · rw [← Option.some.inj h]

end Contribution

namespace Report

theorem append_eq (r t : Report) :
    r ++ t = ⟨r.artifacts ++ t.artifacts, r.failures ++ t.failures⟩ :=
  rfl

def ofContributions (cs : List Contribution) : Report :=
  ⟨cs.filterMap Contribution.artifact?, cs.filterMap Contribution.failure?⟩

theorem ofContributions_append (cs ds : List Contribution) :
    ofContributions (cs ++ ds) = ofContributions cs ++ ofContributions ds := by
  simp [ofContributions, append_eq]

theorem join_map_eq {α : Type} {f : α → Report} {g : α → List Contribution}
    (h : ∀ x, f x = ofContributions (g x)) (xs : List α) :
    join (xs.map f) = ofContributions (xs.flatMap g) := by
  induction xs with
  | nil => rfl
  | cons x xs ih =>
    rw [List.flatMap_cons, ofContributions_append, ← ih, ← h]
    rfl

theorem ofResult_eq (s : Service) (entry : String × Recipe) :
    ofResult entry.1 s.name (entry.2.generate s) =
      ofContributions (Contribution.of? s entry).toList := by
  unfold Contribution.of?
  cases entry.2.generate s with
  | error e => rfl
  | ok artifact => cases artifact <;> rfl

end Report

namespace RecipeBook

variable {book : RecipeBook} {services : List Service} {a : Artifact}

/-- The contributions of all recipes for all services, by services and then by recipes. -/
def contributions (book : RecipeBook) (services : List Service) : List Contribution :=
  services.flatMap fun s => book.recipes.filterMap (Contribution.of? s)

theorem generate_eq (s : Service) :
    book.generate s = Report.ofContributions (book.recipes.filterMap (Contribution.of? s)) := by
  rw [List.filterMap_eq_flatMap_toList]
  exact Report.join_map_eq (Report.ofResult_eq s) book.recipes

theorem generateAll_eq :
    book.generateAll services = Report.ofContributions (book.contributions services) :=
  Report.join_map_eq generate_eq services

theorem mem_artifacts_generateAll_iff :
    a ∈ (book.generateAll services).artifacts ↔
      ∃ s ∈ services, ∃ entry ∈ book.recipes, entry.2.generate s = .ok (some a) := by
  have hmade (s : Service) (entry : String × Recipe) :
      (Contribution.of? s entry).bind Contribution.artifact? = some a ↔
        entry.2.generate s = .ok (some a) := by
    unfold Contribution.of?
    cases entry.2.generate s with
    | error e => simp [Contribution.artifact?]
    | ok artifact => cases artifact <;> simp [Contribution.artifact?]
  simp only [generateAll_eq, Report.ofContributions, contributions, List.filterMap_flatMap,
    List.filterMap_filterMap, List.mem_flatMap, List.mem_filterMap, hmade]

end RecipeBook

end ServiceLoom

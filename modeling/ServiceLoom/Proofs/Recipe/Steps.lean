import Mathlib.Data.List.Basic
import ServiceLoom.Proofs.Results
import ServiceLoom.Recipe.Basic

/-!
# Recipes as flat lists of steps

Hooks, service generators and method generators are loops with gates in them. What they come to for
one service is a list of calls that is known before any of them is made, and a recipe makes them one
after the other. Nothing is assumed of the calls; where they only append, the texts they append are
the artifact.
-/

namespace ServiceLoom

namespace Recipe

inductive Step where
  | hook (run : Artifact → Service → Except Error Artifact)
  | service (g : ServiceGenerator)
  | method (g : MethodGenerator) (m : Method)

def Step.run (s : Service) : Step → Artifact → Except Error Artifact
  | hook run, a => run a s
  | service g, a => g.run a s
  | method g m, a => g.run a s m

/-- The steps of a method generator: one for each method it is given, in that order, for which its
conditions hold. -/
def methodSteps (s : Service) (g : MethodGenerator) : List Step :=
  ((g.extract.elim s.methods (· s)).filter fun m => ∀ holds ∈ g.conditions, holds s m = true).map
    (.method g)

def steps (r : Recipe) (s : Service) : List Step :=
  r.before.map .hook ++
    ((r.serviceGenerators.filter fun g => ∀ holds ∈ g.conditions, holds s = true).map .service ++
      r.methodGenerators.flatMap (methodSteps s))

/-- Take steps from left to right, up to the first that fails. -/
def runSteps (s : Service) : List Step → Artifact → Except Error Artifact
  | [], a => .ok a
  | step :: rest, a =>
    match step.run s a with
    | .ok b => runSteps s rest b
    | .error e => .error e

variable {r : Recipe} {s : Service} {step : Step} {xs ys : List Step} {a b : Artifact} {e : Error}

theorem runSteps_cons : runSteps s (step :: xs) a = step.run s a >>= runSteps s xs := by
  unfold runSteps
  cases step.run s a <;> rfl

theorem runSteps_append : runSteps s (xs ++ ys) a = runSteps s xs a >>= runSteps s ys := by
  induction xs generalizing a with
  | nil => rfl
  | cons step xs ih =>
    rw [List.cons_append, runSteps_cons, runSteps_cons, bind_assoc]
    exact congrArg (step.run s a >>= ·) (funext fun _ => ih)

theorem runSteps_map {α : Type} (f : α → Step) (as : List α) :
    runSteps s (as.map f) a = as.foldlM (fun a x => (f x).run s a) a := by
  induction as generalizing a with
  | nil => rfl
  | cons x as ih =>
    rw [List.map_cons, runSteps_cons, List.foldlM_cons]
    exact congrArg ((f x).run s a >>= ·) (funext fun _ => ih)

theorem runSteps_flatMap {α : Type} (f : α → List Step) (as : List α) :
    runSteps s (as.flatMap f) a = as.foldlM (fun a x => runSteps s (f x) a) a := by
  induction as generalizing a with
  | nil => rfl
  | cons x as ih =>
    rw [List.flatMap_cons, runSteps_append, List.foldlM_cons]
    exact congrArg (runSteps s (f x) a >>= ·) (funext fun _ => ih)

theorem runSteps_eq_foldlM : runSteps s xs a = xs.foldlM (fun a step => step.run s a) a := by
  have h := runSteps_map (s := s) (a := a) id xs
  rwa [List.map_id] at h

theorem runSteps_eq_error_iff :
    runSteps s xs a = .error e ↔ ∃ before step after b, xs = before ++ step :: after ∧
      runSteps s before a = .ok b ∧ step.run s b = .error e := by
  simp only [runSteps_eq_foldlM]
  exact foldlM_eq_error_iff

/-! ## The loops of a recipe -/

theorem runHooks_eq : r.runHooks s a = runSteps s (r.before.map .hook) a :=
  (runSteps_map .hook r.before).symm

theorem runServiceGenerators_eq :
    r.runServiceGenerators s a = runSteps s ((r.serviceGenerators.filter
      fun g => ∀ holds ∈ g.conditions, holds s = true).map .service) a := by
  have happlies : ServiceGenerator.applies =
      fun g s => decide (∀ holds ∈ g.conditions, holds s = true) := by
    funext g s
    simp [ServiceGenerator.applies, List.all_eq]
  rw [runSteps_map, List.foldlM_filter, runServiceGenerators, happlies]
  rfl

theorem runMethodGenerator_eq (g : MethodGenerator) :
    runMethodGenerator s a g = runSteps s (methodSteps s g) a := by
  have happlies : MethodGenerator.applies =
      fun g s m => decide (∀ holds ∈ g.conditions, holds s m = true) := by
    funext g s m
    simp [MethodGenerator.applies, List.all_eq]
  have hmethods : g.methods s = g.extract.elim s.methods (· s) := by
    unfold MethodGenerator.methods
    cases g.extract <;> rfl
  rw [methodSteps, runSteps_map, List.foldlM_filter, runMethodGenerator, happlies, hmethods]
  rfl

theorem runMethodGenerators_eq :
    r.runMethodGenerators s a = runSteps s (r.methodGenerators.flatMap (methodSteps s)) a := by
  rw [runSteps_flatMap, runMethodGenerators]
  exact congrArg (r.methodGenerators.foldlM · a) (funext₂ fun _ g => runMethodGenerator_eq g)

theorem appliesTo_eq_true_iff : r.appliesTo s = true ↔ ∀ holds ∈ r.conditions, holds s = true := by
  simp [appliesTo]

theorem generate_of_conditions (h : ∀ holds ∈ r.conditions, holds s = true) :
    r.generate s = some <$> (r.create (r.descriptor s) s >>= runSteps s (r.steps s)) := by
  have hloops : runSteps s (r.steps s) = fun a => r.runHooks s a >>= fun a =>
      r.runServiceGenerators s a >>= fun a => r.runMethodGenerators s a := by
    funext a
    rw [steps, runSteps_append, runHooks_eq]
    refine congrArg (_ >>= ·) (funext fun b => ?_)
    rw [runSteps_append, runServiceGenerators_eq]
    exact congrArg (_ >>= ·) (funext fun c => runMethodGenerators_eq.symm)
  rw [generate, if_pos (appliesTo_eq_true_iff.mpr h), hloops]
  simp only [map_eq_pure_bind, bind_assoc]

theorem generate_eq_none_iff :
    r.generate s = .ok none ↔ ¬ ∀ holds ∈ r.conditions, holds s = true := by
  constructor
  · intro hnone h
    rw [generate_of_conditions h, map_eq_pure_bind, bind_eq_ok_iff] at hnone
    obtain ⟨a, -, ha⟩ := hnone
    cases Except.ok.inj ha
  · intro h
    rw [generate, if_neg (mt appliesTo_eq_true_iff.mp h)]

theorem generate_of_condition_false (h : ∃ holds ∈ r.conditions, holds s = false) :
    r.generate s = .ok none := by
  obtain ⟨holds, hmem, hfalse⟩ := h
  refine generate_eq_none_iff.mpr fun hall => ?_
  rw [hall holds hmem] at hfalse
  cases hfalse

/-! ## Steps that only append -/

/-- What the step returns is what it was given with a text behind it. -/
def Step.OnlyAppends (s : Service) (step : Step) : Prop :=
  ∀ a b, step.run s a = .ok b → ∃ text, b = a.append text

/-- The texts that steps append to an artifact, each at its turn. -/
inductive Appends (s : Service) : List Step → Artifact → List String → Prop where
  | nil (a : Artifact) : Appends s [] a []
  | cons {step : Step} {steps : List Step} {a : Artifact} {text : String} {texts : List String} :
    step.run s a = .ok (a.append text) → Appends s steps (a.append text) texts →
      Appends s (step :: steps) a (text :: texts)

def headerText : Option String → String
  | none => ""
  | some line => line ++ "\n"

theorem bufferCreator_eq (header : Option String) (descriptor : Descriptor) :
    bufferCreator header descriptor s = .ok ⟨descriptor, headerText header⟩ := by
  cases header with
  | none => rfl
  | some line => simp [bufferCreator, headerText, Artifact.appendLine, Artifact.append]

theorem append_join_nil (a : Artifact) : a.append (String.join []) = a := by
  simp [Artifact.append]

theorem append_join_cons (a : Artifact) (text : String) (texts : List String) :
    (a.append text).append (String.join texts) = a.append (String.join (text :: texts)) := by
  simp [Artifact.append, String.append_assoc]

/-- Steps that append the texts of some things append them in order, up to one that has none. -/
theorem runSteps_of_texts {α : Type} {f : α → Step} {text : α → Except Error String} {xs : List α}
    (h : ∀ x ∈ xs, ∀ a, (f x).run s a = (text x).map a.append) (a : Artifact) :
    runSteps s (xs.map f) a = (xs.mapM text).map fun texts => a.append (String.join texts) := by
  induction xs generalizing a with
  | nil => exact congrArg Except.ok (append_join_nil a).symm
  | cons x xs ih =>
    obtain ⟨hx, hrest⟩ := List.forall_mem_cons.mp h
    rw [List.map_cons, runSteps_cons, hx, List.mapM_cons]
    cases text x with
    | error e => rfl
    | ok first =>
      change runSteps s (xs.map f) (a.append first) = (xs.mapM text >>= _).map _
      rw [ih hrest]
      cases xs.mapM text with
      | error e => rfl
      | ok texts => exact congrArg Except.ok (append_join_cons a first texts)

theorem runSteps_eq_ok_iff_appends (h : ∀ step ∈ xs, step.OnlyAppends s) :
    runSteps s xs a = .ok b ↔
      ∃ texts, Appends s xs a texts ∧ b = a.append (String.join texts) := by
  induction xs generalizing a with
  | nil =>
    constructor
    · intro hrun
      exact ⟨[], .nil a, by rw [append_join_nil]; exact (Except.ok.inj hrun).symm⟩
    · rintro ⟨texts, ⟨⟩, rfl⟩
      rw [append_join_nil]
      rfl
  | cons step xs ih =>
    obtain ⟨hstep, hrest⟩ := List.forall_mem_cons.mp h
    rw [runSteps_cons, bind_eq_ok_iff]
    constructor
    · rintro ⟨c, hc, hrun⟩
      obtain ⟨text, rfl⟩ := hstep a c hc
      obtain ⟨texts, htexts, rfl⟩ := (ih hrest).mp hrun
      exact ⟨text :: texts, .cons hc htexts, append_join_cons a text texts⟩
    · rintro ⟨_, happends, rfl⟩
      cases happends with
      | @cons _ _ _ text texts hc htexts =>
        exact ⟨_, hc, (ih hrest).mpr ⟨texts, htexts, (append_join_cons a text texts).symm⟩⟩

/-- A recipe makes nothing if a condition fails. Otherwise it creates its artifact from its
settings, each resolved for the service, and takes its steps, up to the first that fails; if all
steps only append, what it makes holds the header and their texts in order. -/
theorem generate_flattened (r : Recipe) (s : Service) :
    r.descriptor s = ⟨r.fileType, r.path.resolve s, r.file.resolve s, r.overwrite.resolve s,
      r.merge.resolve s⟩ ∧
    ((∃ holds ∈ r.conditions, holds s = false) → r.generate s = .ok none) ∧
    ((∀ holds ∈ r.conditions, holds s = true) →
      r.generate s = some <$> (r.create (r.descriptor s) s >>= runSteps s (r.steps s)) ∧
      (∀ e, r.generate s = .error e ↔ r.create (r.descriptor s) s = .error e ∨
        ∃ a before step after b, r.create (r.descriptor s) s = .ok a ∧
          r.steps s = before ++ step :: after ∧ runSteps s before a = .ok b ∧
          step.run s b = .error e) ∧
      ∀ header, r.create = bufferCreator header → (∀ step ∈ r.steps s, step.OnlyAppends s) →
        ∀ a, r.generate s = .ok (some a) ↔
          ∃ texts, Appends s (r.steps s) ⟨r.descriptor s, headerText header⟩ texts ∧
            a = ⟨r.descriptor s, headerText header ++ String.join texts⟩) := by
  refine ⟨rfl, generate_of_condition_false, fun h => ⟨generate_of_conditions h, ?_, ?_⟩⟩
  · intro e
    rw [generate_of_conditions h, map_eq_pure_bind, bind_eq_error_iff, bind_eq_error_iff]
    simp only [runSteps_eq_error_iff]
    constructor
    · rintro ((he | ⟨a, ha, before, step, after, b, hsteps⟩) | ⟨_, _, ⟨⟩⟩)
      · exact Or.inl he
      · exact Or.inr ⟨a, before, step, after, b, ha, hsteps⟩
    · rintro (he | ⟨a, before, step, after, b, ha, hsteps⟩)
      · exact Or.inl (Or.inl he)
      · exact Or.inl (Or.inr ⟨a, ha, before, step, after, b, hsteps⟩)
  · intro header hcreate happends a
    rw [generate_of_conditions h, map_eq_pure_bind, bind_eq_ok_iff, hcreate, bufferCreator_eq]
    change (∃ b, runSteps s (r.steps s) _ = .ok b ∧ Except.ok (some b) = .ok (some a)) ↔ _
    simp only [runSteps_eq_ok_iff_appends happends, Except.ok.injEq, Option.some.injEq]
    constructor
    · rintro ⟨_, ⟨texts, htexts, rfl⟩, rfl⟩
      exact ⟨texts, htexts, rfl⟩
    · rintro ⟨texts, htexts, rfl⟩
      exact ⟨_, ⟨texts, htexts, rfl⟩, rfl⟩

section Roster

def member (name : String) : Method where
  service := "RosterService"
  name := name
  aliasName := name
  docs := []
  arguments := []
  results := []
  flags := FlagSet.empty
  httpMethod := none
  httpPath := none
  logsIgnore := []
  logsLen := []
  tags := {}

def roster : Service where
  name := "RosterService"
  aliasName := "roster"
  package := "clubs"
  docs := []
  methods := [member "Join", member "Leave"]
  flags := FlagSet.empty
  httpPrefix := none
  capabilities := []
  tags := {}

def addPackage : Artifact → Service → Except Error Artifact := fun a s =>
  .ok (a.append s.package)

def addName : ServiceGenerator := { name := "name", run := fun a s => .ok (a.append s.name) }

def backwards : MethodGenerator where
  name := "backwards"
  extract := some fun s => s.methods.reverse ++ s.methods.take 1
  run := fun a _ m => .ok (a.append m.name)

def leaving : MethodGenerator where
  name := "leaving"
  conditions := [fun _ m => m.name == "Leave"]
  run := fun a _ m => .ok (a.append m.name)

def refusing : MethodGenerator where
  name := "refusing"
  run := fun a _ m =>
    if m.name = "Leave" then .error (.generatorFailed "refusing" m.name)
    else .ok (a.append m.name)

def rosterRecipe (listed : Bool) (generators : List MethodGenerator) : Recipe where
  fileType := "txt"
  file := .const "roster.txt"
  conditions := [fun _ => true, fun _ => listed]
  before := [addPackage]
  serviceGenerators := [{ addName with name := "closed", conditions := [fun _ => false] }, addName]
  methodGenerators := generators
  create := bufferCreator (some "# roster")

/-- The same recipe, filed under the package and the alias of the service. -/
def filedRecipe (listed : Bool) (generators : List MethodGenerator) : Recipe :=
  { rosterRecipe listed generators with
    path := .ofService (·.package)
    file := .ofService fun s => s.aliasName ++ ".txt"
    overwrite := .ofService fun s => s.package == "clubs"
    merge := .const true }

def rosterText : String := "# roster\nclubsRosterServiceLeaveJoinJoinLeave"

theorem generate_flattened_roster :
    (∃ holds ∈ (filedRecipe false []).conditions, holds roster = false) ∧
      (filedRecipe false []).generate roster = .ok none ∧
      (∀ gs, ∀ holds ∈ (filedRecipe true gs).conditions, holds roster = true) ∧
      (∀ step ∈ (filedRecipe true [backwards, leaving]).steps roster, step.OnlyAppends roster) ∧
      (filedRecipe true [backwards, leaving]).descriptor roster =
        ⟨"txt", "clubs", "roster.txt", true, true⟩ ∧
      (filedRecipe true [backwards, leaving]).generate roster =
        .ok (some ⟨⟨"txt", "clubs", "roster.txt", true, true⟩, rosterText⟩) ∧
      (∃ texts, Appends roster ((filedRecipe true [backwards, leaving]).steps roster)
          ⟨⟨"txt", "clubs", "roster.txt", true, true⟩, "# roster\n"⟩ texts ∧
        rosterText = "# roster\n" ++ String.join texts) ∧
      ∃ before step after b,
        (filedRecipe true [leaving, refusing, backwards]).steps roster = before ++ step :: after ∧
          step.run roster b = .error (.generatorFailed "refusing" "Leave") := by
  have hclosed : ∃ holds ∈ (filedRecipe false []).conditions, holds roster = false :=
    ⟨fun _ => false, by simp [filedRecipe, rosterRecipe], rfl⟩
  have hopen (gs : List MethodGenerator) :
      ∀ holds ∈ (filedRecipe true gs).conditions, holds roster = true := by
    simp [filedRecipe, rosterRecipe]
  have hsteps : (filedRecipe true [backwards, leaving]).steps roster =
      [.hook addPackage, .service addName, .method backwards (member "Leave"),
        .method backwards (member "Join"), .method backwards (member "Join"),
        .method leaving (member "Leave")] := rfl
  have happends : ∀ step ∈ (filedRecipe true [backwards, leaving]).steps roster,
      step.OnlyAppends roster := by
    intro step hstep a b h
    simp only [hsteps, List.mem_cons, List.not_mem_nil, or_false] at hstep
    rcases hstep with rfl | rfl | rfl | rfl | rfl | rfl <;>
    · obtain rfl := Except.ok.inj h
      exact ⟨_, rfl⟩
  have hmade : (filedRecipe true [backwards, leaving]).generate roster =
      .ok (some ⟨⟨"txt", "clubs", "roster.txt", true, true⟩, rosterText⟩) := by decide
  have hbroken : (filedRecipe true [leaving, refusing, backwards]).generate roster =
      .error (.generatorFailed "refusing" "Leave") := by decide
  obtain ⟨-, hgated, -⟩ := generate_flattened (filedRecipe false []) roster
  obtain ⟨hdescriptor, -, hrun⟩ :=
    generate_flattened (filedRecipe true [backwards, leaving]) roster
  obtain ⟨-, -, hstop⟩ :=
    generate_flattened (filedRecipe true [leaving, refusing, backwards]) roster
  obtain ⟨-, -, htexts⟩ := hrun (hopen _)
  obtain ⟨texts, hwritten, hcontent⟩ := (htexts (some "# roster") rfl happends _).mp hmade
  rw [hdescriptor] at hwritten
  refine ⟨hclosed, hgated hclosed, hopen, happends, hdescriptor, hmade,
    ⟨texts, hwritten, congrArg Artifact.content hcontent⟩, ?_⟩
  rcases ((hstop (hopen _)).2.1 _).mp hbroken with h | ⟨a, before, step, after, b, -, hsplit, -, hb⟩
  · cases h
  · exact ⟨before, step, after, b, hsplit, hb⟩

end Roster

end Recipe

end ServiceLoom

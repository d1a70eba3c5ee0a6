import ServiceLoom.Proofs.Config.Templates
import ServiceLoom.Proofs.Recipe.Registration
import ServiceLoom.Proofs.Recipe.Steps

/-!
# What a valid configuration makes

The recipes of a configuration say of templates only what they are called. In a valid configuration
these names come to the texts of the artifact itself, so an artifact is its header, its service text
and its method text once for each method it is about.
-/

namespace ServiceLoom

/-- A template at work for a service: what it is called, its text, and the method it is for, if it
is for one. -/
structure Rendering where
  name : String
  body : String
  method : Option Method

def Rendering.text (known : String → Option Template) (s : Service) (r : Rendering) :
    Except Error String :=
  let printed := (Template.parse? r.body).bind fun template =>
    (Template.render known r.name template (TemplateStore.viewData s r.method)).toOption
  match printed with
  | some text => .ok text
  | none => .error (.template s!"rendering '{r.name}' failed")

namespace ArtifactConfig

variable {a : ArtifactConfig} {s : Service} {store : TemplateStore}

/-- Whether the artifact is made of a service: if it asks for a flag, the service or one of its
methods has to have it. -/
def Wanted (a : ArtifactConfig) (s : Service) : Prop :=
  ∀ flag, a.condition = some flag →
    s.isEnabled flag = true ∨ ∃ m ∈ s.methods, m.isEnabled flag = true

def chosen (a : ArtifactConfig) (s : Service) : List Method :=
  match a.methodFlag with
  | none => s.methods
  | some flag => s.methods.filter (·.isEnabled flag)

/-- The service text once, and then the method text for each chosen method. -/
def renderings (a : ArtifactConfig) (s : Service) : List Rendering :=
  (a.serviceTemplate.toList.map fun body => ⟨a.serviceTemplateName, body, none⟩) ++
    a.methodTemplate.toList.flatMap fun body =>
      (a.chosen s).map fun m => ⟨a.methodTemplateName, body, some m⟩

theorem wanted_iff :
    a.Wanted s ↔ ∀ holds ∈ (a.recipe store).conditions, holds s = true := by
  simp only [Wanted, recipe, List.forall_mem_map, Option.mem_toList, Condition.flagAnywhere,
    Service.isEnabledAnywhere, Bool.or_eq_true, List.any_eq_true]

def step (store : TemplateStore) (a : ArtifactConfig) (r : Rendering) : Recipe.Step :=
  match r.method with
  | none => .service (store.serviceGenerator r.name "service")
  | some m => .method { store.methodGenerator r.name "method" with
      extract := a.methodFlag.map methodsWithFlag } m

theorem steps_recipe : (a.recipe store).steps s = (a.renderings s).map (a.step store) := by
  have hservice : ((a.serviceGenerators store).filter
        fun g => ∀ holds ∈ g.conditions, holds s = true).map .service =
      (a.serviceTemplate.toList.map fun body =>
        ⟨a.serviceTemplateName, body, none⟩).map (a.step store) := by
    unfold serviceGenerators
    cases a.serviceTemplate <;> rfl
  have hmethod : (a.methodGenerators store).flatMap (Recipe.methodSteps s) =
      (a.methodTemplate.toList.flatMap fun body =>
        (a.chosen s).map fun m => ⟨a.methodTemplateName, body, some m⟩).map (a.step store) := by
    have hchosen : (a.methodFlag.map methodsWithFlag).elim s.methods (· s) = a.chosen s := by
      unfold chosen
      cases a.methodFlag <;> rfl
    unfold methodGenerators
    cases a.methodTemplate with
    | none => rfl
    | some body =>
      simp only [Option.isSome_some, if_true, List.flatMap_singleton, Recipe.methodSteps, hchosen,
        Option.toList_some, List.map_map]
      exact congrArg (List.map _) (List.filter_eq_self.mpr fun _ _ => rfl)
  rw [Recipe.steps, renderings, List.map_append, ← hservice, ← hmethod]
  rfl

theorem run_step {r : Rendering} (h : store.find? r.name = Template.parse? r.body) (b : Artifact) :
    (a.step store r).run s b = (r.text store.find? s).map b.append := by
  have htext : store.renderFor r.name s r.method = r.text store.find? s := by
    rw [TemplateStore.renderFor, TemplateStore.render, Rendering.text, h]
    cases Template.parse? r.body with
    | none => rfl
    | some template =>
      dsimp only [Option.bind_some]
      cases Template.render store.find? r.name template (TemplateStore.viewData s r.method) <;> rfl
  rw [← htext]
  unfold step
  cases r.method <;> rfl

theorem generate_recipe_of_wanted (hwanted : a.Wanted s)
    (hstore : ∀ r ∈ a.renderings s, store.find? r.name = Template.parse? r.body) :
    (a.recipe store).generate s =
      ((a.renderings s).mapM (Rendering.text store.find? s)).map fun texts =>
        some ⟨⟨a.fileType, expandPlaceholders a.path s, expandPlaceholders a.file s, a.overwrite,
          a.merge⟩, Recipe.headerText a.header ++ String.join texts⟩ := by
  rw [Recipe.generate_of_conditions (wanted_iff.mp hwanted), steps_recipe]
  change some <$> (bufferCreator a.header _ s >>= _) = _
  rw [Recipe.bufferCreator_eq]
  change (Recipe.runSteps s _ _).map some = _
  rw [Recipe.runSteps_of_texts fun r hr => run_step (hstore r hr)]
  cases (a.renderings s).mapM (Rendering.text store.find? s) <;> rfl

theorem generate_recipe_eq_none_iff :
    (a.recipe store).generate s = .ok none ↔ ¬ a.Wanted s := by
  rw [Recipe.generate_eq_none_iff, wanted_iff]

theorem mem_templates_of_mem_renderings {r : Rendering} (h : r ∈ a.renderings s) :
    (r.name, r.body) ∈ a.templates := by
  rw [mem_templates_iff]
  rcases List.mem_append.mp h with h | h
  · obtain ⟨body, hbody, rfl⟩ := List.mem_map.mp h
    exact Or.inl ⟨rfl, Option.mem_toList.mp hbody⟩
  · obtain ⟨body, hbody, h⟩ := List.mem_flatMap.mp h
    obtain ⟨m, -, rfl⟩ := List.mem_map.mp h
    exact Or.inr ⟨rfl, Option.mem_toList.mp hbody⟩

end ArtifactConfig

namespace Config

variable {c : Config}

theorem book_eq_of_templateStore {store : TemplateStore} (h : c.validate = .ok ())
    (hstore : c.templateStore = .ok store) :
    c.book = .ok ⟨c.artifacts.map fun a => (a.name, a.recipe store)⟩ := by
  have hdistinct : ((c.artifacts.map fun a => (a.name, a.recipe store)).map (·.1)).Nodup := by
    rw [List.map_map]
    exact nodup_names_of_validate h
  have hregister := @RecipeBook.foldlM_register_of_nodup {} _ hdistinct
  rw [List.foldlM_map] at hregister
  rw [book, hstore]
  exact hregister

/-- The only error of a valid configuration is that of its first text that is no template. Its book
holds one recipe for each artifact; it makes nothing of a service if the artifact is not wanted, and
else what the texts of the artifact itself come to. -/
theorem book_of_validate (h : c.validate = .ok ()) :
    (∀ e, c.book = .error e ↔ ∃ before name body after,
      c.bodies = before ++ (name, body) :: after ∧
        (∀ entry ∈ before, (Template.parse? entry.2).isSome) ∧ Template.parse? body = none ∧
          e = TemplateStore.unparsable name) ∧
    ∀ book, c.book = .ok book →
      book.names = c.artifacts.map (·.name) ∧
      ∀ (i : Nat) (a : ArtifactConfig), c.artifacts[i]? = some a →
        (∀ entry ∈ a.templates, c.known entry.1 = Template.parse? entry.2) ∧
        ∃ recipe, book.recipes[i]? = some (a.name, recipe) ∧ ∀ s,
          (recipe.generate s = .ok none ↔ ¬ a.Wanted s) ∧
          (a.Wanted s → recipe.generate s =
            ((a.renderings s).mapM (Rendering.text c.known s)).map fun texts =>
              some ⟨⟨a.fileType, expandPlaceholders a.path s, expandPlaceholders a.file s,
                a.overwrite, a.merge⟩, Recipe.headerText a.header ++ String.join texts⟩) := by
  constructor
  · intro e
    rw [← TemplateStore.registerAll_eq_error_iff, ← templateStore_eq]
    constructor
    · intro he
      rcases bind_eq_error_iff.mp he with he | ⟨store, hstore, -⟩
      · exact he
      · rw [book_eq_of_templateStore h hstore] at he
        cases he
    · intro he
      exact bind_eq_error_iff.mpr (Or.inl he)
  · intro book hbook
    obtain ⟨store, hstore, -⟩ := bind_eq_ok_iff.mp hbook
    rw [book_eq_of_templateStore h hstore] at hbook
    obtain rfl := Except.ok.inj hbook
    refine ⟨by rw [RecipeBook.names, List.map_map]; rfl, fun i a ha => ?_⟩
    have hmem : a ∈ c.artifacts := List.mem_of_getElem? ha
    have hknown : ∀ entry ∈ a.templates, c.known entry.1 = Template.parse? entry.2 :=
      fun entry hentry => known_of_mem_templates h hmem hentry
    refine ⟨hknown, a.recipe store, by rw [List.getElem?_map, ha]; rfl, fun s =>
      ⟨ArtifactConfig.generate_recipe_eq_none_iff, fun hwanted => ?_⟩⟩
    rw [← find?_templateStore h hstore] at hknown ⊢
    exact ArtifactConfig.generate_recipe_of_wanted hwanted fun r hr =>
      hknown _ (ArtifactConfig.mem_templates_of_mem_renderings hr)

section Roster

open Recipe (roster)

def rosterArtifact : ArtifactConfig where
  name := "a"
  file := "\x7bservice\x7d.txt"
  header := some "# roster"
  serviceTemplate := some "\x7b\x7bservice.package\x7d\x7d:"
  methodTemplate := some "\x7b\x7bmethod.name\x7d\x7d;"

def loggedArtifact (body : String) : ArtifactConfig where
  name := "a/service"
  file := "log.txt"
  condition := some "logging"
  serviceTemplate := some body

def rosterConfig (body : String) : Config where
  artifacts := [rosterArtifact, loggedArtifact body]

theorem book_of_validate_roster :
    (rosterConfig "log").validate = .ok () ∧
    (∃ book, (rosterConfig "log").book = .ok book ∧ book.names = ["a", "a/service"] ∧
      (∃ recipe, book.recipes[0]? = some ("a", recipe) ∧ recipe.generate roster =
        .ok (some ⟨⟨"go", "", "RosterService.txt", false, false⟩,
          "# roster\nclubs:Join;Leave;"⟩)) ∧
      ∃ recipe, book.recipes[1]? = some ("a/service", recipe) ∧
        recipe.generate roster = .ok none) ∧
    (rosterConfig "\x7b\x7b").validate = .ok () ∧
    (rosterConfig "\x7b\x7b").book = .error (TemplateStore.unparsable "a/service/service") := by
  have hvalid : (rosterConfig "log").validate = .ok () := by decide
  have hbroken : (rosterConfig "\x7b\x7b").validate = .ok () := by decide
  have hmade : ((rosterConfig "log").book.map (·.names)) = .ok ["a", "a/service"] := by
    decide +kernel
  have htexts : (rosterArtifact.renderings roster).mapM
      (Rendering.text (rosterConfig "log").known roster) = .ok ["clubs:", "Join;", "Leave;"] := by
    decide +kernel
  have hwanted : rosterArtifact.Wanted roster := by
    intro flag hflag
    cases hflag
  have hunwanted : ¬ (loggedArtifact "log").Wanted roster := by
    intro h
    simpa [roster, Recipe.member, Service.isEnabled, Method.isEnabled] using h "logging" rfl
  obtain ⟨book, hbook, hnames⟩ := map_eq_ok_iff.mp hmade
  obtain ⟨-, hartifacts⟩ := book_of_validate hvalid
  obtain ⟨-, hartifacts⟩ := hartifacts book hbook
  obtain ⟨-, first, hfirst, hrun⟩ := hartifacts 0 rosterArtifact rfl
  obtain ⟨-, second, hsecond, hskip⟩ := hartifacts 1 (loggedArtifact "log") rfl
  refine ⟨hvalid, ⟨book, hbook, hnames, ⟨first, hfirst, ?_⟩, second, hsecond,
    (hskip roster).1.mpr hunwanted⟩, hbroken, ?_⟩
  · rw [(hrun roster).2 hwanted, htexts]
    decide
  · refine ((book_of_validate hbroken).1 _).mpr ⟨(rosterConfig "").bodies.take 2,
      "a/service/service", "\x7b\x7b", [], rfl, ?_, ?_, rfl⟩
    · decide +kernel
    · decide

end Roster

end Config

end ServiceLoom

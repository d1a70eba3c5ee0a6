import Mathlib.Data.List.Induction
import ServiceLoom.Config.Book
import ServiceLoom.Proofs.Lookup
import ServiceLoom.Proofs.Results

/-!
# The templates of a configuration

All artifacts put their templates into one store. In a valid configuration the artifacts have
distinct names, and the name of a template tells the artifact and the part it belongs to, whatever
characters the names of artifacts are made of. So a store that was filled knows every template by
the text that its own artifact gives, and nothing else.
-/

namespace ServiceLoom

namespace TemplateStore

variable {store : TemplateStore} {name source : String} {e : Error}

def unparsable (name : String) : Error := .template s!"failed to register template '{name}'"

theorem register_eq_ok_iff {store' : TemplateStore} :
    store.register name source = .ok store' ↔
      ∃ template, Template.parse? source = some template ∧ store' = store.put name template := by
  unfold register
  cases Template.parse? source with
  | none => simp
  | some template => simp [eq_comm]

theorem register_eq_error_iff :
    store.register name source = .error e ↔
      Template.parse? source = none ∧ e = unparsable name := by
  unfold register
  cases Template.parse? source with
  | none => simp [unparsable, eq_comm]
  | some template => simp

def registerAll (store : TemplateStore) (entries : List (String × String)) :
    Except Error TemplateStore :=
  entries.foldlM (fun store entry => store.register entry.1 entry.2) store

variable {entries : List (String × String)}

theorem exists_registerAll_eq_ok_iff :
    (∃ store', store.registerAll entries = .ok store') ↔
      ∀ entry ∈ entries, (Template.parse? entry.2).isSome := by
  unfold registerAll
  induction entries generalizing store with
  | nil => simp [pure, Except.pure]
  | cons entry entries ih =>
    rw [List.foldlM_cons, List.forall_mem_cons, Option.isSome_iff_exists]
    simp only [bind_eq_ok_iff, register_eq_ok_iff]
    constructor
    · rintro ⟨store', _, ⟨template, hparse, rfl⟩, hrest⟩
      exact ⟨⟨template, hparse⟩, ih.mp ⟨store', hrest⟩⟩
    · rintro ⟨⟨template, hparse⟩, hrest⟩
      obtain ⟨store', hstore⟩ := ih.mpr hrest
      exact ⟨store', _, ⟨template, hparse, rfl⟩, hstore⟩

theorem registerAll_eq_error_iff :
    store.registerAll entries = .error e ↔ ∃ before name body after,
      entries = before ++ (name, body) :: after ∧
        (∀ entry ∈ before, (Template.parse? entry.2).isSome) ∧ Template.parse? body = none ∧
          e = unparsable name := by
  unfold registerAll
  rw [foldlM_eq_error_iff]
  constructor
  · rintro ⟨before, ⟨name, body⟩, after, middle, rfl, hbefore, herror⟩
    exact ⟨before, name, body, after, rfl, exists_registerAll_eq_ok_iff.mp ⟨middle, hbefore⟩,
      register_eq_error_iff.mp herror⟩
  · rintro ⟨before, name, body, after, rfl, hbefore, herror⟩
    obtain ⟨middle, hmiddle⟩ := exists_registerAll_eq_ok_iff.mpr hbefore
    exact ⟨before, (name, body), after, middle, rfl, hmiddle, register_eq_error_iff.mpr herror⟩

/-- A name stands for the last text under it. -/
theorem find?_registerAll {store' : TemplateStore} (h : store.registerAll entries = .ok store')
    (name : String) :
    store'.find? name =
      ((entries.reverse.lookup name).bind Template.parse?).or (store.find? name) := by
  induction entries using List.reverseRecOn generalizing store' with
  | nil =>
    obtain rfl := Except.ok.inj h
    rfl
  | append_singleton entries entry ih =>
    obtain ⟨key, body⟩ := entry
    rw [registerAll, List.foldlM_append] at h
    obtain ⟨middle, hmiddle, h⟩ := bind_eq_ok_iff.mp h
    rw [List.foldlM_cons] at h
    obtain ⟨last, hregister, h⟩ := bind_eq_ok_iff.mp h
    obtain rfl := Except.ok.inj h
    obtain ⟨template, hparse, rfl⟩ := register_eq_ok_iff.mp hregister
    rw [List.reverse_append, List.reverse_singleton, List.singleton_append]
    by_cases hkey : name = key
    · rw [hkey, find?_put_self, List.lookup_cons_self, Option.bind_some, hparse, Option.some_or]
    · rw [find?_put_of_ne middle template hkey, ih hmiddle, List.lookup_cons, beq_false_of_ne hkey]

end TemplateStore

namespace ArtifactConfig

variable {a b : ArtifactConfig} {name body : String}

/-- The names of the two parts end in different characters. -/
theorem serviceTemplateName_ne (a b : ArtifactConfig) :
    a.serviceTemplateName ≠ b.methodTemplateName := by
  intro h
  have hlast := congrArg (·.toList.getLast?) h
  simp [serviceTemplateName, methodTemplateName] at hlast

theorem mem_templates_iff :
    (name, body) ∈ a.templates ↔
      (name = a.serviceTemplateName ∧ a.serviceTemplate = some body) ∨
        (name = a.methodTemplateName ∧ a.methodTemplate = some body) := by
  simp only [templates, List.mem_append, Option.mem_toList, Option.map_eq_some_iff,
    Prod.mk.injEq]
  constructor
  · rintro (⟨_, ha, rfl, rfl⟩ | ⟨_, ha, rfl, rfl⟩)
    · exact Or.inl ⟨rfl, ha⟩
    · exact Or.inr ⟨rfl, ha⟩
  · rintro (⟨rfl, ha⟩ | ⟨rfl, ha⟩)
    · exact Or.inl ⟨body, ha, rfl, rfl⟩
    · exact Or.inr ⟨body, ha, rfl, rfl⟩

theorem eq_or_eq_of_mem_templates (h : name ∈ a.templates.map Prod.fst) :
    name = a.serviceTemplateName ∨ name = a.methodTemplateName := by
  obtain ⟨⟨name, body⟩, hmem, rfl⟩ := List.mem_map.mp h
  exact (mem_templates_iff.mp hmem).imp And.left And.left

theorem nodup_templates (a : ArtifactConfig) : (a.templates.map Prod.fst).Nodup := by
  have hne := serviceTemplateName_ne a a
  unfold templates
  cases a.serviceTemplate <;> cases a.methodTemplate <;> simp [hne]

/-- The name of a template tells whose it is. -/
theorem name_eq_of_mem_templates (ha : name ∈ a.templates.map Prod.fst)
    (hb : name ∈ b.templates.map Prod.fst) : a.name = b.name := by
  rcases eq_or_eq_of_mem_templates ha with rfl | rfl
  · rcases eq_or_eq_of_mem_templates hb with h | h
    · exact (String.append_left_inj "/service").mp h
    · exact absurd h (serviceTemplateName_ne a b)
  · rcases eq_or_eq_of_mem_templates hb with h | h
    · exact absurd h.symm (serviceTemplateName_ne b a)
    · exact (String.append_left_inj "/method").mp h

end ArtifactConfig

namespace Config

variable {c : Config} {seen : List String} {artifacts : List ArtifactConfig}

theorem validateArtifacts_cons (seen : List String) (a : ArtifactConfig)
    (rest : List ArtifactConfig) :
    validateArtifacts seen (a :: rest) =
      if a.name ∈ seen then .error (.configuration s!"artifact '{a.name}' defined twice")
      else a.validate >>= fun _ => validateArtifacts (a.name :: seen) rest := by
  rw [validateArtifacts]
  split <;> rfl

theorem validateArtifacts_eq_ok_iff :
    validateArtifacts seen artifacts = .ok () ↔ (artifacts.map (·.name)).Nodup ∧
      ∀ a ∈ artifacts, a.name ∉ seen ∧ a.validate = .ok () := by
  induction artifacts generalizing seen with
  | nil => simp [validateArtifacts]
  | cons a rest ih =>
    rw [validateArtifacts_cons]
    split
    · rename_i hseen
      simp [hseen]
    · rename_i hseen
      rw [bind_eq_ok_iff, List.map_cons, List.nodup_cons, List.forall_mem_cons]
      simp only [ih, List.mem_cons, not_or, List.mem_map, not_exists, not_and]
      constructor
      · rintro ⟨⟨⟩, ha, hnodup, hrest⟩
        exact ⟨⟨fun b hb => (hrest b hb).1.1, hnodup⟩, ⟨hseen, ha⟩,
          fun b hb => ⟨(hrest b hb).1.2, (hrest b hb).2⟩⟩
      · rintro ⟨⟨hnew, hnodup⟩, ⟨-, ha⟩, hrest⟩
        exact ⟨(), ha, hnodup, fun b hb => ⟨⟨hnew b hb, (hrest b hb).1⟩, (hrest b hb).2⟩⟩

theorem nodup_names_of_validate (h : c.validate = .ok ()) : (c.artifacts.map (·.name)).Nodup := by
  obtain ⟨_, _, h⟩ := bind_eq_ok_iff.mp h
  exact (validateArtifacts_eq_ok_iff.mp h).1

def bodies (c : Config) : List (String × String) := c.artifacts.flatMap ArtifactConfig.templates

/-- The template that a name stands for: what its text is, if the name is one of the configuration.
-/
def known (c : Config) (name : String) : Option Template :=
  (c.bodies.lookup name).bind Template.parse?

theorem nodup_bodies (h : (c.artifacts.map (·.name)).Nodup) : (c.bodies.map Prod.fst).Nodup := by
  rw [bodies, List.map_flatMap, List.nodup_flatMap]
  refine ⟨fun a _ => a.nodup_templates, ?_⟩
  refine (List.pairwise_map.mp h).imp fun hne => ?_
  intro name ha hb
  exact hne (ArtifactConfig.name_eq_of_mem_templates ha hb)

theorem known_of_mem_templates {a : ArtifactConfig} (h : c.validate = .ok ())
    (ha : a ∈ c.artifacts) {entry : String × String} (hentry : entry ∈ a.templates) :
    c.known entry.1 = Template.parse? entry.2 := by
  have hmem : entry ∈ c.bodies := List.mem_flatMap.mpr ⟨a, ha, hentry⟩
  rw [known, (lookup_eq_some_iff_mem (nodup_bodies (nodup_names_of_validate h))).mpr hmem]
  rfl

theorem templateStore_eq : c.templateStore = TemplateStore.registerAll {} c.bodies := rfl

theorem find?_templateStore {store : TemplateStore} (h : c.validate = .ok ())
    (hstore : c.templateStore = .ok store) : store.find? = c.known := by
  funext name
  rw [TemplateStore.find?_registerAll hstore, known,
    ← lookup_reverse (nodup_bodies (nodup_names_of_validate h))]
  exact Option.or_none

end Config

end ServiceLoom

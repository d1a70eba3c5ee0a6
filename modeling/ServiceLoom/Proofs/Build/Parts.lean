import Mathlib.Data.List.Forall2
import ServiceLoom.Proofs.Build.Step

/-!
# The parts of a built service

A successful build taken apart: the head that the tags of the interface make, the methods one by
one in the order of their declarations, and for each method its fields, its tags and its path.
-/

namespace ServiceLoom

theorem exists_mem_of_forall₂ {α γ : Type} {R : α → γ → Prop} {as : List α} {cs : List γ}
    (h : List.Forall₂ R as cs) {c : γ} (hc : c ∈ cs) : ∃ a ∈ as, R a c := by
  induction h with
  | nil => cases hc
  | cons hac _ ih =>
    rcases List.mem_cons.mp hc with rfl | hc
    · exact ⟨_, List.mem_cons_self, hac⟩
    · obtain ⟨a, ha, hR⟩ := ih hc
      exact ⟨a, List.mem_cons_of_mem _ ha, hR⟩

namespace Builder

variable {b : Builder} {entity package service : String} {seed : FlagSet}

theorem parts_of_buildIn {decl : InterfaceDecl} {s : Service}
    (h : b.buildIn package decl = .ok s) :
    ∃ head methods, b.buildHead package decl = .ok head ∧
      b.buildMethods decl.name head.flags [] decl.methods = .ok methods ∧
      s = { head with methods := methods } := by
  obtain ⟨head, hhead, h⟩ := bind_eq_ok_iff.mp h
  obtain ⟨methods, hmethods, h⟩ := bind_eq_ok_iff.mp h
  exact ⟨head, methods, hhead, hmethods, (Except.ok.inj h).symm⟩

theorem parts_of_buildHead {decl : InterfaceDecl} {head : Service}
    (h : b.buildHead package decl = .ok head) :
    b.convention.isServiceName decl.name = true ∧ ∃ entity,
      (Comment.classify decl.docs).tags.foldlM (b.applyServiceToken entity)
        (plainService package decl (Comment.classify decl.docs).docs) = .ok head := by
  unfold buildHead at h
  dsimp only at h
  split at h
  · cases h
  · rename_i hname
    exact ⟨by simpa using hname, _, h⟩

theorem ServiceStep.name_eq {names : List String} {s t : Service} {tag : Tag.ServiceTag}
    (h : ServiceStep b names s tag t) : t.name = s.name := by
  cases h <;> rfl

theorem name_of_buildIn {decl : InterfaceDecl} {s : Service} (h : b.buildIn package decl = .ok s) :
    s.name = decl.name := by
  obtain ⟨head, methods, hhead, -, rfl⟩ := parts_of_buildIn h
  obtain ⟨-, entity, htags⟩ := parts_of_buildHead hhead
  refine foldlM_invariant (fun _ s => s.name = decl.name) (fun _ _ s t hs h => ?_) rfl htags
  rcases applyServiceToken_cases h with ⟨tag, payload, -, happly⟩ | ⟨_, name, -, options, rfl⟩
  · exact (serviceStep_of_apply happly).name_eq.trans hs
  · exact hs

theorem isServiceName_of_buildIn {decl : InterfaceDecl} {s : Service}
    (h : b.buildIn package decl = .ok s) : b.convention.isServiceName s.name = true := by
  rw [name_of_buildIn h]
  obtain ⟨head, -, hhead, -, -⟩ := parts_of_buildIn h
  exact (parts_of_buildHead hhead).1

theorem parts_of_buildMethods {built : List String} {decls : List MethodDecl}
    {methods : List Method} (h : b.buildMethods service seed built decls = .ok methods) :
    List.Forall₂ (fun decl m => b.buildMethod service seed decl = .ok m) decls methods ∧
      (decls.map (·.name)).Nodup ∧ ∀ decl ∈ decls, decl.name ∉ built := by
  induction decls generalizing built methods with
  | nil =>
    obtain rfl := Except.ok.inj h
    exact ⟨.nil, by simp, by simp⟩
  | cons decl rest ih =>
    unfold buildMethods at h
    split at h
    · cases h
    · rename_i hnew
      obtain ⟨m, hm, h⟩ := bind_eq_ok_iff.mp h
      obtain ⟨ms, hms, h⟩ := bind_eq_ok_iff.mp h
      obtain rfl := Except.ok.inj h
      obtain ⟨hrest, hnodup, hbuilt⟩ := ih hms
      refine ⟨.cons hm hrest, List.nodup_cons.mpr ⟨?_, hnodup⟩, ?_⟩
      · intro hmem
        obtain ⟨other, hother, hname⟩ := List.mem_map.mp hmem
        exact hbuilt other hother (by simp [hname])
      · intro other hother
        rcases List.mem_cons.mp hother with rfl | hother
        · exact hnew
        · exact fun hmem => hbuilt other hother (List.mem_cons_of_mem _ hmem)

theorem exists_buildMethod_of_mem {decl : InterfaceDecl} {s : Service}
    (h : b.buildIn package decl = .ok s) {m : Method} (hm : m ∈ s.methods) :
    ∃ seed, ∃ d ∈ decl.methods, b.buildMethod decl.name seed d = .ok m := by
  obtain ⟨head, methods, _, hmethods, rfl⟩ := parts_of_buildIn h
  exact ⟨head.flags, exists_mem_of_forall₂ (parts_of_buildMethods hmethods).1 hm⟩

theorem parts_of_buildMethod {decl : MethodDecl} {m : Method}
    (h : b.buildMethod service seed decl = .ok m) :
    ∃ entity label params results arguments fields tagged,
      b.contextRest entity decl.params = .ok params ∧
      b.errorRest entity decl.results = .ok results ∧
      b.buildArguments label 1 params = .ok arguments ∧
      buildResults entity 1 results = .ok fields ∧
      (Comment.classify decl.docs).tags.foldlM (b.applyMethodToken entity label)
        (b.plainMethod service seed decl.name (Comment.classify decl.docs).docs arguments fields) =
        .ok tagged ∧
      bindPath entity tagged = .ok m := by
  obtain ⟨params, hparams, h⟩ := bind_eq_ok_iff.mp h
  obtain ⟨results, hresults, h⟩ := bind_eq_ok_iff.mp h
  obtain ⟨arguments, harguments, h⟩ := bind_eq_ok_iff.mp h
  obtain ⟨fields, hfields, h⟩ := bind_eq_ok_iff.mp h
  obtain ⟨tagged, htagged, h⟩ := bind_eq_ok_iff.mp h
  exact ⟨_, _, params, results, arguments, fields, tagged, hparams, hresults, harguments, hfields,
    htagged, h⟩

/-- All placeholders of the path are taken by arguments, and those arguments come from it. -/
theorem parts_of_bindPath {m n : Method} (h : bindPath entity m = .ok n) :
    (m.httpPath = none ∧ n = m) ∨
    ∃ path, m.httpPath = some path ∧
      (∀ name ∈ PathTemplate.placeholders path, ∃ a ∈ m.arguments, namedBy a name = true) ∧
      n = { m with
        arguments := m.arguments.map fun a =>
          if !a.originTagged && (PathTemplate.placeholders path).any (namedBy a) then
            { a with origin := .path } else a } := by
  unfold bindPath at h
  split at h
  · rename_i hpath
    exact Or.inl ⟨hpath, (Except.ok.inj h).symm⟩
  · rename_i path hpath
    dsimp only at h
    split at h
    · cases h
    · rename_i hfind
      refine Or.inr ⟨path, hpath, ?_, (Except.ok.inj h).symm⟩
      intro name hname
      simpa using List.find?_eq_none.mp hfind name hname

theorem namedBy_iff {a : Argument} {name : String} :
    namedBy a name = true ↔ name = a.name ∨ name = a.aliasName := by
  simp [namedBy]

/-- A placeholder stands for an argument, and all that it stands for come from the path. -/
theorem bound_of_bindPath {m n : Method} (h : bindPath entity m = .ok n) {path name : String}
    (hpath : n.httpPath = some path) (hname : name ∈ PathTemplate.placeholders path) :
    (∃ a ∈ n.arguments, name = a.name ∨ name = a.aliasName) ∧
      ∀ a ∈ n.arguments, name = a.name ∨ name = a.aliasName → a.originTagged = false →
        a.origin = .path := by
  rcases parts_of_bindPath h with ⟨hnone, rfl⟩ | ⟨path', hpath', hplaceholders, rfl⟩
  · rw [hnone] at hpath
    cases hpath
  · obtain rfl : path' = path := Option.some.inj (hpath'.symm.trans hpath)
    constructor
    · obtain ⟨a, ha, hnamed⟩ := hplaceholders name hname
      refine ⟨_, List.mem_map_of_mem ha, ?_⟩
      split
      · exact namedBy_iff.mp hnamed
      · exact namedBy_iff.mp hnamed
    · intro c hc hnamed huntagged
      obtain ⟨a, _, rfl⟩ := List.mem_map.mp hc
      by_cases htaken : (!a.originTagged &&
          (PathTemplate.placeholders path').any (namedBy a)) = true
      · rw [if_pos htaken]
      · rw [if_neg htaken] at hnamed huntagged
        have hany : (PathTemplate.placeholders path').any (namedBy a) = true :=
          List.any_eq_true.mpr ⟨name, hname, namedBy_iff.mpr hnamed⟩
        exact absurd (by simp [huntagged, hany]) htaken

end Builder

end ServiceLoom

import ServiceLoom.Proofs.Build.Conformance
import ServiceLoom.Proofs.Build.WellFormed
import ServiceLoom.Proofs.Declaration.TypeExpr
import ServiceLoom.Template.View

/-!
# Names of types in templates

No tag changes a type, so a template sees every argument and every result under the text that its
declared type is written as. Where names are identifiers, this text determines the type.
-/

namespace ServiceLoom

/-- The declared arguments and results of an interface, each with what a template sees of it. -/
def InterfaceDecl.shown (decl : InterfaceDecl) (view : ServiceView) :
    List (FieldDecl × FieldView) :=
  (decl.methods.zip view.methods).flatMap fun (m, view) =>
    m.params.tail.zip view.arguments ++ m.results.dropLast.zip view.results

def ServiceView.fields (view : ServiceView) : List FieldView :=
  view.methods.flatMap fun m => m.arguments ++ m.results

/-- A template sees the text of every declared type. -/
structure MethodDecl.ShownAs (decl : MethodDecl) (view : MethodView) : Prop where
  arguments : view.arguments.map (·.typeName) = decl.params.tail.map (·.type.text)
  results : view.results.map (·.typeName) = decl.results.dropLast.map (·.type.text)

namespace Builder

variable {b : Builder} {entity label service package : String}

def TakesContext (b : Builder) (e : TypeExpr) : Prop :=
  ∃ entity context params rest, context.type = e ∧
    b.contextRest entity (context :: params) = .ok rest

def TakesError (b : Builder) (e : TypeExpr) : Prop :=
  ∃ entity results error rest, error.type = e ∧
    b.errorRest entity (results ++ [error]) = .ok rest

theorem TakesContext.text_eq {e : TypeExpr} (h : b.TakesContext e) :
    e.text = b.convention.contextType := by
  obtain ⟨entity, context, params, rest, rfl, h⟩ := h
  obtain ⟨first, hfirst, htext⟩ := params_of_contextRest h
  rwa [(List.cons.inj hfirst).1]

theorem TakesError.text_eq {e : TypeExpr} (h : b.TakesError e) :
    e.text = b.convention.errorType := by
  obtain ⟨entity, results, error, rest, rfl, h⟩ := h
  obtain ⟨last, hlast, htext⟩ := results_of_errorRest h
  have hsingle := (List.append_inj' hlast rfl).2
  rwa [List.singleton_inj.mp hsingle]

/-! ## Types of a built method -/

theorem MethodStep.types_eq {names : List String} {m n : Method} {tag : Tag.MethodTag}
    (h : MethodStep b names m tag n) :
    n.arguments.map (·.type) = m.arguments.map (·.type) ∧
      n.results.map (·.type) = m.results.map (·.type) := by
  cases h with
  | argumentAlias harguments => exact ⟨map_eq_of_forall₂ (fun _ _ h => h.type) harguments, rfl⟩
  | resultAlias hresults => exact ⟨rfl, map_eq_of_forall₂ (fun _ _ h => h.type) hresults⟩
  | params harguments => exact ⟨map_eq_of_forall₂ (fun _ _ h => h.type) harguments, rfl⟩
  | _ => exact ⟨rfl, rfl⟩

theorem types_of_applyMethodToken {m n : Method} {token : String}
    (h : b.applyMethodToken entity label m token = .ok n) :
    n.arguments.map (·.type) = m.arguments.map (·.type) ∧
      n.results.map (·.type) = m.results.map (·.type) := by
  rcases applyMethodToken_cases h with ⟨tag, payload, _, happly⟩ | ⟨_, name, _, options, rfl⟩
  · exact (methodStep_of_apply happly).types_eq
  · exact ⟨rfl, rfl⟩

theorem texts_of_buildArguments {position : Nat} {params : List FieldDecl}
    {arguments : List Argument} (h : b.buildArguments label position params = .ok arguments) :
    arguments.map (·.type.text) = params.map (·.type.text) := by
  induction params generalizing position arguments with
  | nil =>
    obtain rfl := Except.ok.inj h
    rfl
  | cons param rest ih =>
    obtain ⟨a, ha, h⟩ := bind_eq_ok_iff.mp h
    obtain ⟨as, has, h⟩ := bind_eq_ok_iff.mp h
    obtain rfl := Except.ok.inj h
    obtain ⟨-, -, htype⟩ := argument_of_buildArgument ha
    rw [List.map_cons, List.map_cons, ih has, FieldType.text_of_ofExpr htype]

theorem shownAs_of_buildMethod {seed : FlagSet} {decl : MethodDecl} {m : Method}
    (h : b.buildMethod service seed decl = .ok m) : decl.ShownAs (MethodView.ofMethod m) := by
  obtain ⟨entity, label, params, results, arguments, fields, tagged, hcontext, herror, harguments,
    hfields, htags, hbind⟩ := parts_of_buildMethod h
  obtain ⟨context, hparams, -⟩ := params_of_contextRest hcontext
  obtain ⟨error, hresults, -⟩ := results_of_errorRest herror
  obtain ⟨retagged, hretagged, rfl⟩ := retagged_of_bindPath b.parsers.param.names hbind
  have htypes := foldlM_invariant (fun _ n => n.arguments.map (·.type) = arguments.map (·.type) ∧
    n.results.map (·.type) = fields.map (·.type)) (fun _ _ _ _ hs ht =>
      have hstep := types_of_applyMethodToken ht
      ⟨hstep.1.trans hs.1, hstep.2.trans hs.2⟩) ⟨rfl, rfl⟩ htags
  have hpath : retagged.map (·.type) = tagged.arguments.map (·.type) :=
    map_eq_of_forall₂ (fun _ _ h => h.type) hretagged
  constructor
  · have htexts := congrArg (List.map FieldType.text) (hpath.trans htypes.1)
    rw [List.map_map, List.map_map] at htexts
    rw [hparams, List.tail_cons, ← texts_of_buildArguments harguments]
    simpa [MethodView.ofMethod, FieldView.ofArgument, Function.comp_def] using htexts
  · have htexts := congrArg (List.map FieldType.text) htypes.2
    rw [List.map_map, List.map_map] at htexts
    rw [hresults, List.dropLast_concat,
      ← map_eq_of_forall₂ (fun _ _ h => h.type) (asDeclared_of_buildResults hfields)]
    simpa [MethodView.ofMethod, FieldView.ofResult, Function.comp_def] using htexts

theorem forall₂_shownAs_of_buildIn {decl : InterfaceDecl} {s : Service}
    (h : b.buildIn package decl = .ok s) :
    List.Forall₂ MethodDecl.ShownAs decl.methods (ServiceView.ofService s).methods := by
  obtain ⟨head, methods, _, hmethods, rfl⟩ := parts_of_buildIn h
  apply List.forall₂_map_right_iff.mpr
  exact (parts_of_buildMethods hmethods).1.imp fun _ _ => shownAs_of_buildMethod

/-! ## What a template sees -/

theorem eq_of_mem_zip {α β γ : Type} {f : α → γ} {g : β → γ} {as : List α} {bs : List β}
    (h : bs.map g = as.map f) {a : α} {c : β} (hmem : (a, c) ∈ as.zip bs) : g c = f a := by
  obtain ⟨i, hi, heq⟩ := List.getElem_of_mem hmem
  rw [List.getElem_zip] at heq
  obtain ⟨rfl, rfl⟩ := Prod.mk.inj heq
  rw [List.length_zip] at hi
  have hat := List.getElem_of_eq h (i := i) (by rw [List.length_map]; omega)
  rwa [List.getElem_map, List.getElem_map] at hat

theorem typeName_of_mem_shown {decl : InterfaceDecl} {s : Service}
    (h : b.buildIn package decl = .ok s) {field : FieldDecl} {view : FieldView}
    (hmem : (field, view) ∈ decl.shown (ServiceView.ofService s)) :
    view.typeName = field.type.text := by
  obtain ⟨⟨m, seen⟩, hm, hmem⟩ := List.mem_flatMap.mp hmem
  have hshown : m.ShownAs seen := (List.forall₂_iff_zip.mp (forall₂_shownAs_of_buildIn h)).2 hm
  rcases List.mem_append.mp hmem with hmem | hmem
  · exact eq_of_mem_zip hshown.arguments hmem
  · exact eq_of_mem_zip hshown.results hmem

theorem map_snd_shown {decl : InterfaceDecl} {s : Service} (h : b.buildIn package decl = .ok s) :
    (decl.shown (ServiceView.ofService s)).map Prod.snd = (ServiceView.ofService s).fields := by
  have hshown := forall₂_shownAs_of_buildIn h
  unfold InterfaceDecl.shown ServiceView.fields
  generalize decl.methods = decls, (ServiceView.ofService s).methods = views at hshown ⊢
  induction hshown with
  | nil => rfl
  | cons hm _ ih =>
    have harguments := congrArg List.length hm.arguments
    have hresults := congrArg List.length hm.results
    rw [List.length_map, List.length_map] at harguments hresults
    rw [List.zip_cons_cons, List.flatMap_cons, List.flatMap_cons, List.map_append, ih,
      List.map_append, List.map_snd_zip harguments.le, List.map_snd_zip hresults.le]

end Builder

/-- A type is determined by its text: by the one that the convention gives for contexts and for
errors, and by the one that templates see. -/
theorem typeName_identifies :
    (∀ e f : TypeExpr, e.Regular → f.Regular → e.text = f.text → e = f) ∧
    (∀ (b : Builder) (e f : TypeExpr), e.Regular → f.Regular →
      (b.TakesContext e → b.TakesContext f → e = f) ∧
      (b.TakesError e → b.TakesError f → e = f)) ∧
    ∀ (b c : Builder) (package other : String) (decl further : InterfaceDecl)
      (s t : Service), b.buildIn package decl = .ok s → c.buildIn other further = .ok t →
      (decl.shown (ServiceView.ofService s)).map Prod.snd = (ServiceView.ofService s).fields ∧
      ∀ p ∈ decl.shown (ServiceView.ofService s), ∀ q ∈ further.shown (ServiceView.ofService t),
        p.1.type.Regular → q.1.type.Regular → p.2.typeName = q.2.typeName →
        p.1.type = q.1.type := by
  refine ⟨fun e f => TypeExpr.eq_of_text_eq, ?_, ?_⟩
  · intro b e f he hf
    constructor
    · intro hcontext hother
      exact TypeExpr.eq_of_text_eq he hf (hcontext.text_eq.trans hother.text_eq.symm)
    · intro herror hother
      exact TypeExpr.eq_of_text_eq he hf (herror.text_eq.trans hother.text_eq.symm)
  · intro b c package other decl further s t hs ht
    refine ⟨Builder.map_snd_shown hs, ?_⟩
    intro p hp q hq hpregular hqregular hname
    apply TypeExpr.eq_of_text_eq hpregular hqregular
    rw [← Builder.typeName_of_mem_shown hs hp, hname, Builder.typeName_of_mem_shown ht hq]

section Tables

def rowsType : TypeExpr := .map (.ident "map") (.slice (.star (.selector "chan" "func")))

def mergeDecl : MethodDecl where
  name := "Merge"
  docs := ["// @alias(merged,all)"]
  params := [⟨"ctx", .selector "context" "Context", []⟩, ⟨"merged", rowsType, []⟩]
  results := [⟨"rows", rowsType, []⟩, ⟨"err", .ident "error", []⟩]

def tableInterface : InterfaceDecl := ⟨"TableService", [], [], [mergeDecl]⟩

def rowsFieldType : FieldType :=
  .map (.imported none "map") (.slice (.pointer (.imported (some "chan") "func")))

def mergeMethod : Method where
  service := "TableService"
  name := "Merge"
  aliasName := "Merge"
  docs := []
  arguments := [⟨"merged", "all", rowsFieldType, .body, false, [], {}⟩]
  results := [⟨"rows", "rows", rowsFieldType⟩]
  flags := FlagSet.empty
  httpMethod := none
  httpPath := none
  logsIgnore := []
  logsLen := []
  tags := {}

def tableService : Service where
  name := "TableService"
  aliasName := "TableService"
  package := "tables"
  docs := []
  methods := [mergeMethod]
  flags := FlagSet.empty
  httpPrefix := none
  capabilities := []
  tags := {}

theorem regular_rowsType : rowsType.Regular := by
  have hname : ∀ name ∈ ["map", "chan", "func"], PathTemplate.IsIdentifier name.toList := by
    intro name hname
    apply TypeExpr.isIdentifier_keyword
    revert name
    decide
  exact ⟨⟨hname _ (by simp), by decide⟩, hname _ (by simp), hname _ (by simp)⟩

theorem typeName_identifies_tables :
    rowsType.Regular ∧ ({} : Builder).TakesError (.ident "error") ∧
      ({} : Builder).buildIn "tables" tableInterface = .ok tableService ∧
      (ServiceView.ofService tableService).fields.map (·.typeName) =
        ["map[map][]*chan.func", "map[map][]*chan.func"] ∧
      (∀ e, e.Regular → e.text = "map[map][]*chan.func" → e = rowsType) ∧
      ∀ p ∈ tableInterface.shown (ServiceView.ofService tableService),
        ∀ q ∈ tableInterface.shown (ServiceView.ofService tableService),
          p.1.type.Regular → q.1.type.Regular → p.2.typeName = q.2.typeName →
          p.1.type = q.1.type := by
  obtain ⟨htext, _, hseen⟩ := typeName_identifies
  have hbuilt : ({} : Builder).buildIn "tables" tableInterface = .ok tableService := by
    decide +kernel
  refine ⟨regular_rowsType, ⟨"", [], ⟨"err", .ident "error", []⟩, [], rfl, by decide⟩,
    hbuilt, by decide, ?_, (hseen {} {} _ _ _ _ _ _ hbuilt hbuilt).2⟩
  intro e he h
  exact htext e rowsType he regular_rowsType (h.trans (by decide))

end Tables

end ServiceLoom

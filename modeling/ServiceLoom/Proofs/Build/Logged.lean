import ServiceLoom.Proofs.Build.WellFormed
import ServiceLoom.Template.View

/-!
# Fields logged by length

A tag that lists a name for logging by length looks at the first field of that name, and only the
type of this one is known to have a length. A template sees the mark on every field of the name. So
the marks are right exactly if no field without a length repeats the name of a marked field before
it; they are right for all methods whose arguments and results have distinct names.
-/

namespace ServiceLoom

namespace Method

/-- For every name listed, the first field of that name has a length. -/
def Measured (m : Method) : Prop :=
  ∀ name ∈ m.logsLen, ∃ type, m.fields.lookup name = some type ∧ type.hasLen = true

/-- What a template sees of the arguments and then of the results, each with its type. -/
def views (m : Method) : List (FieldView × FieldType) :=
  (MethodView.ofMethod m).arguments.zip (m.arguments.map (·.type)) ++
    (MethodView.ofMethod m).results.zip (m.results.map (·.type))

/-- Only fields with a length are seen as logged by length. -/
def LogsLengths (m : Method) : Prop :=
  ∀ view type, (view, type) ∈ m.views → view.logLen = true → type.hasLen = true

theorem views_eq (m : Method) :
    m.views = m.arguments.map (fun a => (FieldView.ofArgument m a, a.type)) ++
      m.results.map (fun r => (FieldView.ofResult m r, r.type)) := by
  simp only [views, MethodView.ofMethod, List.zip_map']

theorem fields_eq_map_views (m : Method) :
    m.fields = m.views.map fun (view, type) => (view.name, type) := by
  rw [views_eq, List.map_append, List.map_map, List.map_map]
  rfl

theorem logLen_iff {m : Method} {view : FieldView} {type : FieldType}
    (h : (view, type) ∈ m.views) : view.logLen = true ↔ view.name ∈ m.logsLen := by
  rw [views_eq] at h
  rcases List.mem_append.mp h with h | h
  · obtain ⟨a, _, heq⟩ := List.mem_map.mp h
    obtain ⟨rfl, rfl⟩ := Prod.mk.inj heq
    simp [FieldView.ofArgument]
  · obtain ⟨r, _, heq⟩ := List.mem_map.mp h
    obtain ⟨rfl, rfl⟩ := Prod.mk.inj heq
    simp [FieldView.ofResult]

/-- The first field of its name is the one that was looked at. -/
theorem Measured.hasLen_of_first {m : Method} (hm : m.Measured)
    {before after : List (FieldView × FieldType)} {view : FieldView} {type : FieldType}
    (hviews : m.views = before ++ (view, type) :: after)
    (hfirst : ∀ earlier ∈ before, earlier.1.name ≠ view.name) (hlog : view.logLen = true) :
    type.hasLen = true := by
  have hmem : (view, type) ∈ m.views := by simp [hviews]
  obtain ⟨found, hfound, hlen⟩ := hm view.name ((logLen_iff hmem).mp hlog)
  have hlookup : m.fields.lookup view.name = some type := by
    refine List.lookup_eq_some_iff.mpr ⟨before.map fun v => (v.1.name, v.2),
      after.map fun v => (v.1.name, v.2), by rw [fields_eq_map_views, hviews]; simp, ?_⟩
    intro entry hentry
    obtain ⟨earlier, hearlier, rfl⟩ := List.mem_map.mp hentry
    simpa using Ne.symm (hfirst earlier hearlier)
  rw [hlookup] at hfound
  rw [Option.some.inj hfound]
  exact hlen

/-- A marked field is either the first of its name, or it repeats the name of one marked before. -/
theorem Measured.logsLengths_iff {m : Method} (hm : m.Measured) :
    m.LogsLengths ↔ ∀ before view type after, m.views = before ++ (view, type) :: after →
      (∃ earlier ∈ before, earlier.1.name = view.name ∧ earlier.1.logLen = true) →
      type.hasLen = true := by
  constructor
  · rintro h before view type after hviews ⟨⟨first, other⟩, hearlier, hname, hlog⟩
    have hmem : (view, type) ∈ m.views := by simp [hviews]
    have hfirst : (first, other) ∈ m.views := by simp [hviews, hearlier]
    refine h view type hmem ((logLen_iff hmem).mpr ?_)
    exact hname ▸ (logLen_iff hfirst).mp hlog
  · intro h view type hmem hlog
    obtain ⟨before, after, hviews⟩ := List.append_of_mem hmem
    by_cases hrepeats : ∃ earlier ∈ before, earlier.1.name = view.name
    · obtain ⟨⟨first, other⟩, hearlier, hname⟩ := hrepeats
      have hfirst : (first, other) ∈ m.views := by simp [hviews, hearlier]
      refine h before view type after hviews ⟨_, hearlier, hname, (logLen_iff hfirst).mpr ?_⟩
      exact hname ▸ (logLen_iff hmem).mp hlog
    · exact hm.hasLen_of_first hviews (fun earlier he hname => hrepeats ⟨earlier, he, hname⟩) hlog

theorem Measured.logsLengths_of_nodup {m : Method} (hm : m.Measured)
    (h : (m.fields.map Prod.fst).Nodup) : m.LogsLengths := by
  refine hm.logsLengths_iff.mpr ?_
  rintro before view type after hviews ⟨earlier, hearlier, hname, _⟩
  rw [fields_eq_map_views, hviews] at h
  simp only [List.map_append, List.map_cons, List.map_map, List.nodup_append] at h
  have hne := h.2.2 _ (List.mem_map_of_mem hearlier) _ List.mem_cons_self
  exact absurd hname hne

end Method

namespace Builder

variable {b : Builder} {entity label token package service : String} {seed : FlagSet}

theorem MethodStep.fields_eq {names : List String} {m n : Method} {tag : Tag.MethodTag}
    (h : MethodStep b names m tag n) : n.fields = m.fields := by
  cases h with
  | argumentAlias harguments => exact Method.fields_withArguments harguments
  | resultAlias hresults => exact Method.fields_withResults hresults
  | params harguments => exact Method.fields_withArguments harguments
  | _ => rfl

theorem MethodStep.measured {names : List String} {m n : Method} {tag : Tag.MethodTag}
    (h : MethodStep b names m tag n) (hm : m.Measured) : n.Measured := by
  unfold Method.Measured
  rw [h.fields_eq]
  cases h with
  | logsLen hnames =>
    intro name hname
    rcases mem_foldl_addNew.mp hname with hname | hname
    · exact hm name hname
    · obtain ⟨type, htype, hlen⟩ := hnames name hname
      exact ⟨type, m.typeOf?_eq name ▸ htype, hlen⟩
  | _ => exact hm

theorem measured_of_applyMethodToken {m n : Method} (hm : m.Measured)
    (h : b.applyMethodToken entity label m token = .ok n) : n.Measured := by
  rcases applyMethodToken_cases h with ⟨tag, payload, _, happly⟩ | ⟨_, name, _, options, rfl⟩
  · exact (methodStep_of_apply happly).measured hm
  · exact hm

theorem measured_of_buildMethod {decl : MethodDecl} {m : Method}
    (h : b.buildMethod service seed decl = .ok m) : m.Measured := by
  obtain ⟨entity, label, params, results, arguments, fields, tagged, _, _, _, _, htags, hbind⟩ :=
    parts_of_buildMethod h
  have htagged : tagged.Measured :=
    foldlM_invariant (fun _ n => n.Measured) (fun _ _ _ _ => measured_of_applyMethodToken)
      (fun name hname => absurd hname List.not_mem_nil) htags
  obtain ⟨arguments, hretagged, rfl⟩ := retagged_of_bindPath [] hbind
  unfold Method.Measured
  rw [Method.fields_withArguments hretagged]
  exact htagged

/-- Where the marks are right: on the first field of each name always, and on all fields exactly if
no field without a length repeats the name of a marked one. -/
theorem buildIn_logsLengths {decl : InterfaceDecl} {s : Service}
    (h : b.buildIn package decl = .ok s) : ∀ m ∈ s.methods,
    (∀ before view type after, m.views = before ++ (view, type) :: after →
      (∀ earlier ∈ before, earlier.1.name ≠ view.name) → view.logLen = true →
      type.hasLen = true) ∧
    (m.LogsLengths ↔ ∀ before view type after, m.views = before ++ (view, type) :: after →
      (∃ earlier ∈ before, earlier.1.name = view.name ∧ earlier.1.logLen = true) →
      type.hasLen = true) ∧
    ((m.fields.map Prod.fst).Nodup → m.LogsLengths) := by
  intro m hm
  obtain ⟨_, _, _, hbuilt⟩ := exists_buildMethod_of_mem h hm
  have hmeasured := measured_of_buildMethod hbuilt
  exact ⟨fun _ _ _ _ => hmeasured.hasLen_of_first, hmeasured.logsLengths_iff,
    hmeasured.logsLengths_of_nodup⟩

section Reports

def rowsInterface (given : TypeExpr) : InterfaceDecl where
  name := "ReportService"
  methods := [{
    name := "Sum"
    docs := ["// @logs-len(rows)"]
    params := [⟨"ctx", .selector "context" "Context", []⟩, ⟨"rows", .slice (.ident "string"), []⟩]
    results := [⟨"rows", given, []⟩, ⟨"err", .ident "error", []⟩]
  }]

def rowsMethod (given : FieldType) : Method where
  service := "ReportService"
  name := "Sum"
  aliasName := "Sum"
  docs := []
  arguments := [⟨"rows", "rows", .slice (.builtin "string"), .body, false, [], {}⟩]
  results := [⟨"rows", "rows", given⟩]
  flags := FlagSet.empty
  httpMethod := none
  httpPath := none
  logsIgnore := []
  logsLen := ["rows"]
  tags := {}

def rowsService (given : FieldType) : Service where
  name := "ReportService"
  aliasName := "ReportService"
  package := "reports"
  docs := []
  methods := [rowsMethod given]
  flags := FlagSet.empty
  httpPrefix := none
  capabilities := []
  tags := {}

theorem buildIn_logsLengths_bytes :
    ({} : Builder).buildIn "reports" (rowsInterface (.slice (.ident "byte"))) =
        .ok (rowsService .bytes) ∧
      (rowsMethod .bytes).LogsLengths := by
  have hbuilt : ({} : Builder).buildIn "reports" (rowsInterface (.slice (.ident "byte"))) =
      .ok (rowsService .bytes) := by decide +kernel
  have hall : ∀ seen ∈ (rowsMethod .bytes).views, seen.2.hasLen = true := by decide
  obtain ⟨_, hright, _⟩ := buildIn_logsLengths hbuilt _ List.mem_cons_self
  refine ⟨hbuilt, hright.mpr ?_⟩
  intro before view type after hviews _
  exact hall (view, type) (by simp [hviews])

/-- The result is marked because an argument of its name has a length. -/
theorem buildIn_marks_text :
    ({} : Builder).buildIn "reports" (rowsInterface (.ident "string")) =
        .ok (rowsService (.builtin "string")) ∧
      ¬ (rowsMethod (.builtin "string")).LogsLengths := by
  refine ⟨by decide +kernel, fun h => ?_⟩
  have hmem : (⟨"rows", "rows", "string", none, false, true⟩, .builtin "string") ∈
      (rowsMethod (.builtin "string")).views := by decide
  exact absurd (h _ _ hmem rfl) (by decide)

end Reports

end Builder

end ServiceLoom

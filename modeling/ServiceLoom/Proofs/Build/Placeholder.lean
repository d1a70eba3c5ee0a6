import ServiceLoom.Proofs.Build.Origin
import ServiceLoom.Proofs.Service.PathTemplate

/-!
# Names in paths

Names of arguments and of aliases may have dots and hyphens in them, but those of placeholders may
not. So a pair of braces around a name is a placeholder exactly if the name has neither; around any
other name it is plain text, and no argument is looked for.
-/

namespace ServiceLoom

namespace PathTemplate

theorem isIdentifier_iff {name : String} (h : Tag.Payload.isName name = true) :
    IsIdentifier name.toList ↔ '.' ∉ name.toList ∧ '-' ∉ name.toList := by
  constructor
  · intro hname
    exact ⟨fun hdot => absurd (hname.chars _ hdot) (by decide),
      fun hhyphen => absurd (hname.chars _ hhyphen) (by decide)⟩
  · rintro ⟨hdot, hhyphen⟩
    unfold Tag.Payload.isName at h
    split at h
    · cases h
    · rename_i first tail hname
      rw [hname] at hdot hhyphen ⊢
      obtain ⟨hfirst, htail⟩ := Bool.and_eq_true_iff.mp h
      refine ⟨⟨first, rfl, hfirst⟩, List.forall_mem_cons.mpr
        ⟨isNameChar_of_isNameStart hfirst, fun c hc => ?_⟩⟩
      have hcdot : c ≠ '.' := fun heq => hdot (heq ▸ List.mem_cons_of_mem first hc)
      have hchyphen : c ≠ '-' := fun heq => hhyphen (heq ▸ List.mem_cons_of_mem first hc)
      have := List.all_eq_true.mp htail c hc
      simpa [isNameChar, hcdot, hchyphen] using this

end PathTemplate

namespace Builder

variable {b : Builder} {package service : String} {seed : FlagSet}

theorem isPath_of_lastPath? {tokens : List String} {path : String}
    (h : b.lastPath? tokens = some path) : Tag.Payload.IsPath path := by
  obtain ⟨token, _, htoken⟩ := List.mem_filterMap.mp (List.mem_of_getLast? h)
  unfold pathTag? at htoken
  split at htoken
  · rename_i payload _
    cases hread : Tag.Payload.path payload with
    | error fault => simp [hread, Except.toOption] at htoken
    | ok text =>
      obtain rfl : text = path := by simpa [hread, Except.toOption] using htoken
      exact Tag.Payload.isPath_of_path hread
  · cases htoken

/-- The placeholders that whole segments of a path look like are those of all names without dots and
hyphens; these name arguments, which come from the path where no tag says otherwise. -/
theorem buildIn_segments {decl : InterfaceDecl} {s : Service}
    (h : b.buildIn package decl = .ok s) : ∀ m ∈ s.methods, ∀ path name,
    m.httpPath = some path → PathTemplate.Unnested path.toList →
    Tag.Payload.isName name = true → PathTemplate.IsSegment path name →
    (name ∈ PathTemplate.placeholders path ↔ '.' ∉ name.toList ∧ '-' ∉ name.toList) ∧
    ('.' ∉ name.toList → '-' ∉ name.toList →
      (∃ a ∈ m.arguments, name = a.name ∨ name = a.aliasName) ∧
      ∀ a ∈ m.arguments, name = a.name ∨ name = a.aliasName → a.originTagged = false →
        a.origin = .path) := by
  intro m hm path name hpath hunnested hname hsegment
  obtain ⟨_, _, _, hm⟩ := exists_buildMethod_of_mem h hm
  have hbalanced : Brackets.Balanced path.toList :=
    (isPath_of_lastPath? ((routed_of_buildMethod hm).httpPath.symm.trans hpath)).balanced
  have hiff : name ∈ PathTemplate.placeholders path ↔ '.' ∉ name.toList ∧ '-' ∉ name.toList := by
    rw [← PathTemplate.isIdentifier_iff hname]
    exact ⟨PathTemplate.isIdentifier_of_mem_placeholders, fun hidentifier =>
      PathTemplate.mem_placeholders_of_isSegment hbalanced hunnested hidentifier hsegment⟩
  refine ⟨hiff, fun hdot hhyphen => ?_⟩
  rw [buildMethod_eq_bind] at hm
  obtain ⟨tagged, _, hbind⟩ := bind_eq_ok_iff.mp hm
  exact bound_of_bindPath hbind hpath (hiff.mpr ⟨hdot, hhyphen⟩)

section Sessions

def sessionInterface (new path : String) : InterfaceDecl where
  name := "SessionService"
  methods := [{
    name := "Open"
    docs := ["// @http-path(" ++ path ++ ")"]
    params := [⟨"ctx", .selector "context" "Context", []⟩,
      ⟨"token", .ident "string", ["// @alias(" ++ new ++ ")"]⟩]
    results := [⟨"err", .ident "error", []⟩]
  }]

def sessionMethod (new path : String) (origin : Origin) : Method where
  service := "SessionService"
  name := "Open"
  aliasName := "Open"
  docs := []
  arguments := [⟨"token", new, .builtin "string", origin, false, [], {}⟩]
  results := []
  flags := FlagSet.empty
  httpMethod := none
  httpPath := some path
  logsIgnore := []
  logsLen := []
  tags := {}

def sessionService (m : Method) : Service where
  name := "SessionService"
  aliasName := "SessionService"
  package := "sessions"
  docs := []
  methods := [m]
  flags := FlagSet.empty
  httpPrefix := none
  capabilities := []
  tags := {}

theorem buildIn_segments_session :
    ({} : Builder).buildIn "sessions" (sessionInterface "key" "/open/\x7bkey:[a-z]+\x7d") =
        .ok (sessionService (sessionMethod "key" "/open/\x7bkey:[a-z]+\x7d" .path)) ∧
      PathTemplate.Unnested "/open/\x7bkey:[a-z]+\x7d".toList ∧
      Tag.Payload.isName "key" = true ∧
      PathTemplate.IsSegment "/open/\x7bkey:[a-z]+\x7d" "key" ∧
      "key" ∈ PathTemplate.placeholders "/open/\x7bkey:[a-z]+\x7d" := by
  have hbuilt : ({} : Builder).buildIn "sessions"
      (sessionInterface "key" "/open/\x7bkey:[a-z]+\x7d") =
      .ok (sessionService (sessionMethod "key" "/open/\x7bkey:[a-z]+\x7d" .path)) := by
    decide +kernel
  have hunnested : PathTemplate.Unnested "/open/\x7bkey:[a-z]+\x7d".toList := by decide
  have hsegment : PathTemplate.IsSegment "/open/\x7bkey:[a-z]+\x7d" "key" :=
    ⟨":[a-z]+".toList, Or.inr ⟨"[a-z]+".toList, by decide⟩, by decide⟩
  have hname : Tag.Payload.isName "key" = true := by decide
  obtain ⟨hiff, _⟩ := buildIn_segments hbuilt _ List.mem_cons_self _ "key" rfl hunnested hname
    hsegment
  exact ⟨hbuilt, hunnested, hname, hsegment, hiff.mpr (by decide)⟩

/-- The alias is a name and the path is made of it, and still the argument comes from the body. -/
theorem buildIn_overlooks_header :
    ({} : Builder).buildIn "sessions" (sessionInterface "X-Token" "/\x7bX-Token\x7d") =
        .ok (sessionService (sessionMethod "X-Token" "/\x7bX-Token\x7d" .body)) ∧
      PathTemplate.Unnested "/\x7bX-Token\x7d".toList ∧
      Tag.Payload.isName "X-Token" = true ∧
      PathTemplate.IsSegment "/\x7bX-Token\x7d" "X-Token" ∧
      ∃ a ∈ (sessionMethod "X-Token" "/\x7bX-Token\x7d" .body).arguments,
        a.aliasName = "X-Token" ∧ a.originTagged = false ∧ a.origin ≠ .path := by
  exact ⟨by decide +kernel, by decide, by decide,
    ⟨[], Or.inl rfl, by decide⟩, _, List.mem_cons_self, rfl, rfl, by decide⟩

end Sessions

end Builder

end ServiceLoom

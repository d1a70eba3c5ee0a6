import ServiceLoom.Proofs.Build.Change

/-!
# Where arguments come from

The last tag that gives an origin decides. Without one it is settled when all tags are applied: the
placeholders of the last path are compared with the names and with the aliases that the arguments
have in the end. This is also the only thing that can then still be wrong with a method.
-/

namespace ServiceLoom

/-- The argument is as the changes leave it, given the placeholders of the path. -/
structure Argument.Routed (placeholders : List String) (param : FieldDecl)
    (changes : List ParamChange) (a : Argument) : Prop where
  name : a.name = param.name
  aliasName : a.aliasName = (ParamChange.lastAlias? changes).getD param.name
  origin : a.origin = (ParamChange.lastOrigin? changes).getD
    (if a.name ∈ placeholders ∨ a.aliasName ∈ placeholders then .path else .body)

namespace Builder

variable {b : Builder} {entity package service : String} {seed : FlagSet}

def methodEntity (service name : String) : String :=
  let label := s!"{service}.{name}"
  s!"method {label}"

/-- The signature is checked and all tags are applied; only the path is still to be looked at. -/
def tagMethod (b : Builder) (service : String) (seed : FlagSet) (decl : MethodDecl) :
    Except Error Method := do
  let label := s!"{service}.{decl.name}"
  let entity := methodEntity service decl.name
  let params ← b.contextRest entity decl.params
  let results ← b.errorRest entity decl.results
  let arguments ← b.buildArguments label 1 params
  let fields ← buildResults entity 1 results
  let comment := Comment.classify decl.docs
  let plain := b.plainMethod service seed decl.name comment.docs arguments fields
  comment.tags.foldlM (b.applyMethodToken entity label) plain

theorem buildMethod_eq_bind (b : Builder) (service : String) (seed : FlagSet) (decl : MethodDecl) :
    b.buildMethod service seed decl =
      b.tagMethod service seed decl >>= bindPath (methodEntity service decl.name) := by
  simp only [tagMethod, bind_assoc]
  rfl

theorem changed_of_tagMethod {decl : MethodDecl} {m : Method}
    (h : b.tagMethod service seed decl = .ok m) :
    MethodChanged b decl.params.tail (Comment.classify decl.docs).tags m := by
  obtain ⟨params, hparams, h⟩ := bind_eq_ok_iff.mp h
  obtain ⟨results, _, h⟩ := bind_eq_ok_iff.mp h
  obtain ⟨arguments, harguments, h⟩ := bind_eq_ok_iff.mp h
  obtain ⟨fields, _, h⟩ := bind_eq_ok_iff.mp h
  obtain ⟨context, hparams, _⟩ := params_of_contextRest hparams
  refine foldlM_invariant (fun tokens m => MethodChanged b decl.params.tail tokens m)
    (fun _ _ _ _ => .applyMethodToken) ?_ h
  constructor
  case arguments =>
    have hnone : b.changes params [] = fun _ param =>
        (Comment.classify param.docs).tags.filterMap b.paramChange? := by
      funext _ param
      exact List.append_nil _
    rw [hparams, List.tail_cons, hnone]
    exact changed_of_buildArguments harguments
  case httpPath => rfl

/-! ## Placeholders -/

def methodTokens (decl : MethodDecl) : List String := (Comment.classify decl.docs).tags

def pathNames (b : Builder) (decl : MethodDecl) : List String :=
  ((b.lastPath? (methodTokens decl)).map PathTemplate.placeholders).getD []

def changesOf (b : Builder) (decl : MethodDecl) (p : FieldDecl × Nat) : List ParamChange :=
  b.changes decl.params.tail (methodTokens decl) p.2 p.1

/-- An argument has this name or, in the end, this alias. -/
def Claims (b : Builder) (decl : MethodDecl) (name : String) : Prop :=
  ∃ p ∈ decl.params.tail.zipIdx,
    name = p.1.name ∨ name = (ParamChange.lastAlias? (b.changesOf decl p)).getD p.1.name

instance (b : Builder) (decl : MethodDecl) (name : String) : Decidable (b.Claims decl name) :=
  inferInstanceAs (Decidable (∃ p ∈ decl.params.tail.zipIdx, name = p.1.name ∨ _))

def unclaimed? (b : Builder) (decl : MethodDecl) : Option String :=
  (b.pathNames decl).find? fun name => ¬ b.Claims decl name

/-- The path is the last one, and all arguments come from where their changes and the path say. -/
structure MethodRouted (b : Builder) (decl : MethodDecl) (m : Method) : Prop where
  httpPath : m.httpPath = b.lastPath? (methodTokens decl)
  arguments : List.Forall₂ (fun p a =>
    Argument.Routed (b.pathNames decl) p.1 (b.changesOf decl p) a)
    decl.params.tail.zipIdx m.arguments

def unknownPlaceholder (entity name : String) : Error :=
  .invalidDeclaration entity s!"http-path placeholder '{name}' is not an argument"

theorem bindPath_eq (entity : String) (m : Method) :
    let names := (m.httpPath.map PathTemplate.placeholders).getD []
    bindPath entity m =
      match names.find? fun name => !m.arguments.any (namedBy · name) with
      | some unknown => .error (unknownPlaceholder entity unknown)
      | none =>
        .ok { m with
          arguments := m.arguments.map fun a =>
            if !a.originTagged && names.any (namedBy a) then { a with origin := .path }
            else a } := by
  obtain ⟨_, _, _, _, _, _, _, _, httpPath, _, _, _⟩ := m
  unfold bindPath
  cases httpPath with
  | none => simp
  | some path => rfl

theorem ArgumentsChanged.forall₂ {params : List FieldDecl}
    {changes : Nat → FieldDecl → List ParamChange} {arguments : List Argument}
    (h : ArgumentsChanged params changes arguments) :
    List.Forall₂ (fun p a => Argument.Changed p.1 (changes p.2 p.1) a) params.zipIdx arguments := by
  refine List.forall₂_iff_get.mpr ⟨by simpa using (congrArg List.length h.names).symm, ?_⟩
  intro i hi ha
  rw [List.get_eq_getElem, List.get_eq_getElem, List.getElem_zipIdx, Nat.zero_add]
  rw [List.length_zipIdx] at hi
  exact h.each i _ _ (List.getElem?_eq_getElem hi) (List.getElem?_eq_getElem ha)

theorem routed_of_changed {param : FieldDecl} {changes : List ParamChange} {a : Argument}
    (ha : a.Changed param changes) (names : List String) :
    Argument.Routed names param changes
      (if !a.originTagged && names.any (namedBy a) then { a with origin := .path } else a) := by
  have hnamed : names.any (namedBy a) = true ↔ a.name ∈ names ∨ a.aliasName ∈ names := by
    simp only [List.any_eq_true, namedBy, Bool.or_eq_true, beq_iff_eq, and_or_left, exists_or,
      exists_eq_right]
  have htagged := ha.originTagged
  have horigin := ha.origin
  cases hlast : ParamChange.lastOrigin? changes with
  | some chosen =>
    rw [hlast] at htagged horigin
    rw [htagged]
    exact ⟨ha.name, ha.aliasName, by rw [hlast]; exact horigin⟩
  | none =>
    rw [hlast] at htagged horigin
    by_cases h : a.name ∈ names ∨ a.aliasName ∈ names
    · rw [htagged, hnamed.mpr h]
      exact ⟨ha.name, ha.aliasName, by rw [hlast]; exact (if_pos h).symm⟩
    · rw [htagged, Bool.eq_false_iff.mpr fun hany => h (hnamed.mp hany)]
      exact ⟨ha.name, ha.aliasName, by rw [hlast]; exact horigin.trans (if_neg h).symm⟩

theorem exists_mem_iff_of_forall₂ {α γ : Type} {R : α → γ → Prop} {P : α → Prop} {Q : γ → Prop}
    (hR : ∀ a c, R a c → (P a ↔ Q c)) {as : List α} {cs : List γ} (h : List.Forall₂ R as cs) :
    (∃ a ∈ as, P a) ↔ ∃ c ∈ cs, Q c := by
  induction h with
  | nil => simp
  | cons hac _ ih => simp only [List.exists_mem_cons_iff, hR _ _ hac, ih]

namespace MethodChanged

variable {decl : MethodDecl} {m : Method}

theorem any_namedBy (h : MethodChanged b decl.params.tail (methodTokens decl) m) {name : String} :
    m.arguments.any (namedBy · name) = true ↔ b.Claims decl name := by
  rw [List.any_eq_true]
  refine (exists_mem_iff_of_forall₂ ?_ h.arguments.forall₂).symm
  intro p a ha
  rw [changesOf, ← ha.aliasName, ← ha.name]
  simp [namedBy]

theorem pathNames_eq (h : MethodChanged b decl.params.tail (methodTokens decl) m) :
    (m.httpPath.map PathTemplate.placeholders).getD [] = b.pathNames decl := by
  rw [h.httpPath, pathNames]

theorem unclaimed?_eq (h : MethodChanged b decl.params.tail (methodTokens decl) m) :
    (b.pathNames decl).find? (fun name => !m.arguments.any (namedBy · name)) =
      b.unclaimed? decl := by
  refine congrArg (List.find? · _) (funext fun name => ?_)
  rw [Bool.eq_iff_iff, Bool.not_eq_true', decide_eq_true_iff, ← h.any_namedBy, Bool.not_eq_true]

/-- With all tags applied only an unknown placeholder can be wrong. -/
theorem bindPath_eq_error_iff (h : MethodChanged b decl.params.tail (methodTokens decl) m)
    {e : Error} : bindPath entity m = .error e ↔ ∃ name, b.unclaimed? decl = some name ∧
      e = unknownPlaceholder entity name := by
  rw [bindPath_eq, h.pathNames_eq, h.unclaimed?_eq]
  cases b.unclaimed? decl with
  | none => simp
  | some name => simp [eq_comm]

theorem routed (h : MethodChanged b decl.params.tail (methodTokens decl) m) {n : Method}
    (hn : bindPath entity m = .ok n) : MethodRouted b decl n := by
  rw [bindPath_eq, h.pathNames_eq] at hn
  split at hn
  · cases hn
  · obtain rfl := Except.ok.inj hn
    refine ⟨h.httpPath, List.forall₂_map_right_iff.mpr (h.arguments.forall₂.imp ?_)⟩
    exact fun p a ha => routed_of_changed ha (b.pathNames decl)

end MethodChanged

theorem routed_of_buildMethod {decl : MethodDecl} {m : Method}
    (h : b.buildMethod service seed decl = .ok m) : MethodRouted b decl m := by
  rw [buildMethod_eq_bind] at h
  obtain ⟨tagged, htagged, hbind⟩ := bind_eq_ok_iff.mp h
  exact (changed_of_tagMethod htagged).routed hbind

/-- Where the arguments of built methods come from, and when a method whose tags all apply is still
refused. -/
theorem buildIn_routed (b : Builder) (package : String) (decl : InterfaceDecl) :
    (∀ s, b.buildIn package decl = .ok s →
      List.Forall₂ (MethodRouted b) decl.methods s.methods) ∧
    ∀ service seed (m : MethodDecl) tagged, b.tagMethod service seed m = .ok tagged →
      ((∃ e, b.buildMethod service seed m = .error e) ↔
        ∃ name ∈ b.pathNames m, ¬ b.Claims m name) ∧
      ∀ e, b.buildMethod service seed m = .error e ↔ ∃ name, b.unclaimed? m = some name ∧
        e = unknownPlaceholder (methodEntity service m.name) name := by
  constructor
  · intro s h
    obtain ⟨head, methods, _, hmethods, rfl⟩ := parts_of_buildIn h
    exact (parts_of_buildMethods hmethods).1.imp fun _ _ => routed_of_buildMethod
  · intro service seed m tagged htagged
    have hchanged := changed_of_tagMethod htagged
    have herror : ∀ e, b.buildMethod service seed m = .error e ↔ ∃ name,
        b.unclaimed? m = some name ∧ e = unknownPlaceholder (methodEntity service m.name) name := by
      intro e
      rw [buildMethod_eq_bind, htagged]
      exact hchanged.bindPath_eq_error_iff
    refine ⟨?_, herror⟩
    have hsome : (b.unclaimed? m).isSome = true ↔ ∃ name ∈ b.pathNames m, ¬ b.Claims m name := by
      simp [unclaimed?, List.find?_isSome]
    rw [← hsome, Option.isSome_iff_exists]
    constructor
    · rintro ⟨e, he⟩
      obtain ⟨name, hname, _⟩ := (herror e).mp he
      exact ⟨name, hname⟩
    · rintro ⟨name, hname⟩
      exact ⟨_, (herror _).mpr ⟨name, hname, rfl⟩⟩

section Feeds

def readDecl : MethodDecl where
  name := "Read"
  docs := ["// @http-path(/\x7bgone\x7d) @http-path(/\x7bfeed\x7d/\x7bpage:[0-9]+\x7d)",
    "// @alias(id,feed) @params(page,(@http-origin(QUERY)))"]
  params := [⟨"ctx", .selector "context" "Context", []⟩, ⟨"id", .ident "int64", []⟩,
    ⟨"page", .ident "int", ["// @http-origin(HEADER)"]⟩, ⟨"filter", .ident "string", []⟩]
  results := [⟨"err", .ident "error", []⟩]

def readMethod : Method where
  service := "FeedService"
  name := "Read"
  aliasName := "Read"
  docs := []
  arguments := [⟨"id", "feed", .builtin "int64", .path, false, [], {}⟩,
    ⟨"page", "page", .builtin "int", .query, true, [], {}⟩,
    ⟨"filter", "filter", .builtin "string", .body, false, [], {}⟩]
  results := []
  flags := FlagSet.empty
  httpMethod := none
  httpPath := some "/\x7bfeed\x7d/\x7bpage:[0-9]+\x7d"
  logsIgnore := []
  logsLen := []
  tags := {}

def feedService : Service where
  name := "FeedService"
  aliasName := "FeedService"
  package := "feeds"
  docs := []
  methods := [readMethod]
  flags := FlagSet.empty
  httpPrefix := none
  capabilities := []
  tags := {}

def renamedDecl : MethodDecl where
  name := "Find"
  docs := ["// @alias(id,feed) @http-path(/\x7bid\x7d/\x7bfeed\x7d) @alias(id,source)"]
  params := [⟨"ctx", .selector "context" "Context", []⟩, ⟨"id", .ident "int64", []⟩]
  results := [⟨"err", .ident "error", []⟩]

def renamedMethod : Method where
  service := "FeedService"
  name := "Find"
  aliasName := "Find"
  docs := []
  arguments := [⟨"id", "source", .builtin "int64", .body, false, [], {}⟩]
  results := []
  flags := FlagSet.empty
  httpMethod := none
  httpPath := some "/\x7bid\x7d/\x7bfeed\x7d"
  logsIgnore := []
  logsLen := []
  tags := {}

theorem buildIn_routed_feeds :
    ({} : Builder).buildIn "feeds" ⟨"FeedService", [], [], [readDecl]⟩ = .ok feedService ∧
      MethodRouted {} readDecl readMethod ∧
      ({} : Builder).tagMethod "FeedService" FlagSet.empty renamedDecl = .ok renamedMethod ∧
      ({} : Builder).buildMethod "FeedService" FlagSet.empty renamedDecl =
        .error (.invalidDeclaration "method FeedService.Find"
          "http-path placeholder 'feed' is not an argument") := by
  have hbuilt : ({} : Builder).buildIn "feeds" ⟨"FeedService", [], [], [readDecl]⟩ =
      .ok feedService := by decide +kernel
  have htagged : ({} : Builder).tagMethod "FeedService" FlagSet.empty renamedDecl =
      .ok renamedMethod := by decide +kernel
  have hunclaimed : ({} : Builder).unclaimed? renamedDecl = some "feed" := by decide +kernel
  obtain ⟨hroutes, hrefuses⟩ := buildIn_routed {} "feeds" ⟨"FeedService", [], [], [readDecl]⟩
  refine ⟨hbuilt, ?_, htagged, ((hrefuses _ _ _ _ htagged).2 _).mpr ⟨"feed", hunclaimed, rfl⟩⟩
  cases hroutes feedService hbuilt with
  | cons h _ => exact h

end Feeds

end Builder

end ServiceLoom

import ServiceLoom.Build.Service
import ServiceLoom.Proofs.Results
import ServiceLoom.Proofs.Tag.Extension

/-!
# Builders with more parsers

A builder whose tables are continued by further sound registrations returns every service it
returned before, unchanged. The only places that look at the tables are the three functions that
apply one token; all others combine them, and combinations respect refinement. A token that did not
resolve may do so with more parsers, so failures are not kept.
-/

namespace ServiceLoom

namespace Tag

theorem refines_resolveOn {entity token : String} {builtin fewer more : List String}
    (h : ∀ tag, resolve token builtin fewer = .ok tag → resolve token builtin more = .ok tag) :
    Refines (resolveOn entity token builtin fewer) (resolveOn entity token builtin more) := by
  intro tag htag
  unfold resolveOn at htag ⊢
  split at htag
  · rename_i resolved hresolved
    rw [h resolved hresolved]
    exact htag
  · cases htag
  · cases htag
  · cases htag

theorem refines_optionsOn {α : Type} (entity token : String) (fewer more : TagTable α)
    (tag : Resolved) (view : α) :
    Refines (optionsOn entity token fewer tag view)
      (optionsOn entity token (fewer ++ more) tag view) := by
  intro bag hbag
  unfold optionsOn at hbag ⊢
  split at hbag
  · rename_i parser hparser
    rw [TagTable.find?_append_of_some hparser]
    exact hbag
  · cases hbag

end Tag

namespace Builder

theorem refines_changeFirst {α ε : Type} (p : α → Bool) {change change' : α → Except ε α}
    (h : ∀ a, Refines (change a) (change' a)) (missing : ε) (as : List α) :
    Refines (changeFirst p change missing as) (changeFirst p change' missing as) := by
  induction as with
  | nil => exact Refines.refl _
  | cons a rest ih =>
    unfold changeFirst
    split
    · exact (h a).bind fun _ => Refines.refl _
    · exact ih.bind fun _ => Refines.refl _

variable {b : Builder} {parsers : TagParsers}

theorem refines_applyParamToken (hp : parsers.Prolongs b.parsers) (hs : parsers.Sound)
    (entity : String) (a : Argument) (token : String) :
    Refines (b.applyParamToken entity a token)
      ({ b with parsers := parsers }.applyParamToken entity a token) := by
  obtain ⟨new, hnew⟩ := hp.param
  have hsound := hs.param
  unfold applyParamToken
  simp only [hnew] at hsound ⊢
  apply Refines.bind
  · exact Tag.refines_resolveOn fun _ => hsound.resolve_append Tag.settled_of_mem_param
  · intro tag
    cases tag.pool with
    | builtin => exact Refines.refl _
    | custom => exact (Tag.refines_optionsOn _ _ _ _ _ _).bind fun _ => Refines.refl _

theorem refines_applyParamTokens (hp : parsers.Prolongs b.parsers) (hs : parsers.Sound)
    (entity : String) (a : Argument) (tokens : List String) :
    Refines (b.applyParamTokens entity a tokens)
      ({ b with parsers := parsers }.applyParamTokens entity a tokens) :=
  Refines.foldlM (refines_applyParamToken hp hs entity) tokens a

theorem refines_buildArgument (hp : parsers.Prolongs b.parsers) (hs : parsers.Sound)
    (label : String) (position : Nat) (last : Bool) (param : FieldDecl) :
    Refines (b.buildArgument label position last param)
      ({ b with parsers := parsers }.buildArgument label position last param) := by
  unfold buildArgument
  apply (Refines.refl _).bind
  intro _
  apply (Refines.refl _).bind
  intro type
  exact refines_applyParamTokens hp hs _ _ _

theorem refines_buildArguments (hp : parsers.Prolongs b.parsers) (hs : parsers.Sound)
    (label : String) (position : Nat) (params : List FieldDecl) :
    Refines (b.buildArguments label position params)
      ({ b with parsers := parsers }.buildArguments label position params) := by
  induction params generalizing position with
  | nil => exact Refines.refl _
  | cons param rest ih =>
    unfold buildArguments
    apply (refines_buildArgument hp hs label position rest.isEmpty param).bind
    intro _
    exact (ih (position + 1)).bind fun _ => Refines.refl _

theorem refines_applyParams (hp : parsers.Prolongs b.parsers) (hs : parsers.Sound)
    (entity label : String) (tags : List String) (m : Method) (name : String) :
    Refines (b.applyParams entity label tags m name)
      ({ b with parsers := parsers }.applyParams entity label tags m name) := by
  unfold applyParams
  apply Refines.bind
  · exact refines_changeFirst _ (fun a => refines_applyParamTokens hp hs _ a tags) _ _
  · exact fun _ => Refines.refl _

/-- Of the built-in method tags only `params` applies further tokens. -/
theorem refines_applyMethodTag (hp : parsers.Prolongs b.parsers) (hs : parsers.Sound)
    (entity label token : String) (payload : Option String) (m : Method) (tag : Tag.MethodTag) :
    Refines (b.applyMethodTag entity label token payload m tag)
      ({ b with parsers := parsers }.applyMethodTag entity label token payload m tag) := by
  cases tag with
  | params =>
    apply (Refines.refl _).bind
    intro params
    exact Refines.foldlM (refines_applyParams hp hs entity label params.tags) params.names m
  | _ => exact Refines.refl _

theorem refines_applyMethodToken (hp : parsers.Prolongs b.parsers) (hs : parsers.Sound)
    (entity label : String) (m : Method) (token : String) :
    Refines (b.applyMethodToken entity label m token)
      ({ b with parsers := parsers }.applyMethodToken entity label m token) := by
  obtain ⟨new, hnew⟩ := hp.method
  have hsound := hs.method
  unfold applyMethodToken
  simp only [hnew] at hsound ⊢
  apply Refines.bind
  · exact Tag.refines_resolveOn fun _ => hsound.resolve_append Tag.settled_of_mem_method
  · intro tag
    cases tag.pool with
    | custom => exact (Tag.refines_optionsOn _ _ _ _ _ _).bind fun _ => Refines.refl _
    | builtin =>
      cases hname : Tag.MethodTag.ofName? tag.name with
      | none => exact Refines.refl _
      | some builtin => exact refines_applyMethodTag hp hs _ _ _ _ _ builtin

theorem refines_buildMethod (hp : parsers.Prolongs b.parsers) (hs : parsers.Sound)
    (service : String) (seed : FlagSet) (decl : MethodDecl) :
    Refines (b.buildMethod service seed decl)
      ({ b with parsers := parsers }.buildMethod service seed decl) := by
  unfold buildMethod
  apply (Refines.refl _).bind
  intro params
  apply (Refines.refl _).bind
  intro results
  apply (refines_buildArguments hp hs _ 1 params).bind
  intro arguments
  apply (Refines.refl _).bind
  intro fields
  apply (Refines.foldlM (refines_applyMethodToken hp hs _ _) _ _).bind
  exact fun _ => Refines.refl _

theorem refines_buildMethods (hp : parsers.Prolongs b.parsers) (hs : parsers.Sound)
    (service : String) (seed : FlagSet) (built : List String) (decls : List MethodDecl) :
    Refines (b.buildMethods service seed built decls)
      ({ b with parsers := parsers }.buildMethods service seed built decls) := by
  induction decls generalizing built with
  | nil => exact Refines.refl _
  | cons decl rest ih =>
    unfold buildMethods
    split
    · intro _ hmethods
      cases hmethods
    · apply (refines_buildMethod hp hs service seed decl).bind
      intro _
      exact (ih (decl.name :: built)).bind fun _ => Refines.refl _

theorem refines_applyServiceToken (hp : parsers.Prolongs b.parsers) (hs : parsers.Sound)
    (entity : String) (s : Service) (token : String) :
    Refines (b.applyServiceToken entity s token)
      ({ b with parsers := parsers }.applyServiceToken entity s token) := by
  obtain ⟨new, hnew⟩ := hp.service
  have hsound := hs.service
  unfold applyServiceToken
  simp only [hnew] at hsound ⊢
  apply Refines.bind
  · exact Tag.refines_resolveOn fun _ => hsound.resolve_append Tag.settled_of_mem_service
  · intro tag
    cases tag.pool with
    | builtin => exact Refines.refl _
    | custom => exact (Tag.refines_optionsOn _ _ _ _ _ _).bind fun _ => Refines.refl _

theorem refines_buildHead (hp : parsers.Prolongs b.parsers) (hs : parsers.Sound)
    (package : String) (decl : InterfaceDecl) :
    Refines (b.buildHead package decl) ({ b with parsers := parsers }.buildHead package decl) := by
  unfold buildHead
  dsimp only
  split
  · intro _ hhead
    cases hhead
  · exact Refines.foldlM (refines_applyServiceToken hp hs _) _ _

theorem refines_buildIn (hp : parsers.Prolongs b.parsers) (hs : parsers.Sound)
    (package : String) (decl : InterfaceDecl) :
    Refines (b.buildIn package decl) ({ b with parsers := parsers }.buildIn package decl) := by
  unfold buildIn
  apply (refines_buildHead hp hs package decl).bind
  intro head
  apply (refines_buildMethods hp hs _ _ [] decl.methods).bind
  exact fun _ => Refines.refl _

/-- Further registrations keep every service and every tag that resolves. -/
theorem buildIn_of_extends {fewer more : TagParsers} (hreached : fewer.Reached)
    (hextends : more.Extends fewer) :
    (∀ (convention : Convention) (serviceFlags methodFlags : FlagUniverse) (package : String)
      (decl : InterfaceDecl) (service : Service),
      (Builder.mk convention fewer serviceFlags methodFlags).buildIn package decl = .ok service →
      (Builder.mk convention more serviceFlags methodFlags).buildIn package decl = .ok service) ∧
    ∀ (kind : EntityKind) (token : String) (tag : Tag.Resolved),
      Tag.resolve token (Tag.builtinNames kind) (fewer.names kind) = .ok tag →
      Tag.resolve token (Tag.builtinNames kind) (more.names kind) = .ok tag := by
  obtain ⟨hprolongs, hkeeps⟩ := hextends.prolongs_and_sound
  have hsound := hkeeps hreached.sound
  constructor
  · intro convention serviceFlags methodFlags package decl
    exact refines_buildIn (b := ⟨convention, fewer, serviceFlags, methodFlags⟩) hprolongs hsound
      package decl
  · intro kind token tag h
    cases kind with
    | service =>
      obtain ⟨new, hnew⟩ := hprolongs.service
      have hs := hsound.service
      simp only [TagParsers.names, Tag.builtinNames, hnew] at hs h ⊢
      exact hs.resolve_append Tag.settled_of_mem_service h
    | method =>
      obtain ⟨new, hnew⟩ := hprolongs.method
      have hs := hsound.method
      simp only [TagParsers.names, Tag.builtinNames, hnew] at hs h ⊢
      exact hs.resolve_append Tag.settled_of_mem_method h
    | param =>
      obtain ⟨new, hnew⟩ := hprolongs.param
      have hs := hsound.param
      simp only [TagParsers.names, Tag.builtinNames, hnew] at hs h ⊢
      exact hs.resolve_append Tag.settled_of_mem_param h

/-! A service whose tags are prefixes and extensions of the names registered later. -/

def timeToLive : TagParser Method := fun _ payload =>
  .ok (OptionBag.ofList [("ttl", payload.getD "60s")])

def caching : TagParsers := { method := [(⟨"cache"⟩, timeToLive)] }

def laterCalls : List Registration :=
  [.service "gen" fun _ _ => .ok {}, .method "Cache-Control" timeToLive, .method "cac" timeToLive,
    .param "ali" fun _ _ => .ok {}]

def cachingAndLater : TagParsers where
  service := [(⟨"gen"⟩, fun _ _ => .ok {})]
  method := [(⟨"cache"⟩, timeToLive), (⟨"cache-control"⟩, timeToLive), (⟨"cac"⟩, timeToLive)]
  param := [(⟨"ali"⟩, fun _ _ => .ok {})]

def pingInterface : InterfaceDecl where
  name := "PingService"
  docs := ["// @generate(logging)"]
  methods := [{
    name := "Ping"
    docs := ["// @CACHE(5s) @params(host, (alias(h)))"]
    params := [⟨"ctx", .selector "context" "Context", []⟩, ⟨"host", .ident "string", []⟩]
    results := [⟨"err", .ident "error", []⟩]
  }]

def pingMethod : Method where
  service := "PingService"
  name := "Ping"
  aliasName := "Ping"
  docs := []
  arguments := [⟨"host", "h", .builtin "string", .body, false, [], {}⟩]
  results := []
  flags := FlagSet.ofList ["logging"]
  httpMethod := none
  httpPath := none
  logsIgnore := []
  logsLen := []
  tags := ⟨[("cache", ⟨[("ttl", "5s")]⟩)]⟩

def pingService : Service where
  name := "PingService"
  aliasName := "PingService"
  package := "ping"
  docs := []
  methods := [pingMethod]
  flags := FlagSet.ofList ["logging"]
  httpPrefix := none
  capabilities := []
  tags := {}

theorem buildIn_of_extends_ping :
    caching.Reached ∧ cachingAndLater.Extends caching ∧
      (Builder.mk {} caching .service .method).buildIn "ping" pingInterface = .ok pingService ∧
      (Builder.mk {} cachingAndLater .service .method).buildIn "ping" pingInterface =
        .ok pingService := by
  have hreached : caching.Reached := ⟨[.method "cache" timeToLive], rfl⟩
  have hextends : cachingAndLater.Extends caching := ⟨laterCalls, rfl⟩
  have hbuilt : (Builder.mk {} caching .service .method).buildIn "ping" pingInterface =
      .ok pingService := by decide +kernel
  exact ⟨hreached, hextends, hbuilt, (buildIn_of_extends hreached hextends).1 _ _ _ _ _ _ hbuilt⟩

end Builder

end ServiceLoom

import ServiceLoom.Proofs.Build.Token
import ServiceLoom.Proofs.Tag.Unambiguous

/-!
# What a build can fail on

Every error that ends a build is either the answer of a custom parser, passed on, or names what is
wrong: a token that starts with no name of its kind, a payload or a directive that cannot be read,
or the declaration itself. No token is ever ambiguous between the two pools, and no token is unknown
once a name has been found for it.
-/

namespace ServiceLoom

/-- One of the parsers answers some entity and payload with the error. -/
def TagTable.Yields {α : Type} (table : TagTable α) (e : Error) : Prop :=
  ∃ entry ∈ table, ∃ view payload, entry.2 view payload = .error e

namespace TagParsers

def Yields (parsers : TagParsers) (e : Error) : Prop :=
  parsers.service.Yields e ∨ parsers.method.Yields e ∨ parsers.param.Yields e

/-- The token starts with no name that entities of the kind know. -/
def Unknown (parsers : TagParsers) (kind : EntityKind) (token : String) : Prop :=
  ∀ name ∈ Tag.builtinNames kind ++ parsers.names kind, ¬ Tag.StartsWith token.toList name

/-- The errors of a build. -/
inductive Explains (parsers : TagParsers) : Error → Prop
  | own {e : Error} (h : parsers.Yields e) : Explains parsers e
  | unknownTag {kind : EntityKind} {token : String} (label : String)
      (h : parsers.Unknown kind token) :
      Explains parsers (.unknownTag s!"{kind.word} {label}" token)
  | malformedTag (entity token reason : String) :
      Explains parsers (.malformedTag entity token reason)
  | invalidFlag (kind : EntityKind) (entity directive value : String) :
      Explains parsers (.invalidFlag kind entity directive value)
  | invalidDeclaration (entity reason : String) :
      Explains parsers (.invalidDeclaration entity reason)

end TagParsers

variable {parsers : TagParsers}

namespace Tag

theorem blames_readOn {α : Type} {entity token : String} {x : Except Fault α} :
    Blames parsers.Explains (readOn entity token x) := by
  cases x with
  | ok a => exact .ok a
  | error fault => exact .error (.malformedTag ..)

theorem blames_directOn {α : Type} {entity directive : String} {x : Except UnknownFlag α} :
    Blames parsers.Explains (directOn entity directive x) := by
  cases x with
  | ok a => exact .ok a
  | error unknown => exact .error (.invalidFlag ..)

theorem blames_resolveOn (hs : parsers.Sound) (kind : EntityKind) (label : String)
    {token : String} :
    Blames parsers.Explains
      (resolveOn s!"{kind.word} {label}" token (builtinNames kind) (parsers.names kind)) := by
  have hpools := hs.pools kind
  unfold resolveOn
  cases h : resolve token (builtinNames kind) (parsers.names kind) with
  | ok tag => exact .ok tag
  | error e =>
    cases e with
    | unknown =>
      exact .error (.unknownTag label
        ((hpools.resolve_eq_error_of_not_malformed (by simp)).mp h).2)
    | ambiguous name =>
      cases ((hpools.resolve_eq_error_of_not_malformed (by simp)).mp h).1
    | malformed name cause => exact .error (.malformedTag ..)

/-- Once a name is found, a step fails only where the parser or the built-in tag does. -/
theorem blames_step {α κ : Type} {ofName? : String → Option κ} {nameOf : κ → String}
    {builtin : List String} {table : TagTable α} {apply : Option String → κ → Except Error α}
    {merge : String → OptionBag → α} {entity token : String} {view : α} {P : Error → Prop}
    (hd : Dispatches ofName? nameOf builtin table)
    (hresolve : Blames P (resolveOn entity token builtin table.names))
    (hparser : ∀ e, table.Yields e → P e) (happly : ∀ payload tag, Blames P (apply payload tag)) :
    Blames P (step ofName? builtin table apply merge entity token view) := by
  unfold step
  refine hresolve.bind fun tag htag => ?_
  have hfound := hd token tag (resolveOn_eq_ok_iff.mp htag)
  obtain ⟨pool, name, payload⟩ := tag
  cases pool with
  | custom =>
    obtain ⟨entry, hentry, _, hfind⟩ := hfound
    refine Blames.bind ?_ fun options _ => .ok _
    rw [optionsOn, hfind]
    exact fun e he => hparser e ⟨entry, hentry, view, payload, he⟩
  | builtin =>
    obtain ⟨known, hknown, _⟩ := hfound
    simp only [hknown]
    exact happly payload known

end Tag

theorem blames_convertType {entity : String} {expr : TypeExpr} {allowVariadic : Bool} :
    Blames parsers.Explains (convertType entity expr allowVariadic) := by
  unfold convertType
  split
  · exact .ok _
  · exact .error (.invalidDeclaration ..)

theorem blames_checkNamed {entity what : String} {position : Nat} {field : FieldDecl} :
    Blames parsers.Explains (checkNamed entity what position field) := by
  unfold checkNamed
  split
  · exact .error (.invalidDeclaration ..)
  · exact .ok ()

namespace Builder

variable {b : Builder}

/-! ## Arguments -/

theorem blames_applyParamTag {entity token : String} {payload : Option String} {a : Argument}
    {tag : Tag.ParamTag} : Blames parsers.Explains (applyParamTag entity token payload a tag) := by
  cases tag with
  | aliasName => exact Tag.blames_readOn.bind fun _ _ => .ok _
  | httpOrigin => exact Tag.blames_readOn.bind fun _ _ => .ok _

theorem exists_paramEntity_eq (label name : String) :
    ∃ field : String, paramEntity label name = s!"{EntityKind.param.word} {field}" := by
  refine ⟨label ++ "." ++ name, ?_⟩
  show "param " ++ label ++ "." ++ name = "param " ++ (label ++ "." ++ name)
  rw [String.append_assoc, String.append_assoc, String.append_assoc]

theorem blames_applyParamToken (hs : b.parsers.Sound) {label name token : String} {a : Argument} :
    Blames b.parsers.Explains (b.applyParamToken (paramEntity label name) a token) := by
  obtain ⟨field, hfield⟩ := exists_paramEntity_eq label name
  rw [hfield, applyParamToken_eq_step]
  refine Tag.blames_step (hs.dispatches .param) ?_ ?_ ?_
  · exact Tag.blames_resolveOn hs .param field
  · exact fun e he => .own (Or.inr (Or.inr he))
  · exact fun payload tag => blames_applyParamTag

theorem blames_applyParamTokens (hs : b.parsers.Sound) {label name : String} {a : Argument}
    {tokens : List String} :
    Blames b.parsers.Explains (b.applyParamTokens (paramEntity label name) a tokens) :=
  .foldlM (fun _ _ => blames_applyParamToken hs) tokens a

theorem blames_buildArguments (hs : b.parsers.Sound) {label : String} {position : Nat}
    {params : List FieldDecl} :
    Blames b.parsers.Explains (b.buildArguments label position params) := by
  induction params generalizing position with
  | nil => exact .ok []
  | cons param rest ih =>
    refine Blames.bind ?_ fun _ _ => ih.bind fun _ _ => .ok _
    refine blames_checkNamed.bind fun _ _ => blames_convertType.bind fun _ _ => ?_
    exact blames_applyParamTokens hs

/-! ## Methods -/

theorem blames_changeFirst {α : Type} {P : Error → Prop} {p : α → Bool}
    {change : α → Except Error α} {missing : Error} (hchange : ∀ a, Blames P (change a))
    (hmissing : P missing) {as : List α} : Blames P (changeFirst p change missing as) := by
  induction as with
  | nil => exact .error hmissing
  | cons a as ih =>
    unfold changeFirst
    split
    · exact (hchange a).bind fun _ _ => .ok _
    · exact ih.bind fun _ _ => .ok _

theorem blames_renameField {entity name new : String} {m : Method} :
    Blames parsers.Explains (renameField entity name new m) := by
  unfold renameField
  dsimp only
  split
  · exact (blames_changeFirst (fun _ => .ok _) (.invalidDeclaration ..)).bind fun _ _ => .ok _
  · exact (blames_changeFirst (fun _ => .ok _) (.invalidDeclaration ..)).bind fun _ _ => .ok _

theorem blames_applyParams (hs : b.parsers.Sound) {entity label : String} {tags : List String}
    {m : Method} {name : String} :
    Blames b.parsers.Explains (b.applyParams entity label tags m name) := by
  refine Blames.bind ?_ fun _ _ => .ok _
  exact blames_changeFirst (fun _ => blames_applyParamTokens hs) (.invalidDeclaration ..)

theorem blames_loggedType {entity tag name : String} {m : Method} :
    Blames parsers.Explains (loggedType entity tag name m) := by
  unfold loggedType
  split
  · exact .ok _
  · exact .error (.invalidDeclaration ..)

theorem blames_logByLength {entity : String} {m : Method} {name : String} :
    Blames parsers.Explains (logByLength entity m name) := by
  refine blames_loggedType.bind fun type _ => ?_
  split
  · exact .ok _
  · exact .error (.invalidDeclaration ..)

theorem blames_applyMethodTag (hs : b.parsers.Sound) {entity label token : String}
    {payload : Option String} {m : Method} {tag : Tag.MethodTag} :
    Blames b.parsers.Explains (b.applyMethodTag entity label token payload m tag) := by
  cases tag with
  | enable | disable =>
    exact Tag.blames_readOn.bind fun _ _ => Tag.blames_directOn.bind fun _ _ => .ok _
  | enableAll | disableAll => exact Tag.blames_directOn.bind fun _ _ => .ok _
  | aliasName =>
    refine Tag.blames_readOn.bind fun new _ => ?_
    cases new with
    | own new => exact .ok _
    | field name new => exact blames_renameField
  | params =>
    refine Tag.blames_readOn.bind fun params _ => ?_
    exact .foldlM (fun _ _ => blames_applyParams hs) params.names m
  | logsIgnore =>
    refine Tag.blames_readOn.bind fun names _ => .foldlM (fun _ _ => ?_) names m
    exact blames_loggedType.bind fun _ _ => .ok _
  | logsLen =>
    refine Tag.blames_readOn.bind fun names _ => ?_
    exact .foldlM (fun _ _ => blames_logByLength) names m
  | httpMethod | httpPath => exact Tag.blames_readOn.bind fun _ _ => .ok _

theorem blames_applyMethodToken (hs : b.parsers.Sound) {label token : String} {m : Method} :
    Blames b.parsers.Explains (b.applyMethodToken s!"method {label}" label m token) := by
  rw [applyMethodToken_eq_step]
  refine Tag.blames_step (hs.dispatches .method) ?_ ?_ ?_
  · exact Tag.blames_resolveOn hs .method label
  · exact fun e he => .own (Or.inr (Or.inl he))
  · exact fun payload tag => blames_applyMethodTag hs

theorem blames_contextRest {entity : String} {params : List FieldDecl} :
    Blames parsers.Explains (b.contextRest entity params) := by
  unfold contextRest
  dsimp only
  split
  · exact .error (.invalidDeclaration ..)
  · split
    · exact .ok _
    · exact .error (.invalidDeclaration ..)

theorem blames_errorRest {entity : String} {results : List FieldDecl} :
    Blames parsers.Explains (b.errorRest entity results) := by
  unfold errorRest
  dsimp only
  split
  · exact .error (.invalidDeclaration ..)
  · split
    · exact .ok _
    · exact .error (.invalidDeclaration ..)

theorem blames_buildResults {entity : String} {position : Nat} {results : List FieldDecl} :
    Blames parsers.Explains (buildResults entity position results) := by
  induction results generalizing position with
  | nil => exact .ok []
  | cons result rest ih =>
    refine Blames.bind ?_ fun _ _ => ih.bind fun _ _ => .ok _
    exact blames_checkNamed.bind fun _ _ => blames_convertType.bind fun _ _ => .ok _

theorem blames_bindPath {entity : String} {m : Method} :
    Blames parsers.Explains (bindPath entity m) := by
  unfold bindPath
  split
  · exact .ok m
  · dsimp only
    split
    · exact .error (.invalidDeclaration ..)
    · exact .ok _

theorem blames_buildMethod (hs : b.parsers.Sound) {service : String} {seed : FlagSet}
    {decl : MethodDecl} : Blames b.parsers.Explains (b.buildMethod service seed decl) := by
  refine blames_contextRest.bind fun _ _ => blames_errorRest.bind fun _ _ => ?_
  refine (blames_buildArguments hs).bind fun _ _ => blames_buildResults.bind fun _ _ => ?_
  refine Blames.bind ?_ fun _ _ => blames_bindPath
  exact .foldlM (fun _ _ => blames_applyMethodToken hs) _ _

/-! ## Services -/

theorem blames_applyServiceTag {entity token : String} {payload : Option String} {s : Service}
    {tag : Tag.ServiceTag} :
    Blames parsers.Explains (b.applyServiceTag entity token payload s tag) := by
  cases tag with
  | generate =>
    exact Tag.blames_readOn.bind fun _ _ => Tag.blames_directOn.bind fun _ _ => .ok _
  | generateAll => exact Tag.blames_directOn.bind fun _ _ => .ok _
  | aliasName | httpPrefix => exact Tag.blames_readOn.bind fun _ _ => .ok _

theorem blames_applyServiceToken (hs : b.parsers.Sound) {label token : String} {s : Service} :
    Blames b.parsers.Explains (b.applyServiceToken s!"service {label}" s token) := by
  rw [applyServiceToken_eq_step]
  refine Tag.blames_step (hs.dispatches .service) ?_ ?_ ?_
  · exact Tag.blames_resolveOn hs .service label
  · exact fun e he => .own (Or.inl he)
  · exact fun payload tag => blames_applyServiceTag

theorem blames_buildHead (hs : b.parsers.Sound) {package : String} {decl : InterfaceDecl} :
    Blames b.parsers.Explains (b.buildHead package decl) := by
  unfold buildHead
  dsimp only
  split
  · exact .error (.invalidDeclaration ..)
  · exact .foldlM (fun _ _ => blames_applyServiceToken hs) _ _

theorem blames_buildMethods (hs : b.parsers.Sound) {service : String} {seed : FlagSet}
    {built : List String} {decls : List MethodDecl} :
    Blames b.parsers.Explains (b.buildMethods service seed built decls) := by
  induction decls generalizing built with
  | nil => exact .ok []
  | cons decl rest ih =>
    unfold buildMethods
    split
    · exact .error (.invalidDeclaration ..)
    · exact (blames_buildMethod hs).bind fun _ _ => ih.bind fun _ _ => .ok _

theorem blames_buildIn (hs : b.parsers.Sound) {package : String} {decl : InterfaceDecl} :
    Blames b.parsers.Explains (b.buildIn package decl) :=
  (blames_buildHead hs).bind fun _ _ => (blames_buildMethods hs).bind fun _ _ => .ok _

end Builder

namespace TagParsers

theorem Sound.yields_of_ambiguous (hs : parsers.Sound) {b : Builder} (hb : b.parsers = parsers)
    {package entity token name : String} {decl : InterfaceDecl}
    (h : b.buildIn package decl = .error (.ambiguousTag entity token name)) :
    parsers.Yields (.ambiguousTag entity token name) := by
  subst hb
  cases Builder.blames_buildIn hs _ h with
  | own hown => exact hown

theorem Sound.yields_or_unknown (hs : parsers.Sound) {b : Builder} (hb : b.parsers = parsers)
    {package entity token : String} {decl : InterfaceDecl}
    (h : b.buildIn package decl = .error (.unknownTag entity token)) :
    parsers.Yields (.unknownTag entity token) ∨ ∃ (kind : EntityKind) (label : String),
      entity = s!"{kind.word} {label}" ∧ parsers.Unknown kind token := by
  subst hb
  cases Builder.blames_buildIn hs _ h with
  | own hown => exact Or.inl hown
  | unknownTag label hunknown => exact Or.inr ⟨_, label, rfl, hunknown⟩

/-- After any calls the tables are clear and what resolves is found, the next call is taken exactly
if its name is accepted, and a build over the tables never finds a token ambiguous and calls it
unknown only if it starts with no name; a parser may still answer with such an error of its own. -/
theorem unambiguous_of_reached {parsers : TagParsers} (h : parsers.Reached) :
    (∀ kind, Tag.Unambiguous (Tag.builtinNames kind) (parsers.names kind) ∧
      parsers.Dispatches kind) ∧
    (∀ call : Registration,
      (parsers.Accepts call ∧ parsers.register call = .ok (parsers.append call) ∧
        parsers.attempt call = parsers.append call) ∨
      (¬ parsers.Accepts call ∧ (∃ e, parsers.register call = .error e) ∧
        parsers.attempt call = parsers)) ∧
    ∀ (b : Builder), b.parsers = parsers →
      ∀ (package : String) (decl : InterfaceDecl) (entity token : String),
        (∀ name, b.buildIn package decl = .error (.ambiguousTag entity token name) →
          parsers.Yields (.ambiguousTag entity token name)) ∧
        (b.buildIn package decl = .error (.unknownTag entity token) →
          parsers.Yields (.unknownTag entity token) ∨ ∃ (kind : EntityKind) (label : String),
            entity = s!"{kind.word} {label}" ∧ parsers.Unknown kind token) := by
  have hs := h.sound
  refine ⟨fun kind => ⟨hs.unambiguous kind, hs.dispatches kind⟩, attempt_cases parsers, ?_⟩
  intro b hb package decl entity token
  exact ⟨fun name => hs.yields_of_ambiguous hb, hs.yields_or_unknown hb⟩

section Relay

def noOptions {α : Type} : TagParser α := fun _ _ => .ok {}

def relayCalls : List Registration :=
  [.method "Cache-1" noOptions, .method "cache-1" noOptions, .service "Generate" noOptions,
    .param "mask" noOptions, .param "" noOptions]

def relayParsers : TagParsers := relayCalls.foldl attempt {}

def relayDecl : InterfaceDecl where
  name := "RelayService"
  docs := ["// @generat(logging)"]

theorem unambiguous_of_reached_relay :
    relayParsers.Reached ∧ relayParsers.names .service = [] ∧
      relayParsers.names .method = ["cache-1"] ∧ relayParsers.names .param = ["mask"] ∧
      relayParsers.Dispatches .method ∧
      (∃ e, relayParsers.register (.method "CACHE-1" noOptions) = .error e) ∧
      relayParsers.attempt (.method "Cache" noOptions) =
        relayParsers.append (.method "Cache" noOptions) ∧
      Builder.buildIn { parsers := relayParsers } "relay" relayDecl =
        .error (.unknownTag "service RelayService" "@generat(logging)") ∧
      ∃ (kind : EntityKind) (label : String), "service RelayService" = s!"{kind.word} {label}" ∧
        relayParsers.Unknown kind "@generat(logging)" := by
  have hreached : relayParsers.Reached := ⟨relayCalls, rfl⟩
  obtain ⟨hkinds, hcalls, hbuild⟩ := unambiguous_of_reached hreached
  have hunknown : Builder.buildIn { parsers := relayParsers } "relay" relayDecl =
      .error (.unknownTag "service RelayService" "@generat(logging)") := by decide +kernel
  have hparsers : relayParsers =
      { method := [(⟨"cache-1"⟩, noOptions)], param := [(⟨"mask"⟩, noOptions)] } := rfl
  have hsilent : ∀ e, ¬ relayParsers.Yields e := by
    rw [hparsers]
    rintro e (⟨entry, hentry, _, _, he⟩ | ⟨entry, hentry, _, _, he⟩ | ⟨entry, hentry, _, _, he⟩)
    · cases hentry
    · rw [List.mem_singleton.mp hentry] at he
      cases he
    · rw [List.mem_singleton.mp hentry] at he
      cases he
  refine ⟨hreached, rfl, rfl, rfl, (hkinds .method).2, ?_, ?_, hunknown, ?_⟩
  · rcases hcalls (.method "CACHE-1" noOptions) with ⟨haccepts, _⟩ | ⟨_, hfails, _⟩
    · exact absurd haccepts.fresh (by decide)
    · exact hfails
  · rcases hcalls (.method "Cache" noOptions) with ⟨_, _, happend⟩ | ⟨hrefused, _⟩
    · exact happend
    · exact absurd ⟨by decide, List.all_eq_true.mp (by decide), by decide⟩
        hrefused
  · rcases (hbuild _ rfl "relay" relayDecl "service RelayService" "@generat(logging)").2 hunknown
      with hyields | hstarts
    · exact absurd hyields (hsilent _)
    · exact hstarts

end Relay

end TagParsers

end ServiceLoom

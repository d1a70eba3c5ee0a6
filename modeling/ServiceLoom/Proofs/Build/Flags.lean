import ServiceLoom.Proofs.Build.Parts
import ServiceLoom.Proofs.Build.Step
import ServiceLoom.Proofs.Flag.Universe

/-!
# The last decision wins

Flag by flag, a tag decides or says nothing. After a run of tags a flag of the universe is on
exactly if the last decision about it switched it on; for a method the flags of its service decide
first. This rests on sets that never leave their universe, which is why a tag that decides every
flag forgets what stood before it.
-/

namespace ServiceLoom

namespace Tag

/-- What a tag with these names says about a flag. -/
def ServiceTag.decision (tag : ServiceTag) (u : FlagUniverse) (names : List String)
    (flag : String) : Option Bool :=
  match tag with
  | .generate => some (u.covers names flag)
  | .generateAll => some (!u.covers names flag)
  | _ => none

def MethodTag.decision (tag : MethodTag) (u : FlagUniverse) (names : List String)
    (flag : String) : Option Bool :=
  match tag with
  | .enable => if u.covers names flag then some true else none
  | .disable => if u.covers names flag then some false else none
  | .enableAll => some (!u.covers names flag)
  | .disableAll => some (u.covers names flag)
  | _ => none

end Tag

namespace Builder

open Tag

def serviceDecision (b : Builder) (flag token : String) : Option Bool :=
  (b.serviceTag? token).bind fun (tag, payload) =>
    tag.decision b.serviceFlags (Payload.names payload) flag

def methodDecision (b : Builder) (flag token : String) : Option Bool :=
  (b.methodTag? token).bind fun (tag, payload) =>
    tag.decision b.methodFlags (Payload.names payload) flag

variable {b : Builder} {u : FlagUniverse} {entity label token : String}

theorem ServiceStep.follows (hu : b.serviceFlags.Closed) {names : List String} {s t : Service}
    {tag : ServiceTag} (hs : ∀ flag ∈ s.flags, flag ∈ b.serviceFlags.allowed)
    (h : ServiceStep b names s tag t) :
    b.serviceFlags.Follows (tag.decision b.serviceFlags names) s.flags t.flags := by
  cases h with
  | generate h => exact hu.only h
  | generateAll h =>
    have hfollows := hu.allBut hs h
    simp only [Bool.bne_true] at hfollows
    exact hfollows
  | aliasName => exact FlagUniverse.follows_none hs
  | httpPrefix => exact FlagUniverse.follows_none hs

theorem MethodStep.follows (hu : b.methodFlags.Closed) {names : List String} {m n : Method}
    {tag : MethodTag} (hm : ∀ flag ∈ m.flags, flag ∈ b.methodFlags.allowed)
    (h : MethodStep b names m tag n) :
    b.methodFlags.Follows (tag.decision b.methodFlags names) m.flags n.flags := by
  cases h with
  | enable h => exact hu.add hm h
  | disable h => exact FlagUniverse.remove_follows hm h
  | enableAll h =>
    have hfollows := hu.allBut hm h
    simp only [Bool.bne_true] at hfollows
    exact hfollows
  | disableAll h =>
    have hfollows := hu.allBut hm h
    simp only [Bool.bne_false] at hfollows
    exact hfollows
  | _ => exact FlagUniverse.follows_none hm

theorem follows_of_applyServiceToken (hu : b.serviceFlags.Closed) {s t : Service}
    (hs : ∀ flag ∈ s.flags, flag ∈ b.serviceFlags.allowed)
    (h : b.applyServiceToken entity s token = .ok t) :
    b.serviceFlags.Follows (fun flag => b.serviceDecision flag token) s.flags t.flags := by
  rcases applyServiceToken_cases h with ⟨tag, payload, htag, h⟩ | ⟨htag, name, _, options, rfl⟩
  · simpa [serviceDecision, htag] using (serviceStep_of_apply h).follows hu hs
  · simpa [serviceDecision, htag] using FlagUniverse.follows_none hs

theorem follows_of_applyMethodToken (hu : b.methodFlags.Closed) {m n : Method}
    (hm : ∀ flag ∈ m.flags, flag ∈ b.methodFlags.allowed)
    (h : b.applyMethodToken entity label m token = .ok n) :
    b.methodFlags.Follows (fun flag => b.methodDecision flag token) m.flags n.flags := by
  rcases applyMethodToken_cases h with ⟨tag, payload, htag, h⟩ | ⟨htag, name, _, options, rfl⟩
  · simpa [methodDecision, htag] using (methodStep_of_apply h).follows hu hm
  · simpa [methodDecision, htag] using FlagUniverse.follows_none hm

/-- A run of steps that follow decisions: the last decision counts, and `first` are those that were
made before the run. -/
theorem follows_of_foldlM {α ε : Type} {f : α → String → Except ε α} (flags : α → FlagSet)
    (first : String → List Bool) (decision : String → String → Option Bool)
    (hstep : ∀ x token y, (∀ flag ∈ flags x, flag ∈ u.allowed) → f x token = .ok y →
      u.Follows (fun flag => decision flag token) (flags x) (flags y))
    {x y : α} {tokens : List String}
    (hx : ∀ flag, flag ∈ flags x ↔ flag ∈ u.allowed ∧ (first flag).getLast? = some true)
    (h : tokens.foldlM f x = .ok y) (flag : String) :
    flag ∈ flags y ↔ flag ∈ u.allowed ∧
      (first flag ++ tokens.filterMap (decision flag)).getLast? = some true := by
  refine foldlM_invariant (fun before y => ∀ flag, flag ∈ flags y ↔ flag ∈ u.allowed ∧
      (first flag ++ before.filterMap (decision flag)).getLast? = some true)
    ?_ (by simpa using hx) h flag
  intro before token y z hy hz flag
  rw [hstep y token z (fun flag hflag => ((hy flag).mp hflag).1) hz flag, hy flag,
    List.filterMap_append]
  -- a token that says nothing about the flag leaves the last decision as it was
  cases hdecision : decision flag token with
  | none => simp [hdecision]
  | some decided => simp [hdecision]

/-- Flags that the last deciding tag switched on, of the service and of each method. -/
theorem buildIn_flags {package : String} {decl : InterfaceDecl} {s : Service}
    (hservice : b.serviceFlags.Declared) (hmethod : b.methodFlags.Declared)
    (h : b.buildIn package decl = .ok s) :
    (∀ flag, flag ∈ s.flags ↔ flag ∈ b.serviceFlags.allowed ∧
      ((Comment.classify decl.docs).tags.filterMap (b.serviceDecision flag)).getLast? =
        some true) ∧
    List.Forall₂ (fun (decl : MethodDecl) (m : Method) => ∀ flag,
      flag ∈ m.flags ↔ flag ∈ b.methodFlags.allowed ∧
        (s.flags.contains flag ::
          (Comment.classify decl.docs).tags.filterMap (b.methodDecision flag)).getLast? =
          some true) decl.methods s.methods := by
  obtain ⟨head, methods, hhead, hmethods, rfl⟩ := parts_of_buildIn h
  obtain ⟨_, entity, htags⟩ := parts_of_buildHead hhead
  constructor
  · intro flag
    refine follows_of_foldlM Service.flags (fun _ => []) b.serviceDecision
      (fun _ _ _ => follows_of_applyServiceToken hservice.closed) ?_ htags flag
    simp [plainService]
  · refine (parts_of_buildMethods hmethods).1.imp ?_
    intro decl m hm flag
    obtain ⟨entity, label, params, results, arguments, fields, tagged, _, _, _, _, htags, hbind⟩ :=
      parts_of_buildMethod hm
    have hflags : m.flags = tagged.flags := by
      rcases parts_of_bindPath hbind with ⟨_, rfl⟩ | ⟨path, _, _, rfl⟩
      · rfl
      · rfl
    rw [hflags]
    -- the service, whose flags the plain method inherits, decides once on every flag
    refine follows_of_foldlM Method.flags (fun flag => [head.flags.contains flag])
      b.methodDecision (fun _ _ _ => follows_of_applyMethodToken hmethod.closed) ?_ htags flag
    simp [plainMethod]

section Relay

def watchedFlags : FlagUniverse :=
  ⟨.service, FlagSet.ofList ["logging", "tracing", "main"], [("watch", ["logging", "tracing"])]⟩

def relayBuilder : Builder where
  parsers := { method := [(⟨"cache"⟩, fun _ _ => .ok {})] }
  serviceFlags := watchedFlags

def relayDocs : List String :=
  ["// @disable(middleware) @cache", "// @enable(http) @disable(http-client)"]

def relayInterface : InterfaceDecl where
  name := "RelayService"
  docs := ["// @generate(watch) @generate-all(Tracing)"]
  methods := [{
    name := "Relay"
    docs := relayDocs
    params := [⟨"ctx", .selector "context" "Context", []⟩]
    results := [⟨"err", .ident "error", []⟩]
  }]

def relayMethod : Method where
  service := "RelayService"
  name := "Relay"
  aliasName := "Relay"
  docs := []
  arguments := []
  results := []
  flags := FlagSet.ofList ["http-server", "http-converter"]
  httpMethod := none
  httpPath := none
  logsIgnore := []
  logsLen := []
  tags := {}

def relayService : Service where
  name := "RelayService"
  aliasName := "RelayService"
  package := "relay"
  docs := []
  methods := [relayMethod]
  flags := FlagSet.ofList ["logging", "main"]
  httpPrefix := none
  capabilities := []
  tags := {}

theorem buildIn_flags_relay :
    watchedFlags.Declared ∧ FlagUniverse.method.Declared ∧
      relayBuilder.buildIn "relay" relayInterface = .ok relayService ∧
      "main" ∈ relayService.flags ∧ "tracing" ∉ relayService.flags ∧
      ∀ flag, flag ∈ relayMethod.flags ↔ flag ∈ FlagUniverse.method.allowed ∧
        (relayService.flags.contains flag ::
          ["@disable(middleware)", "@cache", "@enable(http)", "@disable(http-client)"].filterMap
            (relayBuilder.methodDecision flag)).getLast? = some true := by
  have hmade : FlagUniverse.make .service ["logging", "tracing", "main"]
      [("watch", ["logging", "tracing"])] = .ok watchedFlags := by decide
  have hdeclared : watchedFlags.Declared := .made hmade
  have hbuilt : relayBuilder.buildIn "relay" relayInterface = .ok relayService := by
    decide +kernel
  obtain ⟨hservice, hmethods⟩ := buildIn_flags hdeclared .method hbuilt
  refine ⟨hdeclared, .method, hbuilt, (hservice "main").mpr ⟨?_, ?_⟩, ?_, ?_⟩
  · decide
  · decide +kernel
  · intro htracing
    exact absurd ((hservice "tracing").mp htracing).2 (by decide +kernel)
  · have htags : (Comment.classify relayDocs).tags =
        ["@disable(middleware)", "@cache", "@enable(http)", "@disable(http-client)"] := by
      decide +kernel
    rw [← htags]
    cases hmethods with
    | cons h _ => exact h

end Relay

end Builder

end ServiceLoom

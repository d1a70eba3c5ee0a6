import ServiceLoom.Proofs.Build.Signature

/-!
# Changes of arguments

A parameter tag can change the origin of its argument or its alias, or else its options only. The
changes are listed in the order in which they are made, those of the argument's own comment first
and then those that the method's tags address to the first argument of a name. The last change of
its kind counts.
-/

namespace ServiceLoom

open Tag

inductive ParamChange where
  | origin (new : Origin)
  | aliasName (new : String)
  deriving DecidableEq, Repr

namespace ParamChange

def origin? : ParamChange → Option Origin
  | origin new => some new
  | aliasName _ => none

def aliasName? : ParamChange → Option String
  | origin _ => none
  | aliasName new => some new

def lastOrigin? (changes : List ParamChange) : Option Origin := (changes.filterMap origin?).getLast?

def lastAlias? (changes : List ParamChange) : Option String :=
  (changes.filterMap aliasName?).getLast?

end ParamChange

/-- The argument is as the changes leave it, before the path is looked at. -/
structure Argument.Changed (param : FieldDecl) (changes : List ParamChange) (a : Argument) :
    Prop where
  name : a.name = param.name
  aliasName : a.aliasName = (ParamChange.lastAlias? changes).getD param.name
  origin : a.origin = (ParamChange.lastOrigin? changes).getD .body
  originTagged : a.originTagged = (ParamChange.lastOrigin? changes).isSome

namespace Argument.Changed

variable {param : FieldDecl} {changes : List ParamChange} {a : Argument}

theorem setOrigin (h : a.Changed param changes) (new : Origin) :
    Argument.Changed param (changes ++ [.origin new])
      { a with origin := new, originTagged := true } := by
  refine ⟨h.name, h.aliasName.trans ?_, ?_, ?_⟩
  · simp [ParamChange.lastAlias?, ParamChange.aliasName?]
  · simp [ParamChange.lastOrigin?, ParamChange.origin?]
  · simp [ParamChange.lastOrigin?, ParamChange.origin?]

theorem setAlias (h : a.Changed param changes) (new : String) :
    Argument.Changed param (changes ++ [.aliasName new]) { a with aliasName := new } := by
  refine ⟨h.name, ?_, h.origin.trans ?_, h.originTagged.trans ?_⟩
  · simp [ParamChange.lastAlias?, ParamChange.aliasName?]
  · simp [ParamChange.lastOrigin?, ParamChange.origin?]
  · simp [ParamChange.lastOrigin?, ParamChange.origin?]

theorem setTags (h : a.Changed param changes) (tags : TagOptions) :
    Argument.Changed param changes { a with tags := tags } :=
  ⟨h.name, h.aliasName, h.origin, h.originTagged⟩

end Argument.Changed

namespace Builder

/-! ## Changes -/

def paramChange? (b : Builder) (token : String) : Option ParamChange :=
  match b.paramTag? token with
  | some (.aliasName, payload) => (Payload.singleName payload).toOption.map .aliasName
  | some (.httpOrigin, payload) => (Payload.origin payload).toOption.map .origin
  | none => none

/-- What a method tag changes, each time under the name of the argument it is for. -/
def addressed (b : Builder) (token : String) : List (String × List ParamChange) :=
  match b.methodTag? token with
  | some (.params, payload) =>
    match Payload.params payload with
    | .ok params => params.names.map (·, params.tags.filterMap b.paramChange?)
    | .error _ => []
  | some (.aliasName, payload) =>
    match Payload.aliasName payload with
    | .ok (.field name new) => [(name, [.aliasName new])]
    | _ => []
  | _ => []

/-- What reaches the argument at a position: of several arguments of a name, only the first one. -/
def reaching (names : List String) (position : Nat) (changes : List (String × List ParamChange)) :
    List ParamChange :=
  changes.flatMap fun (name, new) => if names.idxOf name = position then new else []

/-- All changes of one argument by its own comment and by the given tokens on the method. -/
def changes (b : Builder) (params : List FieldDecl) (tokens : List String) (position : Nat)
    (param : FieldDecl) : List ParamChange :=
  (Comment.classify param.docs).tags.filterMap b.paramChange? ++
    reaching (params.map (·.name)) position (tokens.flatMap b.addressed)

def pathTag? (b : Builder) (token : String) : Option String :=
  match b.methodTag? token with
  | some (.httpPath, payload) => (Payload.path payload).toOption
  | _ => none

def lastPath? (b : Builder) (tokens : List String) : Option String :=
  (tokens.filterMap b.pathTag?).getLast?

theorem reaching_append (names : List String) (position : Nat)
    (before after : List (String × List ParamChange)) :
    reaching names position (before ++ after) =
      reaching names position before ++ reaching names position after :=
  List.flatMap_append

theorem reaching_singleton (names : List String) (position : Nat) (name : String)
    (new : List ParamChange) :
    reaching names position [(name, new)] = if names.idxOf name = position then new else [] := by
  simp [reaching]

theorem changes_concat (b : Builder) (params : List FieldDecl) (tokens : List String)
    (token : String) :
    b.changes params (tokens ++ [token]) = fun i param => b.changes params tokens i param ++
      reaching (params.map (·.name)) i (b.addressed token) := by
  funext i param
  simp only [changes, List.flatMap_append, List.flatMap_singleton, reaching_append,
    List.append_assoc]

/-! ## Arguments one by one -/

structure ArgumentsChanged (params : List FieldDecl) (changes : Nat → FieldDecl → List ParamChange)
    (arguments : List Argument) : Prop where
  names : arguments.map (·.name) = params.map (·.name)
  each : ∀ (i : Nat) (param : FieldDecl) (a : Argument), params[i]? = some param →
    arguments[i]? = some a → a.Changed param (changes i param)

variable {b : Builder} {entity label token package service : String} {seed : FlagSet}

theorem changed_of_applyParamToken {param : FieldDecl} {changes : List ParamChange}
    {a c : Argument} (ha : a.Changed param changes)
    (h : b.applyParamToken entity a token = .ok c) :
    c.Changed param (changes ++ (b.paramChange? token).toList) := by
  rcases applyParamToken_cases h with ⟨tag, payload, htag, happly⟩ | ⟨htag, name, _, options, rfl⟩
  · cases tag with
    | aliasName =>
      obtain ⟨new, hnew, happly⟩ := bind_eq_ok_iff.mp happly
      obtain rfl := Except.ok.inj happly
      have hchange : b.paramChange? token = some (.aliasName new) := by
        simp [paramChange?, htag, readOn_eq_ok_iff.mp hnew, Except.toOption]
      rw [hchange]
      exact ha.setAlias new
    | httpOrigin =>
      obtain ⟨new, hnew, happly⟩ := bind_eq_ok_iff.mp happly
      obtain rfl := Except.ok.inj happly
      have hchange : b.paramChange? token = some (.origin new) := by
        simp [paramChange?, htag, readOn_eq_ok_iff.mp hnew, Except.toOption]
      rw [hchange]
      exact ha.setOrigin new
  · have hchange : b.paramChange? token = none := by simp [paramChange?, htag]
    rw [hchange, Option.toList_none, List.append_nil]
    exact ha.setTags _

theorem changed_of_applyParamTokens {param : FieldDecl} {changes : List ParamChange}
    {a c : Argument} {tokens : List String} (ha : a.Changed param changes)
    (h : b.applyParamTokens entity a tokens = .ok c) :
    c.Changed param (changes ++ tokens.filterMap b.paramChange?) := by
  refine foldlM_invariant
    (fun tokens c => Argument.Changed param (changes ++ tokens.filterMap b.paramChange?) c) ?_
    (by simpa using ha) h
  intro before token c d hc hd
  have := changed_of_applyParamToken hc hd
  rw [List.append_assoc] at this
  rw [List.filterMap_append]
  cases hchange : b.paramChange? token <;> simpa [hchange] using this

theorem changed_of_buildArguments {position : Nat} {params : List FieldDecl}
    {arguments : List Argument} (h : b.buildArguments label position params = .ok arguments) :
    ArgumentsChanged params
      (fun _ param => (Comment.classify param.docs).tags.filterMap b.paramChange?) arguments := by
  refine ⟨(arguments_of_buildArguments h).1, ?_⟩
  induction params generalizing position arguments with
  | nil =>
    intro i param a hparam
    cases hparam
  | cons param rest ih =>
    obtain ⟨first, hfirst, h⟩ := bind_eq_ok_iff.mp h
    obtain ⟨others, hothers, h⟩ := bind_eq_ok_iff.mp h
    obtain rfl := Except.ok.inj h
    obtain ⟨_, _, hfirst⟩ := bind_eq_ok_iff.mp hfirst
    obtain ⟨type, _, hfirst⟩ := bind_eq_ok_iff.mp hfirst
    have hplain : (plainArgument param type (Comment.classify param.docs).docs).Changed param [] :=
      ⟨rfl, rfl, rfl, rfl⟩
    intro i declared a hparam ha
    cases i with
    | zero =>
      obtain rfl := Option.some.inj hparam
      obtain rfl := Option.some.inj ha
      exact changed_of_applyParamTokens hplain hfirst
    | succ i => exact ih hothers i declared a hparam ha

theorem eq_set_of_changeFirst {α ε : Type} {p : α → Bool} {change : α → Except ε α} {missing : ε}
    {as cs : List α} (h : changeFirst p change missing as = .ok cs) :
    ∃ a c, as[as.findIdx p]? = some a ∧ change a = .ok c ∧ cs = as.set (as.findIdx p) c := by
  induction as generalizing cs with
  | nil => cases h
  | cons first rest ih =>
    unfold changeFirst at h
    rw [List.findIdx_cons]
    split at h
    · rename_i hfirst
      obtain ⟨c, hc, h⟩ := bind_eq_ok_iff.mp h
      obtain rfl := Except.ok.inj h
      exact ⟨first, c, by simp [hfirst], hc, by simp [hfirst]⟩
    · rename_i hfirst
      obtain ⟨changed, hchanged, h⟩ := bind_eq_ok_iff.mp h
      obtain rfl := Except.ok.inj h
      obtain ⟨a, c, ha, hc, rfl⟩ := ih hchanged
      exact ⟨a, c, by simp [hfirst, ha], hc, by simp [hfirst]⟩

namespace ArgumentsChanged

variable {params : List FieldDecl} {changes : Nat → FieldDecl → List ParamChange}
  {arguments : List Argument}

theorem findIdx_eq (h : ArgumentsChanged params changes arguments) (name : String) :
    arguments.findIdx (·.name == name) = (params.map (·.name)).idxOf name := by
  rw [← h.names, List.idxOf, List.findIdx_map]
  rfl

theorem set {k : Nat} {param : FieldDecl} {new : List ParamChange} {a c : Argument}
    (h : ArgumentsChanged params changes arguments) (hparam : params[k]? = some param)
    (ha : arguments[k]? = some a) (hc : c.Changed param (changes k param ++ new)) :
    ArgumentsChanged params (fun i param => changes i param ++ if k = i then new else [])
      (arguments.set k c) := by
  obtain ⟨hk, ha'⟩ := List.getElem?_eq_some_iff.mp ha
  constructor
  case names =>
    have hk' : k < (arguments.map (·.name)).length := by simpa using hk
    have hname : (arguments.map (·.name))[k] = c.name := by
      rw [List.getElem_map, ha', hc.name, (h.each k param a hparam ha).name]
    rw [← h.names, List.map_set, ← hname, List.set_getElem_self]
  case each =>
    intro i declared d hdeclared hd
    by_cases hi : k = i
    · subst hi
      rw [List.getElem?_set_self hk] at hd
      obtain rfl := Option.some.inj hd
      obtain rfl := Option.some.inj (hparam.symm.trans hdeclared)
      simpa using hc
    · rw [List.getElem?_set_ne hi] at hd
      simpa [hi] using h.each i declared d hdeclared hd

theorem changeFirst {name : String} {new : List ParamChange}
    {change : Argument → Except Error Argument} {missing : Error} {changed : List Argument}
    (h : ArgumentsChanged params changes arguments)
    (hchange : ∀ {param before a c}, Argument.Changed param before a → change a = .ok c →
      Argument.Changed param (before ++ new) c)
    (hok : Builder.changeFirst (·.name == name) change missing arguments = .ok changed) :
    ArgumentsChanged params (fun i param => changes i param ++
      reaching (params.map (·.name)) i [(name, new)]) changed := by
  obtain ⟨a, c, ha, hc, rfl⟩ := eq_set_of_changeFirst hok
  rw [h.findIdx_eq] at ha ⊢
  have hlength : arguments.length = params.length := by
    simpa using congrArg List.length h.names
  have hparam := List.getElem?_eq_getElem (hlength ▸ (List.getElem?_eq_some_iff.mp ha).1)
  simp only [reaching_singleton]
  exact h.set hparam ha (hchange (h.each _ _ a hparam ha) hc)

theorem unaddressed (h : ArgumentsChanged params changes arguments) {name : String}
    (hname : name ∉ params.map (·.name)) (new : List ParamChange) :
    ArgumentsChanged params (fun i param => changes i param ++
      reaching (params.map (·.name)) i [(name, new)]) arguments := by
  refine ⟨h.names, ?_⟩
  intro i param a hparam ha
  have hi : (params.map (·.name)).idxOf name ≠ i := by
    rw [List.idxOf_eq_length hname, List.length_map]
    exact Nat.ne_of_gt (List.getElem?_eq_some_iff.mp hparam).1
  rw [reaching_singleton, if_neg hi, List.append_nil]
  exact h.each i param a hparam ha

end ArgumentsChanged

/-! ## Methods -/

/-- The arguments and the path are as the tokens on the method leave them. -/
structure MethodChanged (b : Builder) (params : List FieldDecl) (tokens : List String)
    (m : Method) : Prop where
  arguments : ArgumentsChanged params (b.changes params tokens) m.arguments
  httpPath : m.httpPath = b.lastPath? tokens

theorem changed_of_applyParams {params : List FieldDecl}
    {changes : Nat → FieldDecl → List ParamChange} {m n : Method} {names tags : List String}
    (hm : ArgumentsChanged params changes m.arguments)
    (h : names.foldlM (b.applyParams entity label tags) m = .ok n) :
    ArgumentsChanged params (fun i param => changes i param ++ reaching (params.map (·.name)) i
      (names.map (·, tags.filterMap b.paramChange?))) n.arguments ∧ n.httpPath = m.httpPath := by
  refine foldlM_invariant (fun names n => ArgumentsChanged params (fun i param =>
    changes i param ++ reaching (params.map (·.name)) i
      (names.map (·, tags.filterMap b.paramChange?))) n.arguments ∧ n.httpPath = m.httpPath) ?_
    ⟨by simpa [reaching] using hm, rfl⟩ h
  rintro before name m' n ⟨hbefore, hpath⟩ h
  obtain ⟨changed, hchanged, h⟩ := bind_eq_ok_iff.mp h
  obtain rfl := Except.ok.inj h
  refine ⟨?_, hpath⟩
  have hstep := hbefore.changeFirst (fun ha hc => changed_of_applyParamTokens ha hc) hchanged
  simpa only [List.map_append, List.map_cons, List.map_nil, reaching_append, List.append_assoc]
    using hstep

theorem changed_of_renameField {params : List FieldDecl}
    {changes : Nat → FieldDecl → List ParamChange} {m n : Method} {name new : String}
    (hm : ArgumentsChanged params changes m.arguments)
    (h : renameField entity name new m = .ok n) :
    ArgumentsChanged params (fun i param => changes i param ++ reaching (params.map (·.name)) i
      [(name, [.aliasName new])]) n.arguments ∧ n.httpPath = m.httpPath := by
  unfold renameField at h
  dsimp only at h
  split at h
  · obtain ⟨arguments, harguments, h⟩ := bind_eq_ok_iff.mp h
    obtain rfl := Except.ok.inj h
    refine ⟨hm.changeFirst ?_ harguments, rfl⟩
    intro param before a c ha hc
    obtain rfl := Except.ok.inj hc
    exact ha.setAlias new
  · rename_i hnone
    obtain ⟨results, _, h⟩ := bind_eq_ok_iff.mp h
    obtain rfl := Except.ok.inj h
    refine ⟨hm.unaddressed ?_ _, rfl⟩
    rw [← hm.names]
    simpa [Method.argument?] using hnone

theorem changed_of_applyMethodTag {params : List FieldDecl}
    {changes : Nat → FieldDecl → List ParamChange} {m n : Method} {tag : MethodTag}
    {payload : Option String} (htag : b.methodTag? token = some (tag, payload))
    (hm : ArgumentsChanged params changes m.arguments)
    (h : b.applyMethodTag entity label token payload m tag = .ok n) :
    ArgumentsChanged params (fun i param => changes i param ++ reaching (params.map (·.name)) i
      (b.addressed token)) n.arguments ∧ n.httpPath = (b.pathTag? token).or m.httpPath := by
  -- all tags but three leave the arguments and the path alone
  have hothers : b.addressed token = [] → b.pathTag? token = none →
      n.arguments = m.arguments → n.httpPath = m.httpPath →
      ArgumentsChanged params (fun i param => changes i param ++ reaching (params.map (·.name)) i
        (b.addressed token)) n.arguments ∧ n.httpPath = (b.pathTag? token).or m.httpPath := by
    intro haddressed hpath hsame hsamePath
    rw [haddressed, hpath, hsame, hsamePath]
    exact ⟨by simpa [reaching] using hm, rfl⟩
  cases tag with
  | aliasName =>
    obtain ⟨new, hnew, h⟩ := bind_eq_ok_iff.mp h
    have hpath : b.pathTag? token = none := by simp [pathTag?, htag]
    cases new with
    | own new =>
      obtain rfl := Except.ok.inj h
      exact hothers (by simp [addressed, htag, readOn_eq_ok_iff.mp hnew]) hpath rfl rfl
    | field name new =>
      have haddressed : b.addressed token = [(name, [.aliasName new])] := by
        simp [addressed, htag, readOn_eq_ok_iff.mp hnew]
      rw [haddressed, hpath]
      exact changed_of_renameField hm h
  | params =>
    obtain ⟨read, hread, h⟩ := bind_eq_ok_iff.mp h
    have hpath : b.pathTag? token = none := by simp [pathTag?, htag]
    have haddressed : b.addressed token =
        read.names.map (·, read.tags.filterMap b.paramChange?) := by
      simp [addressed, htag, readOn_eq_ok_iff.mp hread]
    rw [haddressed, hpath]
    exact changed_of_applyParams hm h
  | httpPath =>
    obtain ⟨path, hread, h⟩ := bind_eq_ok_iff.mp h
    obtain rfl := Except.ok.inj h
    have hpath : b.pathTag? token = some path := by
      simp [pathTag?, htag, readOn_eq_ok_iff.mp hread, Except.toOption]
    have haddressed : b.addressed token = [] := by simp [addressed, htag]
    rw [haddressed, hpath]
    exact ⟨by simpa [reaching] using hm, rfl⟩
  | _ =>
    refine hothers (by simp [addressed, htag]) (by simp [pathTag?, htag]) ?_ ?_
    all_goals
      cases methodStep_of_apply h
      rfl

theorem MethodChanged.applyMethodToken {params : List FieldDecl} {tokens : List String}
    {m n : Method} (hm : MethodChanged b params tokens m)
    (h : b.applyMethodToken entity label m token = .ok n) :
    MethodChanged b params (tokens ++ [token]) n := by
  have hstep : ArgumentsChanged params (fun i param => b.changes params tokens i param ++
      reaching (params.map (·.name)) i (b.addressed token)) n.arguments ∧
      n.httpPath = (b.pathTag? token).or m.httpPath := by
    rcases applyMethodToken_cases h with
      ⟨tag, payload, htag, happly⟩ | ⟨htag, name, _, options, rfl⟩
    · exact changed_of_applyMethodTag htag hm.arguments happly
    · have haddressed : b.addressed token = [] := by simp [addressed, htag]
      have hpath : b.pathTag? token = none := by simp [pathTag?, htag]
      rw [haddressed, hpath]
      exact ⟨by simpa [reaching] using hm.arguments, rfl⟩
  constructor
  case arguments => exact changes_concat b params tokens token ▸ hstep.1
  case httpPath =>
    rw [hstep.2, hm.httpPath, lastPath?, lastPath?, List.filterMap_append]
    cases hpath : b.pathTag? token <;> simp [hpath]

end Builder

end ServiceLoom

import Mathlib.Data.List.Forall2
import ServiceLoom.Proofs.Build.Token
import ServiceLoom.Proofs.Tag.Options
import ServiceLoom.Proofs.Tag.Payload

/-!
# What a built-in tag does

One rule for each tag says what it can make of its entity, with all that its payload was checked
for. Whatever is not named in a rule stays as it was. All that later modules say about tags is read
off these rules.
-/

namespace ServiceLoom

open Tag

/-- Name and type stay, a new alias is a name, and new options stand under registered names. -/
structure Argument.Retagged (custom : List String) (a c : Argument) : Prop where
  name : c.name = a.name
  type : c.type = a.type
  aliasName : c.aliasName = a.aliasName ∨ Payload.isName c.aliasName = true
  tags : a.tags.Sound custom → c.tags.Sound custom

structure Field.Renamed (r q : Field) : Prop where
  name : q.name = r.name
  type : q.type = r.type
  aliasName : q.aliasName = r.aliasName ∨ Payload.isName q.aliasName = true

theorem Argument.Retagged.refl {custom : List String} (a : Argument) : a.Retagged custom a :=
  ⟨rfl, rfl, Or.inl rfl, id⟩

theorem Argument.Retagged.trans {custom : List String} {a c d : Argument}
    (hac : a.Retagged custom c) (hcd : c.Retagged custom d) : a.Retagged custom d := by
  refine ⟨hcd.name.trans hac.name, hcd.type.trans hac.type, ?_, fun ha => hcd.tags (hac.tags ha)⟩
  rcases hcd.aliasName with hd | hd
  · rw [hd]
    exact hac.aliasName
  · exact Or.inr hd

namespace Builder

inductive ServiceStep (b : Builder) (names : List String) (s : Service) :
    ServiceTag → Service → Prop
  | generate {flags : FlagSet} (h : b.serviceFlags.only names = .ok flags) :
    ServiceStep b names s .generate { s with flags := flags }
  | generateAll {flags : FlagSet} (h : b.serviceFlags.allBut true names s.flags = .ok flags) :
    ServiceStep b names s .generateAll { s with flags := flags }
  | aliasName {new : String} (h : Payload.isName new = true) :
    ServiceStep b names s .aliasName { s with aliasName := new }
  | httpPrefix {path : String} (h : Payload.IsPath path) :
    ServiceStep b names s .httpPrefix { s with httpPrefix := some path }

inductive MethodStep (b : Builder) (names : List String) (m : Method) :
    MethodTag → Method → Prop
  | enable {flags : FlagSet} (h : b.methodFlags.add names m.flags = .ok flags) :
    MethodStep b names m .enable { m with flags := flags }
  | disable {flags : FlagSet} (h : b.methodFlags.remove names m.flags = .ok flags) :
    MethodStep b names m .disable { m with flags := flags }
  | enableAll {flags : FlagSet} (h : b.methodFlags.allBut true names m.flags = .ok flags) :
    MethodStep b names m .enableAll { m with flags := flags }
  | disableAll {flags : FlagSet} (h : b.methodFlags.allBut false names m.flags = .ok flags) :
    MethodStep b names m .disableAll { m with flags := flags }
  | aliasName {new : String} (h : Payload.isName new = true) :
    MethodStep b names m .aliasName { m with aliasName := new }
  | argumentAlias {arguments : List Argument}
    (h : List.Forall₂ (Argument.Retagged b.parsers.param.names) m.arguments arguments) :
    MethodStep b names m .aliasName { m with arguments := arguments }
  | resultAlias {results : List Field} (h : List.Forall₂ Field.Renamed m.results results) :
    MethodStep b names m .aliasName { m with results := results }
  | params {arguments : List Argument}
    (h : List.Forall₂ (Argument.Retagged b.parsers.param.names) m.arguments arguments) :
    MethodStep b names m .params { m with arguments := arguments }
  | logsIgnore (h : ∀ name ∈ names, ∃ type, m.typeOf? name = some type) :
    MethodStep b names m .logsIgnore { m with logsIgnore := names.foldl addNew m.logsIgnore }
  | logsLen (h : ∀ name ∈ names, ∃ type, m.typeOf? name = some type ∧ type.hasLen = true) :
    MethodStep b names m .logsLen { m with logsLen := names.foldl addNew m.logsLen }
  | httpMethod {verb : String} (h : verb ∈ httpVerbs) :
    MethodStep b names m .httpMethod { m with httpMethod := some verb }
  | httpPath {path : String} (h : Payload.IsPath path) :
    MethodStep b names m .httpPath { m with httpPath := some path }

variable {b : Builder} {entity label token : String} {payload : Option String}

theorem serviceStep_of_apply {s t : Service} {tag : ServiceTag}
    (h : b.applyServiceTag entity token payload s tag = .ok t) :
    ServiceStep b (Payload.names payload) s tag t := by
  cases tag with
  | generate =>
    obtain ⟨names, hnames, h⟩ := bind_eq_ok_iff.mp h
    obtain ⟨flags, hflags, h⟩ := bind_eq_ok_iff.mp h
    obtain rfl := Except.ok.inj h
    obtain rfl := Payload.names_eq_of_someNames (readOn_eq_ok_iff.mp hnames)
    exact .generate (directOn_eq_ok_iff.mp hflags)
  | generateAll =>
    obtain ⟨flags, hflags, h⟩ := bind_eq_ok_iff.mp h
    obtain rfl := Except.ok.inj h
    exact .generateAll (directOn_eq_ok_iff.mp hflags)
  | aliasName =>
    obtain ⟨name, hname, h⟩ := bind_eq_ok_iff.mp h
    obtain rfl := Except.ok.inj h
    exact .aliasName (Payload.isName_of_singleName (readOn_eq_ok_iff.mp hname))
  | httpPrefix =>
    obtain ⟨path, hpath, h⟩ := bind_eq_ok_iff.mp h
    obtain rfl := Except.ok.inj h
    exact .httpPrefix (Payload.isPath_of_path (readOn_eq_ok_iff.mp hpath))

/-! ## Fields of methods -/

theorem forall₂_of_changeFirst {α ε : Type} {R : α → α → Prop} {p : α → Bool}
    {change : α → Except ε α} {missing : ε} (hrefl : ∀ a, R a a)
    (hchange : ∀ a c, change a = .ok c → R a c) {as cs : List α}
    (h : changeFirst p change missing as = .ok cs) : List.Forall₂ R as cs := by
  induction as generalizing cs with
  | nil => cases h
  | cons a rest ih =>
    unfold changeFirst at h
    split at h
    · obtain ⟨c, hc, h⟩ := bind_eq_ok_iff.mp h
      obtain rfl := Except.ok.inj h
      exact .cons (hchange a c hc) (List.forall₂_same.mpr fun a _ => hrefl a)
    · obtain ⟨changed, hchanged, h⟩ := bind_eq_ok_iff.mp h
      obtain rfl := Except.ok.inj h
      exact .cons (hrefl a) (ih hchanged)

theorem retagged_of_applyParamTokens {a c : Argument} {tokens : List String}
    (h : b.applyParamTokens entity a tokens = .ok c) : a.Retagged b.parsers.param.names c := by
  refine foldlM_invariant (fun _ c => a.Retagged b.parsers.param.names c) ?_ (.refl a) h
  intro _ token c d hac hcd
  apply hac.trans
  rcases applyParamToken_cases hcd with ⟨tag, payload, _, happly⟩ | ⟨_, name, hname, options, rfl⟩
  · cases tag with
    | aliasName =>
      obtain ⟨new, hnew, h⟩ := bind_eq_ok_iff.mp happly
      obtain rfl := Except.ok.inj h
      exact ⟨rfl, rfl, Or.inr (Payload.isName_of_singleName (readOn_eq_ok_iff.mp hnew)), id⟩
    | httpOrigin =>
      obtain ⟨origin, _, h⟩ := bind_eq_ok_iff.mp happly
      obtain rfl := Except.ok.inj h
      exact ⟨rfl, rfl, Or.inl rfl, id⟩
  · exact ⟨rfl, rfl, Or.inl rfl, fun ha => ha.merge hname options⟩

theorem forall₂_trans {α : Type} {R : α → α → Prop} (htrans : ∀ a c d, R a c → R c d → R a d)
    {as cs ds : List α} (hac : List.Forall₂ R as cs) (hcd : List.Forall₂ R cs ds) :
    List.Forall₂ R as ds := by
  induction hac generalizing ds with
  | nil => exact hcd
  | cons h _ ih =>
    cases hcd with
    | cons h' hrest => exact .cons (htrans _ _ _ h h') (ih hrest)

theorem retagged_of_applyParams {m n : Method} {tags names : List String}
    (h : names.foldlM (b.applyParams entity label tags) m = .ok n) :
    ∃ arguments, List.Forall₂ (Argument.Retagged b.parsers.param.names) m.arguments arguments ∧
      n = { m with arguments := arguments } := by
  refine foldlM_invariant (fun _ n => ∃ arguments,
    List.Forall₂ (Argument.Retagged b.parsers.param.names) m.arguments arguments ∧
      n = { m with arguments := arguments }) ?_
    ⟨m.arguments, List.forall₂_same.mpr fun a _ => .refl a, rfl⟩ h
  rintro _ name _ n ⟨arguments, harguments, rfl⟩ h
  obtain ⟨changed, hchanged, h⟩ := bind_eq_ok_iff.mp h
  obtain rfl := Except.ok.inj h
  have hstep := forall₂_of_changeFirst Argument.Retagged.refl
    (fun _ _ => retagged_of_applyParamTokens) hchanged
  exact ⟨changed, forall₂_trans (fun _ _ _ => .trans) harguments hstep, rfl⟩

theorem methodStep_of_renameField {names : List String} {m n : Method} {name new : String}
    (hnew : Payload.isName new = true)
    (h : renameField entity name new m = .ok n) : MethodStep b names m .aliasName n := by
  unfold renameField at h
  dsimp only at h
  split at h
  · obtain ⟨arguments, harguments, h⟩ := bind_eq_ok_iff.mp h
    obtain rfl := Except.ok.inj h
    refine .argumentAlias (forall₂_of_changeFirst Argument.Retagged.refl ?_ harguments)
    intro a c hc
    obtain rfl := Except.ok.inj hc
    exact ⟨rfl, rfl, Or.inr hnew, id⟩
  · obtain ⟨results, hresults, h⟩ := bind_eq_ok_iff.mp h
    obtain rfl := Except.ok.inj h
    refine .resultAlias (forall₂_of_changeFirst (fun r => ⟨rfl, rfl, Or.inl rfl⟩) ?_ hresults)
    intro r q hq
    obtain rfl := Except.ok.inj hq
    exact ⟨rfl, rfl, Or.inr hnew⟩

theorem loggedType_eq_ok_iff {tag name : String} {m : Method} {type : FieldType} :
    loggedType entity tag name m = .ok type ↔ m.typeOf? name = some type := by
  unfold loggedType
  split <;> simp_all

/-- Names are listed one by one, and listing a name changes nothing that the check of the next one
looks at. -/
theorem addNew_all {ε : Type} {f : Method → String → Except ε Method} {Q : String → Prop}
    (put : List String → Method)
    (hstep : ∀ listed name n, f (put listed) name = .ok n → Q name ∧ n = put (addNew listed name))
    {names listed : List String} {n : Method} (h : names.foldlM f (put listed) = .ok n) :
    (∀ name ∈ names, Q name) ∧ n = put (names.foldl addNew listed) := by
  refine foldlM_invariant (fun names n => (∀ name ∈ names, Q name) ∧
    n = put (names.foldl addNew listed)) ?_ ⟨by simp, rfl⟩ h
  rintro before name _ n ⟨hbefore, rfl⟩ h
  obtain ⟨hname, rfl⟩ := hstep _ name n h
  refine ⟨?_, by rw [List.foldl_append]; rfl⟩
  intro other hother
  rcases List.mem_append.mp hother with hother | hother
  · exact hbefore other hother
  · rwa [List.mem_singleton.mp hother]

theorem ignoreInLogs_all {m n : Method} {names : List String}
    (h : names.foldlM (ignoreInLogs entity) m = .ok n) :
    (∀ name ∈ names, ∃ type, m.typeOf? name = some type) ∧
      n = { m with logsIgnore := names.foldl addNew m.logsIgnore } := by
  refine addNew_all (fun listed => { m with logsIgnore := listed }) ?_ h
  intro listed name n h
  obtain ⟨type, htype, h⟩ := bind_eq_ok_iff.mp h
  obtain rfl := Except.ok.inj h
  exact ⟨⟨type, loggedType_eq_ok_iff.mp htype⟩, rfl⟩

theorem logByLength_all {m n : Method} {names : List String}
    (h : names.foldlM (logByLength entity) m = .ok n) :
    (∀ name ∈ names, ∃ type, m.typeOf? name = some type ∧ type.hasLen = true) ∧
      n = { m with logsLen := names.foldl addNew m.logsLen } := by
  refine addNew_all (fun listed => { m with logsLen := listed }) ?_ h
  intro listed name n h
  obtain ⟨type, htype, h⟩ := bind_eq_ok_iff.mp h
  dsimp only at h
  split at h
  · rename_i hlen
    obtain rfl := Except.ok.inj h
    exact ⟨⟨type, loggedType_eq_ok_iff.mp htype, hlen⟩, rfl⟩
  · cases h

theorem methodStep_of_apply {m n : Method} {tag : MethodTag}
    (h : b.applyMethodTag entity label token payload m tag = .ok n) :
    MethodStep b (Payload.names payload) m tag n := by
  cases tag with
  | enable =>
    obtain ⟨names, hnames, h⟩ := bind_eq_ok_iff.mp h
    obtain ⟨flags, hflags, h⟩ := bind_eq_ok_iff.mp h
    obtain rfl := Except.ok.inj h
    obtain rfl := Payload.names_eq_of_someNames (readOn_eq_ok_iff.mp hnames)
    exact .enable (directOn_eq_ok_iff.mp hflags)
  | disable =>
    obtain ⟨names, hnames, h⟩ := bind_eq_ok_iff.mp h
    obtain ⟨flags, hflags, h⟩ := bind_eq_ok_iff.mp h
    obtain rfl := Except.ok.inj h
    obtain rfl := Payload.names_eq_of_someNames (readOn_eq_ok_iff.mp hnames)
    exact .disable (directOn_eq_ok_iff.mp hflags)
  | enableAll =>
    obtain ⟨flags, hflags, h⟩ := bind_eq_ok_iff.mp h
    obtain rfl := Except.ok.inj h
    exact .enableAll (directOn_eq_ok_iff.mp hflags)
  | disableAll =>
    obtain ⟨flags, hflags, h⟩ := bind_eq_ok_iff.mp h
    obtain rfl := Except.ok.inj h
    exact .disableAll (directOn_eq_ok_iff.mp hflags)
  | aliasName =>
    obtain ⟨new, hnew, h⟩ := bind_eq_ok_iff.mp h
    have hname := Payload.isName_of_aliasName (readOn_eq_ok_iff.mp hnew)
    cases new with
    | own new =>
      obtain rfl := Except.ok.inj h
      exact .aliasName hname
    | field name new => exact methodStep_of_renameField hname h
  | params =>
    obtain ⟨params, _, h⟩ := bind_eq_ok_iff.mp h
    obtain ⟨arguments, harguments, rfl⟩ := retagged_of_applyParams h
    exact .params harguments
  | logsIgnore =>
    obtain ⟨names, hnames, h⟩ := bind_eq_ok_iff.mp h
    obtain rfl := Payload.names_eq_of_someNames (readOn_eq_ok_iff.mp hnames)
    obtain ⟨htypes, rfl⟩ := ignoreInLogs_all h
    exact .logsIgnore htypes
  | logsLen =>
    obtain ⟨names, hnames, h⟩ := bind_eq_ok_iff.mp h
    obtain rfl := Payload.names_eq_of_someNames (readOn_eq_ok_iff.mp hnames)
    obtain ⟨htypes, rfl⟩ := logByLength_all h
    exact .logsLen htypes
  | httpMethod =>
    obtain ⟨verb, hverb, h⟩ := bind_eq_ok_iff.mp h
    obtain rfl := Except.ok.inj h
    exact .httpMethod (Payload.mem_httpVerbs_of_verb (readOn_eq_ok_iff.mp hverb))
  | httpPath =>
    obtain ⟨path, hpath, h⟩ := bind_eq_ok_iff.mp h
    obtain rfl := Except.ok.inj h
    exact .httpPath (Payload.isPath_of_path (readOn_eq_ok_iff.mp hpath))

end Builder

end ServiceLoom

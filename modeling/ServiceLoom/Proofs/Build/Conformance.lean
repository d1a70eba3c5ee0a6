import ServiceLoom.Proofs.Build.FieldType
import ServiceLoom.Proofs.Build.Siblings
import ServiceLoom.Proofs.Build.Signature

/-!
# Interfaces that keep to the convention

All objections to an interface without tags are listed: its name, and then method by method a name
that came before, the context, the error, the parameters and the results. The build ends with the
first objection. There is none exactly if the interface keeps to the convention, and then the
service is what was declared and nothing more.
-/

namespace ServiceLoom

instance (name : String) : Decidable (Named name) :=
  inferInstanceAs (Decidable (name ≠ "" ∧ name ≠ "_"))

/-! ## The convention -/

/-- The context and the error are where they belong, and all other fields are named and of a type
that converts; only the last parameter may be variadic. -/
structure MethodDecl.Conforms (c : Convention) (m : MethodDecl) : Prop where
  context : ∃ context, m.params.head? = some context ∧ context.type.text = c.contextType
  error : ∃ error, m.results.getLast? = some error ∧ error.type.text = c.errorType
  params : ∀ before param after, m.params.tail = before ++ param :: after →
    Named param.name ∧ param.type.Fits after.isEmpty
  results : ∀ result ∈ m.results.dropLast, Named result.name ∧ result.type.Fits false

structure InterfaceDecl.Conforms (c : Convention) (decl : InterfaceDecl) : Prop where
  name : c.isServiceName decl.name = true
  distinct : (decl.methods.map (·.name)).Nodup
  methods : ∀ m ∈ decl.methods, m.Conforms c

structure InterfaceDecl.Tagless (decl : InterfaceDecl) : Prop where
  service : (Comment.classify decl.docs).tags = []
  methods : ∀ m ∈ decl.methods, (Comment.classify m.docs).tags = []
  params : ∀ m ∈ decl.methods, ∀ param ∈ m.params.tail, (Comment.classify param.docs).tags = []

/-! ## Objections -/

structure Objection where
  entity : String
  reason : String
  deriving DecidableEq, Repr

namespace Objection

def error (o : Objection) : Error := .invalidDeclaration o.entity o.reason

/-- The field at an end of a signature has the type that the convention expects. -/
def ofEnd (entity what expected : String) : Option FieldDecl → List Objection
  | none => [⟨entity, s!"{what} must be {expected}"⟩]
  | some field =>
    if field.type.text = expected then []
    else [⟨entity, s!"{what} must be {expected}, found {field.type.text}"⟩]

def ofNaming (entity what : String) (position : Nat) (field : FieldDecl) : List Objection :=
  if Named field.name then []
  else [⟨entity, s!"{what} {position} ({field.type.text}) is unnamed"⟩]

def ofType (entity : String) (allowVariadic : Bool) (type : TypeExpr) : List Objection :=
  (type.misplaced allowVariadic).map
    fun node => ⟨entity, (FieldType.Misplaced.ofNode node).message⟩

def ofField (entity what : String) (position : Nat) (allowVariadic : Bool) (field : FieldDecl) :
    List Objection :=
  ofNaming entity what position field ++ ofType entity allowVariadic field.type

def ofFields (entity what : String) (variadicLast : Bool) (position : Nat) :
    List FieldDecl → List Objection
  | [] => []
  | field :: rest =>
    ofField entity what position (variadicLast && rest.isEmpty) field ++
      ofFields entity what variadicLast (position + 1) rest

def ofMethod (c : Convention) (service : String) (m : MethodDecl) : List Objection :=
  let label := s!"{service}.{m.name}"
  let entity := s!"method {label}"
  ofEnd entity "first parameter" c.contextType m.params.head? ++
    ofEnd entity "last result" c.errorType m.results.getLast? ++
    ofFields entity "parameter" true 1 m.params.tail ++
    ofFields entity "result" false 1 m.results.dropLast

/-- `earlier` are the names of the methods before. -/
def ofRepetition (service : String) (earlier : List String) (name : String) : List Objection :=
  if name ∈ earlier then [⟨s!"service {service}", s!"method '{name}' is declared twice"⟩] else []

def ofMethods (c : Convention) (service : String) (earlier : List String) :
    List MethodDecl → List Objection
  | [] => []
  | m :: rest =>
    ofRepetition service earlier m.name ++ ofMethod c service m ++
      ofMethods c service (m.name :: earlier) rest

def ofServiceName (c : Convention) (name : String) : List Objection :=
  if c.isServiceName name then []
  else [⟨s!"service {name}", s!"name must be an exported identifier ending in '{c.serviceSuffix}'"⟩]

def ofInterface (c : Convention) (decl : InterfaceDecl) : List Objection :=
  ofServiceName c decl.name ++ ofMethods c decl.name [] decl.methods

variable {c : Convention} {entity what service : String}

theorem ofEnd_eq_nil_iff {expected : String} {field? : Option FieldDecl} :
    ofEnd entity what expected field? = [] ↔
      ∃ field, field? = some field ∧ field.type.text = expected := by
  cases field? <;> simp [ofEnd]

theorem ofField_eq_nil_iff {position : Nat} {allowVariadic : Bool} {field : FieldDecl} :
    ofField entity what position allowVariadic field = [] ↔
      Named field.name ∧ field.type.Fits allowVariadic := by
  simp [ofField, ofNaming, ofType, TypeExpr.misplaced_eq_nil_iff]

theorem ofFields_eq_nil_iff {variadicLast : Bool} {position : Nat} {fields : List FieldDecl} :
    ofFields entity what variadicLast position fields = [] ↔
      ∀ before field after, fields = before ++ field :: after →
        Named field.name ∧ field.type.Fits (variadicLast && after.isEmpty) := by
  induction fields generalizing position with
  | nil => simp [ofFields]
  | cons first rest ih =>
    rw [ofFields, List.append_eq_nil_iff, ofField_eq_nil_iff, ih]
    constructor
    · rintro ⟨hfirst, hrest⟩ before field after h
      cases before with
      | nil =>
        obtain ⟨rfl, rfl⟩ := List.cons.inj h
        exact hfirst
      | cons _ before => exact hrest before field after (List.cons.inj h).2
    · intro h
      refine ⟨h [] first rest rfl, ?_⟩
      intro before field after hrest
      exact h (first :: before) field after (by rw [hrest]; rfl)

theorem ofMethod_eq_nil_iff {m : MethodDecl} : ofMethod c service m = [] ↔ m.Conforms c := by
  simp only [ofMethod, List.append_eq_nil_iff, ofEnd_eq_nil_iff, ofFields_eq_nil_iff,
    Bool.true_and, Bool.false_and]
  constructor
  · rintro ⟨⟨⟨hcontext, herror⟩, hparams⟩, hresults⟩
    refine ⟨hcontext, herror, hparams, ?_⟩
    intro result hresult
    obtain ⟨before, after, h⟩ := List.append_of_mem hresult
    exact hresults before result after h
  · rintro ⟨hcontext, herror, hparams, hresults⟩
    refine ⟨⟨⟨hcontext, herror⟩, hparams⟩, ?_⟩
    intro before result after h
    exact hresults result (by simp [h])

theorem ofMethods_eq_nil_iff {earlier : List String} {methods : List MethodDecl} :
    ofMethods c service earlier methods = [] ↔ (methods.map (·.name)).Nodup ∧
      (∀ m ∈ methods, m.name ∉ earlier) ∧ ∀ m ∈ methods, m.Conforms c := by
  induction methods generalizing earlier with
  | nil => simp [ofMethods]
  | cons m rest ih =>
    have hnew : (∀ other ∈ rest, other.name ∉ m.name :: earlier) ↔
        m.name ∉ rest.map (·.name) ∧ ∀ other ∈ rest, other.name ∉ earlier := by
      simp only [List.mem_cons, not_or, List.mem_map, not_exists, not_and, ← forall_and]
    have hfirst : ofRepetition service earlier m.name = [] ↔ m.name ∉ earlier := by
      simp [ofRepetition]
    rw [ofMethods, List.append_eq_nil_iff, List.append_eq_nil_iff, hfirst, ofMethod_eq_nil_iff, ih,
      hnew, List.map_cons, List.nodup_cons, List.forall_mem_cons, List.forall_mem_cons]
    constructor
    · rintro ⟨⟨hm, hconforms⟩, hdistinct, ⟨hname, hrest⟩, hall⟩
      exact ⟨⟨hname, hdistinct⟩, ⟨hm, hrest⟩, hconforms, hall⟩
    · rintro ⟨⟨hname, hdistinct⟩, ⟨hm, hrest⟩, hconforms, hall⟩
      exact ⟨⟨hm, hconforms⟩, hdistinct, ⟨hname, hrest⟩, hall⟩

theorem ofInterface_eq_nil_iff {decl : InterfaceDecl} :
    ofInterface c decl = [] ↔ decl.Conforms c := by
  have hname : ofServiceName c decl.name = [] ↔ c.isServiceName decl.name = true := by
    simp [ofServiceName]
  rw [ofInterface, List.append_eq_nil_iff, hname, ofMethods_eq_nil_iff]
  constructor
  · rintro ⟨hname, hdistinct, _, hmethods⟩
    exact ⟨hname, hdistinct, hmethods⟩
  · rintro ⟨hname, hdistinct, hmethods⟩
    exact ⟨hname, hdistinct, by simp, hmethods⟩

end Objection

namespace Builder

open Objection

variable {b : Builder} {entity service package : String} {seed : FlagSet}

theorem reports_convertType {type : TypeExpr} {allowVariadic : Bool} :
    Reports ((ofType entity allowVariadic type).map error)
      (convertType entity type allowVariadic) := by
  have h := FieldType.reports_ofExpr allowVariadic type
  unfold convertType ofType
  split
  · rename_i fieldType htype
    have hnone := h.exists_ok_iff.mp ⟨fieldType, htype⟩
    rw [List.map_eq_nil_iff.mp hnone]
    exact .ok fieldType
  · rename_i cause hcause
    have hfirst := h.eq_error_iff.mp hcause
    rw [List.head?_map, Option.map_eq_some_iff] at hfirst
    obtain ⟨node, hnode, rfl⟩ := hfirst
    show ((_ : List Objection).map error).head? = _
    rw [List.head?_map, List.head?_map, hnode]
    rfl

theorem reports_checkNamed {what : String} {position : Nat} {field : FieldDecl} :
    Reports ((ofNaming entity what position field).map error)
      (checkNamed entity what position field) := by
  unfold checkNamed ofNaming
  by_cases h : Named field.name
  · rw [if_pos h, if_neg (not_or.mpr h)]
    exact .ok ()
  · rw [if_neg h, if_pos (by_contra fun hnamed => h (not_or.mp hnamed))]
    exact .error _

theorem reports_contextRest {params : List FieldDecl} :
    Reports ((ofEnd entity "first parameter" b.convention.contextType params.head?).map error)
      (b.contextRest entity params) := by
  cases params with
  | nil => exact .error _
  | cons context rest =>
    unfold contextRest ofEnd
    dsimp only [List.head?_cons]
    split
    · exact .ok rest
    · exact .error _

theorem reports_errorRest {results : List FieldDecl} :
    Reports ((ofEnd entity "last result" b.convention.errorType results.getLast?).map error)
      (b.errorRest entity results) := by
  unfold errorRest ofEnd
  cases results.getLast? with
  | none => exact .error _
  | some last =>
    dsimp only
    split
    · exact .ok _
    · exact .error _

theorem reports_buildArgument {label : String} {position : Nat} {last : Bool} {param : FieldDecl}
    (h : (Comment.classify param.docs).tags = []) :
    Reports ((ofField s!"method {label}" "parameter" position last param).map error)
      (b.buildArgument label position last param) := by
  rw [ofField, List.map_append, ← List.append_nil (List.map error (ofType ..))]
  refine reports_checkNamed.bind fun _ _ => reports_convertType.bind fun type _ => ?_
  rw [h]
  exact .ok _

theorem reports_buildArguments {label : String} {position : Nat} {params : List FieldDecl}
    (h : ∀ param ∈ params, (Comment.classify param.docs).tags = []) :
    Reports ((ofFields s!"method {label}" "parameter" true position params).map error)
      (b.buildArguments label position params) := by
  induction params generalizing position with
  | nil => exact .ok []
  | cons param rest ih =>
    rw [List.forall_mem_cons] at h
    rw [ofFields, List.map_append, ← List.append_nil (List.map error (ofFields ..))]
    exact (reports_buildArgument h.1).bind fun _ _ => (ih h.2).bind fun _ _ => .ok _

theorem reports_buildResults {position : Nat} {results : List FieldDecl} :
    Reports ((ofFields entity "result" false position results).map error)
      (buildResults entity position results) := by
  induction results generalizing position with
  | nil => exact .ok []
  | cons result rest ih =>
    have hfirst : Reports ((ofField entity "result" position false result).map error)
        (buildResult entity position result) := by
      rw [ofField, List.map_append, ← List.append_nil (List.map error (ofType ..))]
      exact reports_checkNamed.bind fun _ _ => reports_convertType.bind fun _ _ => .ok _
    rw [ofFields, List.map_append, ← List.append_nil (List.map error (ofFields ..))]
    exact hfirst.bind fun _ _ => ih.bind fun _ _ => .ok _

theorem reports_buildMethod {m : MethodDecl} (hm : (Comment.classify m.docs).tags = [])
    (hparams : ∀ param ∈ m.params.tail, (Comment.classify param.docs).tags = []) :
    Reports ((ofMethod b.convention service m).map error) (b.buildMethod service seed m) := by
  simp only [ofMethod, List.map_append, List.append_assoc]
  refine reports_contextRest.bind fun params hcontext => ?_
  refine reports_errorRest.bind fun results herror => ?_
  obtain ⟨context, hcontext, _⟩ := params_of_contextRest hcontext
  obtain ⟨error, herror, _⟩ := results_of_errorRest herror
  rw [hcontext] at hparams ⊢
  rw [herror, List.dropLast_concat, List.tail_cons]
  refine (reports_buildArguments hparams).bind fun arguments _ => ?_
  rw [← List.append_nil (List.map Objection.error _)]
  refine reports_buildResults.bind fun fields _ => ?_
  dsimp only
  rw [hm]
  exact .ok _

theorem reports_buildMethods {built : List String} {methods : List MethodDecl}
    (hmethods : ∀ m ∈ methods, (Comment.classify m.docs).tags = [])
    (hparams : ∀ m ∈ methods, ∀ param ∈ m.params.tail, (Comment.classify param.docs).tags = []) :
    Reports ((ofMethods b.convention service built methods).map error)
      (b.buildMethods service seed built methods) := by
  induction methods generalizing built with
  | nil => exact .ok []
  | cons m rest ih =>
    rw [List.forall_mem_cons] at hmethods hparams
    rw [ofMethods, ofRepetition]
    by_cases hm : m.name ∈ built
    · rw [buildMethods_cons_of_mem rest hm, if_pos hm]
      rfl
    · rw [buildMethods_cons_of_not_mem rest hm, if_neg hm, List.nil_append, List.map_append,
        ← List.append_nil (List.map error (ofMethods ..))]
      exact (reports_buildMethod hmethods.1 hparams.1).bind fun _ _ =>
        (ih hmethods.2 hparams.2).bind fun _ _ => .ok _

theorem reports_buildHead {decl : InterfaceDecl} (h : (Comment.classify decl.docs).tags = []) :
    Reports ((ofServiceName b.convention decl.name).map error) (b.buildHead package decl) := by
  unfold buildHead ofServiceName
  dsimp only
  rw [h]
  cases b.convention.isServiceName decl.name with
  | true => exact .ok _
  | false => exact .error _

theorem reports_buildIn {decl : InterfaceDecl} (h : decl.Tagless) :
    Reports ((ofInterface b.convention decl).map error) (b.buildIn package decl) := by
  rw [ofInterface, List.map_append, ← List.append_nil (List.map error (ofMethods ..))]
  exact (reports_buildHead h.service).bind fun _ _ =>
    (reports_buildMethods h.methods h.params).bind fun _ _ => .ok _

end Builder

/-! ## Services as declared -/

structure Argument.AsDeclared (param : FieldDecl) (a : Argument) : Prop where
  name : a.name = param.name
  aliasName : a.aliasName = a.name
  type : a.type.text = param.type.text
  origin : a.origin = .body
  originTagged : a.originTagged = false
  docs : a.docs = (Comment.classify param.docs).docs
  tags : a.tags = {}

structure Field.AsDeclared (result : FieldDecl) (r : Field) : Prop where
  name : r.name = result.name
  aliasName : r.aliasName = r.name
  type : r.type.text = result.type.text

structure Method.AsDeclared (service : String) (decl : MethodDecl) (m : Method) : Prop where
  service : m.service = service
  name : m.name = decl.name
  aliasName : m.aliasName = m.name
  docs : m.docs = (Comment.classify decl.docs).docs
  arguments : List.Forall₂ Argument.AsDeclared decl.params.tail m.arguments
  results : List.Forall₂ Field.AsDeclared decl.results.dropLast m.results
  flags : m.flags = FlagSet.empty
  httpMethod : m.httpMethod = none
  httpPath : m.httpPath = none
  logsIgnore : m.logsIgnore = []
  logsLen : m.logsLen = []
  tags : m.tags = {}

structure Service.AsDeclared (package : String) (decl : InterfaceDecl) (s : Service) : Prop where
  name : s.name = decl.name
  aliasName : s.aliasName = s.name
  package : s.package = package
  docs : s.docs = (Comment.classify decl.docs).docs
  methods : List.Forall₂ (Method.AsDeclared s.name) decl.methods s.methods
  flags : s.flags = FlagSet.empty
  httpPrefix : s.httpPrefix = none
  capabilities : s.capabilities = Capability.ofEmbeds decl.embeds
  tags : s.tags = {}

namespace Builder

variable {b : Builder} {entity label service package : String} {position : Nat}

theorem text_of_convertType {type : TypeExpr} {allowVariadic : Bool} {fieldType : FieldType}
    (h : convertType entity type allowVariadic = .ok fieldType) : fieldType.text = type.text :=
  FieldType.text_of_ofExpr (convertType_eq_ok_iff.mp h)

theorem asDeclared_of_buildArguments {params : List FieldDecl} {arguments : List Argument}
    (htags : ∀ param ∈ params, (Comment.classify param.docs).tags = [])
    (h : b.buildArguments label position params = .ok arguments) :
    List.Forall₂ Argument.AsDeclared params arguments := by
  induction params generalizing position arguments with
  | nil =>
    obtain rfl := Except.ok.inj h
    exact .nil
  | cons param rest ih =>
    rw [List.forall_mem_cons] at htags
    obtain ⟨a, ha, h⟩ := bind_eq_ok_iff.mp h
    obtain ⟨as, has, h⟩ := bind_eq_ok_iff.mp h
    obtain rfl := Except.ok.inj h
    obtain ⟨_, _, ha⟩ := bind_eq_ok_iff.mp ha
    obtain ⟨type, htype, ha⟩ := bind_eq_ok_iff.mp ha
    rw [htags.1] at ha
    obtain rfl := Except.ok.inj ha
    exact .cons ⟨rfl, rfl, text_of_convertType htype, rfl, rfl, rfl, rfl⟩ (ih htags.2 has)

theorem asDeclared_of_buildResults {results : List FieldDecl} {fields : List Field}
    (h : buildResults entity position results = .ok fields) :
    List.Forall₂ Field.AsDeclared results fields := by
  induction results generalizing position fields with
  | nil =>
    obtain rfl := Except.ok.inj h
    exact .nil
  | cons result rest ih =>
    obtain ⟨field, hfield, h⟩ := bind_eq_ok_iff.mp h
    obtain ⟨fields, hfields, h⟩ := bind_eq_ok_iff.mp h
    obtain rfl := Except.ok.inj h
    obtain ⟨_, _, hfield⟩ := bind_eq_ok_iff.mp hfield
    obtain ⟨type, htype, hfield⟩ := bind_eq_ok_iff.mp hfield
    obtain rfl := Except.ok.inj hfield
    exact .cons ⟨rfl, rfl, text_of_convertType htype⟩ (ih hfields)

theorem asDeclared_of_buildMethod {decl : MethodDecl} {m : Method}
    (hdecl : (Comment.classify decl.docs).tags = [])
    (hparams : ∀ param ∈ decl.params.tail, (Comment.classify param.docs).tags = [])
    (h : b.buildMethod service FlagSet.empty decl = .ok m) : m.AsDeclared service decl := by
  obtain ⟨entity, label, params, results, arguments, fields, tagged, hcontext, herror, harguments,
    hfields, htags, hbind⟩ := parts_of_buildMethod h
  obtain ⟨context, hcontext, _⟩ := params_of_contextRest hcontext
  obtain ⟨error, herror, _⟩ := results_of_errorRest herror
  rw [hdecl] at htags
  obtain rfl := Except.ok.inj htags
  obtain rfl := Except.ok.inj hbind
  have hparams : ∀ param ∈ params, (Comment.classify param.docs).tags = [] := by
    simpa [hcontext] using hparams
  constructor
  case arguments =>
    rw [hcontext]
    exact asDeclared_of_buildArguments hparams harguments
  case results =>
    rw [herror, List.dropLast_concat]
    exact asDeclared_of_buildResults hfields
  all_goals rfl

/-- Whether an interface without tags builds, into what, and with which error it does not. -/
theorem buildIn_tagless (b : Builder) (package : String) {decl : InterfaceDecl}
    (h : decl.Tagless) :
    ((∃ s, b.buildIn package decl = .ok s) ↔ decl.Conforms b.convention) ∧
    (∀ s, b.buildIn package decl = .ok s → s.AsDeclared package decl) ∧
    ∀ e, b.buildIn package decl = .error e ↔
      ∃ first, (Objection.ofInterface b.convention decl).head? = some first ∧ first.error = e := by
  have hreports : Reports _ (b.buildIn package decl) := reports_buildIn h
  refine ⟨?_, ?_, ?_⟩
  · rw [hreports.exists_ok_iff, List.map_eq_nil_iff, Objection.ofInterface_eq_nil_iff]
  · intro s hs
    obtain ⟨head, methods, hhead, hmethods, rfl⟩ := parts_of_buildIn hs
    obtain ⟨_, entity, htags⟩ := parts_of_buildHead hhead
    rw [h.service] at htags
    obtain rfl := Except.ok.inj htags
    constructor
    case methods =>
      have hbuilt := (List.forall₂_and_left decl.methods methods).mpr
        ⟨fun m hm => And.intro (h.methods m hm) (h.params m hm), (parts_of_buildMethods hmethods).1⟩
      exact hbuilt.imp fun m _ ⟨⟨hdocs, hparams⟩, hm⟩ => asDeclared_of_buildMethod hdocs hparams hm
    all_goals rfl
  · intro e
    rw [hreports.eq_error_iff, List.head?_map, Option.map_eq_some_iff]

section Courier

def contextParam : FieldDecl := ⟨"ctx", .selector "context" "Context", []⟩

def errorResult : FieldDecl := ⟨"err", .ident "error", []⟩

def sendDecl : MethodDecl where
  name := "Send"
  docs := ["// Sends parcels, see a ## @track note."]
  params := [contextParam, ⟨"to", .map (.ident "string") (.slice (.ident "byte")), ["// prose"]⟩,
    ⟨"parcels", .ellipsis (.star (.selector "post" "Parcel")), []⟩]
  results := [⟨"id", .slice (.ident "byte"), []⟩, errorResult]

def courierInterface : InterfaceDecl := ⟨"CourierService", [], [], [sendDecl]⟩

def trackDecl : MethodDecl where
  name := "Track"
  params := [contextParam, ⟨"id", .map (.ident "K") (.slice (.chan .func)), []⟩,
    ⟨"_", .ellipsis .struct, []⟩]
  results := [errorResult]

/-- Three things are wrong with the second method, and the third one has the name of the first. -/
def brokenCourier : InterfaceDecl := ⟨"CourierService", [], [], [sendDecl, trackDecl, sendDecl]⟩

theorem buildIn_tagless_courier :
    courierInterface.Tagless ∧
      (∃ s, ({} : Builder).buildIn "post" courierInterface = .ok s ∧
        s.AsDeclared "post" courierInterface) ∧
      brokenCourier.Tagless ∧
      ({} : Builder).buildIn "post" brokenCourier =
        .error (.invalidDeclaration "method CourierService.Track"
          "unsupported type shape chan func") := by
  have htagless : courierInterface.Tagless :=
    ⟨by decide, by decide +kernel, by decide +kernel⟩
  have hbroken : brokenCourier.Tagless :=
    ⟨by decide, by decide +kernel, by decide +kernel⟩
  have hnone : Objection.ofInterface {} courierInterface = [] := by decide
  have hfirst : (Objection.ofInterface {} brokenCourier).head? =
      some ⟨"method CourierService.Track", "unsupported type shape chan func"⟩ := by
    decide
  obtain ⟨hbuilds, hbuilt, _⟩ := buildIn_tagless {} "post" htagless
  obtain ⟨s, hs⟩ := hbuilds.mpr (Objection.ofInterface_eq_nil_iff.mp hnone)
  obtain ⟨_, _, hfails⟩ := buildIn_tagless {} "post" hbroken
  exact ⟨htagless, ⟨s, hs, hbuilt s hs⟩, hbroken, (hfails _).mpr ⟨_, hfirst, rfl⟩⟩

end Courier

end Builder

end ServiceLoom

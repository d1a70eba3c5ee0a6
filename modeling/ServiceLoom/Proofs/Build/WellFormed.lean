import ServiceLoom.Proofs.Build.Flags
import ServiceLoom.Proofs.Build.Signature

/-!
# Built services are well formed

What a built method satisfies holds before its first tag and is kept by every tag, in whatever order
and number they come, save for one thing: that the placeholders of the path are arguments. Aliases
and the path may change until the last tag, so this is settled at the end.
-/

namespace ServiceLoom

open Tag

/-- Names and types of arguments and results, in the order in which they are looked up. -/
def Method.fields (m : Method) : List (String × FieldType) :=
  m.arguments.map (fun a => (a.name, a.type)) ++ m.results.map (fun r => (r.name, r.type))

theorem Method.typeOf?_eq (m : Method) (name : String) : m.typeOf? name = m.fields.lookup name := by
  have hfind : ∀ {α : Type} (entries : List α) (label : α → String) (type : α → FieldType),
      (entries.find? (label · == name)).map type =
        (entries.map fun e => (label e, type e)).lookup name := by
    intro α entries label type
    induction entries with
    | nil => rfl
    | cons entry rest ih =>
      by_cases hname : label entry = name
      · simp [hname]
      · have hname' : (name == label entry) = false := by simpa using Ne.symm hname
        simp [hname, List.lookup_cons, hname', ih]
  rw [Method.typeOf?, Method.fields, List.lookup_append]
  exact congr (congrArg Option.or (hfind m.arguments _ _)) (hfind m.results _ _)

/-- What a method has from its declaration, and what every tag on it keeps. -/
structure Method.Sound (b : Builder) (service : String) (decl : MethodDecl) (m : Method) :
    Prop where
  service : m.service = service
  name : m.name = decl.name
  context : ∃ param, decl.params.head? = some param ∧
    param.type.text = b.convention.contextType
  arguments : m.arguments.map (·.name) = decl.params.tail.map (·.name)
  error : ∃ result, decl.results.getLast? = some result ∧
    result.type.text = b.convention.errorType
  results : m.results.map (·.name) = decl.results.dropLast.map (·.name)
  variadic : VariadicLast (m.arguments.map (·.type))
  eachArgument : ∀ a ∈ m.arguments, a.WellFormed b.parsers.param.names
  eachResult : ∀ r ∈ m.results, r.WellFormed
  aliasName : m.aliasName = m.name ∨ Payload.isName m.aliasName = true
  flags : ∀ flag ∈ m.flags, flag ∈ b.methodFlags.allowed
  logsIgnore : m.logsIgnore.Nodup ∧ ∀ name ∈ m.logsIgnore, name ∈ m.fields.map Prod.fst
  logsLen : m.logsLen.Nodup ∧
    ∀ name ∈ m.logsLen, ∃ type, m.fields.lookup name = some type ∧ type.hasLen = true
  httpMethod : ∀ verb, m.httpMethod = some verb → verb ∈ httpVerbs
  httpPath : ∀ path, m.httpPath = some path → Payload.IsPath path
  tags : m.tags.Sound b.parsers.method.names

/-- The placeholders of the path are arguments, and where no tag says otherwise, those arguments
come from the path. -/
structure Method.WellFormed (b : Builder) (service : String) (decl : MethodDecl) (m : Method) :
    Prop extends m.Sound b service decl where
  placeholders : ∀ path, m.httpPath = some path → ∀ name ∈ PathTemplate.placeholders path,
    ∃ a ∈ m.arguments, (name = a.name ∨ name = a.aliasName) ∧
      (a.originTagged = false → a.origin = .path)

/-- What a service has from its interface, and what every tag on it keeps. -/
structure Service.Sound (b : Builder) (package : String) (decl : InterfaceDecl) (s : Service) :
    Prop where
  name : s.name = decl.name
  package : s.package = package
  aliasName : s.aliasName = s.name ∨ Payload.isName s.aliasName = true
  flags : ∀ flag ∈ s.flags, flag ∈ b.serviceFlags.allowed
  httpPrefix : ∀ path, s.httpPrefix = some path → Payload.IsPath path
  tags : s.tags.Sound b.parsers.service.names

structure Service.WellFormed (b : Builder) (package : String) (decl : InterfaceDecl) (s : Service) :
    Prop extends s.Sound b package decl where
  convention : b.convention.isServiceName s.name = true
  methods : List.Forall₂ (Method.WellFormed b s.name) decl.methods s.methods
  distinct : (s.methods.map (·.name)).Nodup

theorem Method.fields_withArguments {custom : List String} {m : Method} {arguments : List Argument}
    (h : List.Forall₂ (Argument.Retagged custom) m.arguments arguments) :
    Method.fields { m with arguments := arguments } = m.fields :=
  congrArg (· ++ _) (map_eq_of_forall₂ (fun _ _ h => by rw [h.name, h.type]) h)

theorem Method.fields_withResults {m : Method} {results : List Field}
    (h : List.Forall₂ Field.Renamed m.results results) :
    Method.fields { m with results := results } = m.fields :=
  congrArg (_ ++ ·) (map_eq_of_forall₂ (fun _ _ h => by rw [h.name, h.type]) h)

theorem Method.Sound.withArguments {b : Builder} {service : String} {decl : MethodDecl}
    {m : Method} (hm : m.Sound b service decl)
    {arguments : List Argument}
    (h : List.Forall₂ (Argument.Retagged b.parsers.param.names) m.arguments arguments) :
    Method.Sound b service decl { m with arguments := arguments } := by
  have hnames : arguments.map (·.name) = m.arguments.map (·.name) :=
    map_eq_of_forall₂ (fun _ _ h => h.name) h
  have htypes : arguments.map (·.type) = m.arguments.map (·.type) :=
    map_eq_of_forall₂ (fun _ _ h => h.type) h
  have hfields := Method.fields_withArguments h
  exact { hm with
    arguments := hnames.trans hm.arguments
    variadic := htypes ▸ hm.variadic
    eachArgument := forall_mem_of_forall₂ (fun _ _ h => h.wellFormed) h hm.eachArgument
    logsIgnore := hfields ▸ hm.logsIgnore
    logsLen := hfields ▸ hm.logsLen }

theorem Method.Sound.withResults {b : Builder} {service : String} {decl : MethodDecl}
    {m : Method} (hm : m.Sound b service decl)
    {results : List Field} (h : List.Forall₂ Field.Renamed m.results results) :
    Method.Sound b service decl { m with results := results } := by
  have hnames : results.map (·.name) = m.results.map (·.name) :=
    map_eq_of_forall₂ (fun _ _ h => h.name) h
  have hfields := Method.fields_withResults h
  exact { hm with
    results := hnames.trans hm.results
    eachResult := forall_mem_of_forall₂ (fun _ _ h => h.wellFormed) h hm.eachResult
    logsIgnore := hfields ▸ hm.logsIgnore
    logsLen := hfields ▸ hm.logsLen }

namespace Builder

variable {b : Builder} {entity label token package service : String}

/-! ## Methods -/

theorem mem_foldl_addNew {names listed : List String} {name : String} :
    name ∈ names.foldl addNew listed ↔ name ∈ listed ∨ name ∈ names := by
  induction names generalizing listed with
  | nil => simp
  | cons first rest ih =>
    rw [List.foldl_cons, ih, List.mem_cons, addNew]
    split
    · rename_i hfirst
      constructor
      · rintro (h | h)
        · exact Or.inl h
        · exact Or.inr (Or.inr h)
      · rintro (h | rfl | h)
        · exact Or.inl h
        · exact Or.inl hfirst
        · exact Or.inr h
    · rw [List.mem_append, List.mem_singleton, or_assoc]

theorem nodup_foldl_addNew {names listed : List String} (h : listed.Nodup) :
    (names.foldl addNew listed).Nodup := by
  induction names generalizing listed with
  | nil => exact h
  | cons first rest ih =>
    rw [List.foldl_cons]
    apply ih
    unfold addNew
    split
    · exact h
    · rename_i hfirst
      rw [List.nodup_append]
      refine ⟨h, by simp, ?_⟩
      intro name hname other hother
      rw [List.mem_singleton.mp hother]
      exact fun heq => hfirst (heq ▸ hname)

theorem MethodStep.sound (hu : b.methodFlags.Closed) {names : List String} {decl : MethodDecl}
    {m n : Method} {tag : MethodTag} (h : MethodStep b names m tag n)
    (hm : m.Sound b service decl) : n.Sound b service decl := by
  have hflags : ∀ flag ∈ n.flags, flag ∈ b.methodFlags.allowed := fun flag hflag =>
    ((h.follows hu hm.flags flag).mp hflag).1
  cases h with
  | enable => exact { hm with flags := hflags }
  | disable => exact { hm with flags := hflags }
  | enableAll => exact { hm with flags := hflags }
  | disableAll => exact { hm with flags := hflags }
  | aliasName hname => exact { hm with aliasName := Or.inr hname }
  | argumentAlias harguments => exact hm.withArguments harguments
  | resultAlias hresults => exact hm.withResults hresults
  | params harguments => exact hm.withArguments harguments
  | logsIgnore hnames =>
    refine { hm with logsIgnore := ⟨nodup_foldl_addNew hm.logsIgnore.1, ?_⟩ }
    intro name hname
    rcases mem_foldl_addNew.mp hname with hname | hname
    · exact hm.logsIgnore.2 name hname
    · obtain ⟨type, htype⟩ := hnames name hname
      rw [Method.typeOf?_eq] at htype
      obtain ⟨before, after, hfields, _⟩ := List.lookup_eq_some_iff.mp htype
      have hmem : (name, type) ∈ m.fields := by
        rw [hfields]
        simp
      exact List.mem_map_of_mem hmem
  | logsLen hnames =>
    refine { hm with logsLen := ⟨nodup_foldl_addNew hm.logsLen.1, ?_⟩ }
    intro name hname
    rcases mem_foldl_addNew.mp hname with hname | hname
    · exact hm.logsLen.2 name hname
    · obtain ⟨type, htype, hlen⟩ := hnames name hname
      exact ⟨type, m.typeOf?_eq name ▸ htype, hlen⟩
  | httpMethod hverb =>
    refine { hm with httpMethod := ?_ }
    rintro verb ⟨rfl⟩
    exact hverb
  | httpPath hpath =>
    refine { hm with httpPath := ?_ }
    rintro path ⟨rfl⟩
    exact hpath

theorem sound_of_applyMethodToken (hu : b.methodFlags.Closed) {decl : MethodDecl} {m n : Method}
    (hm : m.Sound b service decl) (h : b.applyMethodToken entity label m token = .ok n) :
    n.Sound b service decl := by
  rcases applyMethodToken_cases h with ⟨tag, payload, _, happly⟩ | ⟨_, name, hname, options, rfl⟩
  · exact (methodStep_of_apply happly).sound hu hm
  · exact { hm with tags := hm.tags.merge hname options }

theorem sound_plainMethod (service : String) (seed : FlagSet) {decl : MethodDecl}
    (docs : List String) {params results : List FieldDecl} {arguments : List Argument}
    {fields : List Field} (hparams : b.contextRest entity decl.params = .ok params)
    (hresults : b.errorRest entity decl.results = .ok results)
    (harguments : b.buildArguments label 1 params = .ok arguments)
    (hfields : buildResults entity 1 results = .ok fields) :
    (b.plainMethod service seed decl.name docs arguments fields).Sound b service decl := by
  obtain ⟨context, hparams, hcontext⟩ := params_of_contextRest hparams
  obtain ⟨error, hresults, herror⟩ := results_of_errorRest hresults
  obtain ⟨hnames, heach, hvariadic⟩ := arguments_of_buildArguments harguments
  obtain ⟨hresultNames, heachResult⟩ := results_of_buildResults hfields
  constructor
  case context => exact ⟨context, by rw [hparams]; rfl, hcontext⟩
  case arguments => rw [hparams]; exact hnames
  case error => exact ⟨error, by rw [hresults, List.getLast?_concat], herror⟩
  case results => rw [hresults, List.dropLast_concat]; exact hresultNames
  case variadic => exact hvariadic
  case eachArgument => exact heach
  case eachResult => exact heachResult
  case flags =>
    intro flag hflag
    exact (FlagUniverse.mem_inherit_empty.mp hflag).1
  case tags => exact TagOptions.sound_empty _
  all_goals simp [plainMethod]

/-- Only origins change, so all but the placeholders is kept as by any other retagging. -/
theorem retagged_of_bindPath (custom : List String) {m n : Method}
    (h : bindPath entity m = .ok n) :
    ∃ arguments, List.Forall₂ (Argument.Retagged custom) m.arguments arguments ∧
      n = { m with arguments := arguments } := by
  rcases parts_of_bindPath h with ⟨_, rfl⟩ | ⟨path, _, _, rfl⟩
  · exact ⟨n.arguments, List.forall₂_same.mpr fun a _ => .refl a, rfl⟩
  · refine ⟨_, List.forall₂_map_right_iff.mpr (List.forall₂_same.mpr ?_), rfl⟩
    intro a _
    split
    · exact ⟨rfl, rfl, Or.inl rfl, id⟩
    · exact .refl a

theorem wellFormed_of_bindPath {decl : MethodDecl} {m n : Method} (hm : m.Sound b service decl)
    (h : bindPath entity m = .ok n) : n.WellFormed b service decl := by
  have hn : n.Sound b service decl := by
    obtain ⟨arguments, harguments, rfl⟩ := retagged_of_bindPath b.parsers.param.names h
    exact hm.withArguments harguments
  refine ⟨hn, fun path hpath name hname => ?_⟩
  obtain ⟨⟨a, ha, hnamed⟩, hbound⟩ := bound_of_bindPath h hpath hname
  exact ⟨a, ha, hnamed, hbound a ha hnamed⟩

theorem wellFormed_of_buildMethod (hu : b.methodFlags.Closed) {seed : FlagSet} {decl : MethodDecl}
    {m : Method} (h : b.buildMethod service seed decl = .ok m) :
    m.WellFormed b service decl := by
  obtain ⟨entity, label, params, results, arguments, fields, tagged, hparams, hresults, harguments,
    hfields, htags, hbind⟩ := parts_of_buildMethod h
  have hplain := sound_plainMethod service seed (Comment.classify decl.docs).docs hparams hresults
    harguments hfields
  have htagged := foldlM_invariant (fun _ n => n.Sound b service decl)
    (fun _ _ _ _ hm h => sound_of_applyMethodToken hu hm h) hplain htags
  exact wellFormed_of_bindPath htagged hbind

/-! ## Services -/

theorem ServiceStep.sound (hu : b.serviceFlags.Closed) {names : List String} {decl : InterfaceDecl}
    {s t : Service} {tag : ServiceTag} (h : ServiceStep b names s tag t)
    (hs : s.Sound b package decl) : t.Sound b package decl := by
  have hflags : ∀ flag ∈ t.flags, flag ∈ b.serviceFlags.allowed := fun flag hflag =>
    ((h.follows hu hs.flags flag).mp hflag).1
  cases h with
  | generate => exact { hs with flags := hflags }
  | generateAll => exact { hs with flags := hflags }
  | aliasName hname => exact { hs with aliasName := Or.inr hname }
  | httpPrefix hpath =>
    refine { hs with httpPrefix := ?_ }
    rintro path ⟨rfl⟩
    exact hpath

theorem sound_of_applyServiceToken (hu : b.serviceFlags.Closed) {decl : InterfaceDecl}
    {s t : Service} (hs : s.Sound b package decl)
    (h : b.applyServiceToken entity s token = .ok t) : t.Sound b package decl := by
  rcases applyServiceToken_cases h with ⟨tag, payload, _, happly⟩ | ⟨_, name, hname, options, rfl⟩
  · exact (serviceStep_of_apply happly).sound hu hs
  · exact { hs with tags := hs.tags.merge hname options }

theorem sound_plainService (decl : InterfaceDecl) (docs : List String) :
    (plainService package decl docs).Sound b package decl := by
  constructor
  case tags => exact TagOptions.sound_empty _
  all_goals simp [plainService]

theorem buildIn_wellFormed {decl : InterfaceDecl} {s : Service}
    (hservice : b.serviceFlags.Declared) (hmethod : b.methodFlags.Declared)
    (h : b.buildIn package decl = .ok s) : s.WellFormed b package decl := by
  obtain ⟨head, methods, hhead, hmethods, rfl⟩ := parts_of_buildIn h
  obtain ⟨hconvention, entity, htags⟩ := parts_of_buildHead hhead
  have hhead : head.Sound b package decl :=
    foldlM_invariant (fun _ s => s.Sound b package decl)
      (fun _ _ _ _ hs h => sound_of_applyServiceToken hservice.closed hs h)
      (sound_plainService decl _) htags
  obtain ⟨hbuilt, hnodup, _⟩ := parts_of_buildMethods hmethods
  have hwellFormed : List.Forall₂ (Method.WellFormed b decl.name) decl.methods methods :=
    hbuilt.imp fun _ _ hm => wellFormed_of_buildMethod hmethod.closed hm
  have hnames : methods.map (·.name) = decl.methods.map (·.name) :=
    map_eq_of_forall₂ (fun _ _ hm => hm.name) hwellFormed
  exact ⟨{ hhead with }, hhead.name ▸ hconvention, hhead.name ▸ hwellFormed, hnames ▸ hnodup⟩

section Photos

def stamped : TagParser Argument := fun _ payload =>
  .ok (OptionBag.ofList [("zone", payload.getD "UTC")])

def photoBuilder : Builder where
  parsers := { param := [(⟨"stamped"⟩, stamped)] }

def photoInterface : InterfaceDecl where
  name := "PhotoService"
  docs := ["// @generate(http) @http-prefix(/photos)"]
  methods := [{
    name := "Tag"
    docs := ["// @http-path(/\x7bid\x7d) @alias(photo,id)",
      "// @logs-len(tags) @params(at,(stamped(CET)))"]
    params := [⟨"ctx", .selector "context" "Context", []⟩, ⟨"photo", .ident "int64", []⟩,
      ⟨"at", .star (.selector "time" "Time"), []⟩, ⟨"tags", .ellipsis (.ident "string"), []⟩]
    results := [⟨"count", .ident "int", []⟩, ⟨"err", .ident "error", []⟩]
  }]

def photoMethod : Method where
  service := "PhotoService"
  name := "Tag"
  aliasName := "Tag"
  docs := []
  arguments := [
    ⟨"photo", "id", .builtin "int64", .path, false, [], {}⟩,
    ⟨"at", "at", .pointer (.imported (some "time") "Time"), .body, false, [],
      ⟨[("stamped", ⟨[("zone", "CET")]⟩)]⟩⟩,
    ⟨"tags", "tags", .variadic (.builtin "string"), .body, false, [], {}⟩]
  results := [⟨"count", "count", .builtin "int"⟩]
  flags := FlagSet.ofList FlagUniverse.httpFlags
  httpMethod := none
  httpPath := some "/\x7bid\x7d"
  logsIgnore := []
  logsLen := ["tags"]
  tags := {}

def photoService : Service where
  name := "PhotoService"
  aliasName := "PhotoService"
  package := "photos"
  docs := []
  methods := [photoMethod]
  flags := FlagSet.ofList FlagUniverse.httpFlags
  httpPrefix := some "/photos"
  capabilities := []
  tags := {}

theorem buildIn_wellFormed_photos :
    FlagUniverse.service.Declared ∧ FlagUniverse.method.Declared ∧
      photoBuilder.buildIn "photos" photoInterface = .ok photoService ∧
      photoService.WellFormed photoBuilder "photos" photoInterface := by
  have hbuilt : photoBuilder.buildIn "photos" photoInterface = .ok photoService := by
    decide +kernel
  exact ⟨.service, .method, hbuilt, buildIn_wellFormed .service .method hbuilt⟩

end Photos

end Builder

end ServiceLoom

import ServiceLoom.Proofs.Declaration.TypeJson

/-!
# Declarations as JSON

For every record the format says what has to stand under each of its keys. Reading finds a record
just where one is written in the format, and writing is in the format, so what was read can be
written and read again. A single flaw at any depth keeps the whole declaration from being read.
-/

namespace ServiceLoom

open Json

namespace FieldDecl

variable {f : FieldDecl} {v : Json}

structure WrittenIn (f : FieldDecl) (members : List (String × Json)) : Prop where
  name : Optional "name" (Text f.name) (f.name = "") members
  type : Required "type" (f.type.WrittenAs false) members
  docs : Optional "docs" (Items Text f.docs) (f.docs = []) members

def WrittenAs (f : FieldDecl) : Json → Prop := Object f.WrittenIn

def known (byNumber : Bool) : List Known :=
  [{ key := "name", required := false, flawed := NoText },
    { key := "type", required := true, flawed := TypeExpr.Flawed byNumber false },
    { key := "docs", required := false, flawed := FlawedList NoText }]

def Flawed (byNumber : Bool) : Json → Prop := FlawedObject (known byNumber)

theorem ofJson?_eq_some_iff : ofJson? v = some f ↔ f.WrittenAs v := by
  constructor
  · intro h
    obtain ⟨members, hmembers, h⟩ := Option.bind_eq_some_iff.mp h
    obtain ⟨name, hname, h⟩ := Option.bind_eq_some_iff.mp h
    obtain ⟨type, htype, h⟩ := Option.bind_eq_some_iff.mp h
    obtain ⟨docs, hdocs, h⟩ := Option.bind_eq_some_iff.mp h
    obtain rfl := Option.some.inj h
    exact ⟨members, members?_eq_some_iff.mp hmembers,
      (optional?_eq_some_iff fun _ => string?_eq_some_iff).mp hname,
      (required?_eq_some_iff fun _ => TypeExpr.ofJson?_eq_some_iff).mp htype,
      (optional?_list?_eq_some_iff fun _ _ => string?_eq_some_iff).mp hdocs⟩
  · rintro ⟨members, rfl, hname, htype, hdocs⟩
    have hname := (optional?_eq_some_iff fun _ => string?_eq_some_iff).mpr hname
    have htype := (required?_eq_some_iff fun _ => TypeExpr.ofJson?_eq_some_iff).mpr htype
    have hdocs := (optional?_list?_eq_some_iff fun _ _ => string?_eq_some_iff).mpr hdocs
    simp [ofJson?, members?, hname, htype, hdocs]

theorem writtenAs_toJson (f : FieldDecl) : f.WrittenAs f.toJson := by
  refine ⟨_, rfl, Or.inl ?_, ?_, Or.inl ?_⟩
  · exact ⟨_, once_of_nodup (by simp) (by simp), rfl⟩
  · exact ⟨_, once_of_nodup (by simp) (by simp), f.type.writtenAs_toJson false⟩
  · exact ⟨_, once_of_nodup (by simp) (by simp), items_ofStrings f.docs⟩

theorem WrittenAs.not_flawed (h : f.WrittenAs v) : ¬ Flawed true v := by
  obtain ⟨members, rfl, h⟩ := h
  apply not_flawedObject
  simp only [known, List.forall_mem_cons]
  exact ⟨h.name.sound fun _ hname => hname.not_noText, h.type.sound fun _ htype => htype.not_flawed,
    h.docs.sound_items fun _ _ htext => htext.not_noText, List.forall_mem_nil _⟩

end FieldDecl

namespace MethodDecl

variable {m : MethodDecl} {v : Json}

structure WrittenIn (m : MethodDecl) (members : List (String × Json)) : Prop where
  name : Required "name" (Text m.name) members
  docs : Optional "docs" (Items Text m.docs) (m.docs = []) members
  params : Optional "params" (Items FieldDecl.WrittenAs m.params) (m.params = []) members
  results : Optional "results" (Items FieldDecl.WrittenAs m.results) (m.results = []) members

def WrittenAs (m : MethodDecl) : Json → Prop := Object m.WrittenIn

def known (byNumber : Bool) : List Known :=
  [{ key := "name", required := true, flawed := NoText },
    { key := "docs", required := false, flawed := FlawedList NoText },
    { key := "params", required := false, flawed := FlawedList (FieldDecl.Flawed byNumber) },
    { key := "results", required := false, flawed := FlawedList (FieldDecl.Flawed byNumber) }]

def Flawed (byNumber : Bool) : Json → Prop := FlawedObject (known byNumber)

theorem ofJson?_eq_some_iff : ofJson? v = some m ↔ m.WrittenAs v := by
  constructor
  · intro h
    obtain ⟨members, hmembers, h⟩ := Option.bind_eq_some_iff.mp h
    obtain ⟨name, hname, h⟩ := Option.bind_eq_some_iff.mp h
    obtain ⟨docs, hdocs, h⟩ := Option.bind_eq_some_iff.mp h
    obtain ⟨params, hparams, h⟩ := Option.bind_eq_some_iff.mp h
    obtain ⟨results, hresults, h⟩ := Option.bind_eq_some_iff.mp h
    obtain rfl := Option.some.inj h
    exact ⟨members, members?_eq_some_iff.mp hmembers,
      (required?_eq_some_iff fun _ => string?_eq_some_iff).mp hname,
      (optional?_list?_eq_some_iff fun _ _ => string?_eq_some_iff).mp hdocs,
      (optional?_list?_eq_some_iff fun _ _ => FieldDecl.ofJson?_eq_some_iff).mp hparams,
      (optional?_list?_eq_some_iff fun _ _ => FieldDecl.ofJson?_eq_some_iff).mp hresults⟩
  · rintro ⟨members, rfl, hname, hdocs, hparams, hresults⟩
    have hname := (required?_eq_some_iff fun _ => string?_eq_some_iff).mpr hname
    have hdocs := (optional?_list?_eq_some_iff fun _ _ => string?_eq_some_iff).mpr hdocs
    have hparams :=
      (optional?_list?_eq_some_iff fun _ _ => FieldDecl.ofJson?_eq_some_iff).mpr hparams
    have hresults :=
      (optional?_list?_eq_some_iff fun _ _ => FieldDecl.ofJson?_eq_some_iff).mpr hresults
    simp [ofJson?, members?, hname, hdocs, hparams, hresults]

theorem writtenAs_toJson (m : MethodDecl) : m.WrittenAs m.toJson := by
  refine ⟨_, rfl, ?_, Or.inl ?_, Or.inl ?_, Or.inl ?_⟩
  · exact ⟨_, once_of_nodup (by simp) (by simp), rfl⟩
  · exact ⟨_, once_of_nodup (by simp) (by simp), items_ofStrings m.docs⟩
  · exact ⟨_, once_of_nodup (by simp) (by simp), items_map FieldDecl.writtenAs_toJson m.params⟩
  · exact ⟨_, once_of_nodup (by simp) (by simp), items_map FieldDecl.writtenAs_toJson m.results⟩

theorem WrittenAs.not_flawed (h : m.WrittenAs v) : ¬ Flawed true v := by
  obtain ⟨members, rfl, h⟩ := h
  apply not_flawedObject
  simp only [known, List.forall_mem_cons]
  exact ⟨h.name.sound fun _ hname => hname.not_noText,
    h.docs.sound_items fun _ _ htext => htext.not_noText,
    h.params.sound_items fun _ _ hparam => hparam.not_flawed,
    h.results.sound_items fun _ _ hresult => hresult.not_flawed, List.forall_mem_nil _⟩

end MethodDecl

namespace InterfaceDecl

variable {i : InterfaceDecl} {v : Json}

structure WrittenIn (i : InterfaceDecl) (members : List (String × Json)) : Prop where
  name : Required "name" (Text i.name) members
  docs : Optional "docs" (Items Text i.docs) (i.docs = []) members
  embeds : Optional "embeds" (Items Text i.embeds) (i.embeds = []) members
  methods : Optional "methods" (Items MethodDecl.WrittenAs i.methods) (i.methods = []) members

def WrittenAs (i : InterfaceDecl) : Json → Prop := Object i.WrittenIn

def known (byNumber : Bool) : List Known :=
  [{ key := "name", required := true, flawed := NoText },
    { key := "docs", required := false, flawed := FlawedList NoText },
    { key := "embeds", required := false, flawed := FlawedList NoText },
    { key := "methods", required := false, flawed := FlawedList (MethodDecl.Flawed byNumber) }]

def Flawed (byNumber : Bool) : Json → Prop := FlawedObject (known byNumber)

theorem ofJson?_eq_some_iff : ofJson? v = some i ↔ i.WrittenAs v := by
  constructor
  · intro h
    obtain ⟨members, hmembers, h⟩ := Option.bind_eq_some_iff.mp h
    obtain ⟨name, hname, h⟩ := Option.bind_eq_some_iff.mp h
    obtain ⟨docs, hdocs, h⟩ := Option.bind_eq_some_iff.mp h
    obtain ⟨embeds, hembeds, h⟩ := Option.bind_eq_some_iff.mp h
    obtain ⟨methods, hmethods, h⟩ := Option.bind_eq_some_iff.mp h
    obtain rfl := Option.some.inj h
    exact ⟨members, members?_eq_some_iff.mp hmembers,
      (required?_eq_some_iff fun _ => string?_eq_some_iff).mp hname,
      (optional?_list?_eq_some_iff fun _ _ => string?_eq_some_iff).mp hdocs,
      (optional?_list?_eq_some_iff fun _ _ => string?_eq_some_iff).mp hembeds,
      (optional?_list?_eq_some_iff fun _ _ => MethodDecl.ofJson?_eq_some_iff).mp hmethods⟩
  · rintro ⟨members, rfl, hname, hdocs, hembeds, hmethods⟩
    have hname := (required?_eq_some_iff fun _ => string?_eq_some_iff).mpr hname
    have hdocs := (optional?_list?_eq_some_iff fun _ _ => string?_eq_some_iff).mpr hdocs
    have hembeds := (optional?_list?_eq_some_iff fun _ _ => string?_eq_some_iff).mpr hembeds
    have hmethods :=
      (optional?_list?_eq_some_iff fun _ _ => MethodDecl.ofJson?_eq_some_iff).mpr hmethods
    simp [ofJson?, members?, hname, hdocs, hembeds, hmethods]

theorem writtenAs_toJson (i : InterfaceDecl) : i.WrittenAs i.toJson := by
  refine ⟨_, rfl, ?_, Or.inl ?_, Or.inl ?_, Or.inl ?_⟩
  · exact ⟨_, once_of_nodup (by simp) (by simp), rfl⟩
  · exact ⟨_, once_of_nodup (by simp) (by simp), items_ofStrings i.docs⟩
  · exact ⟨_, once_of_nodup (by simp) (by simp), items_ofStrings i.embeds⟩
  · exact ⟨_, once_of_nodup (by simp) (by simp), items_map MethodDecl.writtenAs_toJson i.methods⟩

theorem WrittenAs.not_flawed (h : i.WrittenAs v) : ¬ Flawed true v := by
  obtain ⟨members, rfl, h⟩ := h
  apply not_flawedObject
  simp only [known, List.forall_mem_cons]
  exact ⟨h.name.sound fun _ hname => hname.not_noText,
    h.docs.sound_items fun _ _ htext => htext.not_noText,
    h.embeds.sound_items fun _ _ htext => htext.not_noText,
    h.methods.sound_items fun _ _ hmethod => hmethod.not_flawed,
    List.forall_mem_nil _⟩

end InterfaceDecl

namespace Declaration

variable {d : Declaration} {v : Json}

structure WrittenIn (d : Declaration) (members : List (String × Json)) : Prop where
  package : Required "package" (Text d.package) members
  interfaces :
    Optional "interfaces" (Items InterfaceDecl.WrittenAs d.interfaces) (d.interfaces = []) members

/-- The value is the declaration in the format that is read: members may stand in any order and
among unknown ones, and one that has a default may be missing. -/
def WrittenAs (d : Declaration) : Json → Prop := Object d.WrittenIn

def known (byNumber : Bool) : List Known :=
  [{ key := "package", required := true, flawed := NoText },
    { key := "interfaces", required := false,
      flawed := FlawedList (InterfaceDecl.Flawed byNumber) }]

/-- Somewhere a member is missing that has to be there, or a known one has a wrong value. -/
def Flawed (byNumber : Bool) : Json → Prop := FlawedObject (known byNumber)

theorem ofJson?_eq_some_iff : ofJson? v = some d ↔ d.WrittenAs v := by
  constructor
  · intro h
    obtain ⟨members, hmembers, h⟩ := Option.bind_eq_some_iff.mp h
    obtain ⟨package, hpackage, h⟩ := Option.bind_eq_some_iff.mp h
    obtain ⟨interfaces, hinterfaces, h⟩ := Option.bind_eq_some_iff.mp h
    obtain rfl := Option.some.inj h
    exact ⟨members, members?_eq_some_iff.mp hmembers,
      (required?_eq_some_iff fun _ => string?_eq_some_iff).mp hpackage,
      (optional?_list?_eq_some_iff fun _ _ => InterfaceDecl.ofJson?_eq_some_iff).mp hinterfaces⟩
  · rintro ⟨members, rfl, hpackage, hinterfaces⟩
    have hpackage := (required?_eq_some_iff fun _ => string?_eq_some_iff).mpr hpackage
    have hinterfaces :=
      (optional?_list?_eq_some_iff fun _ _ => InterfaceDecl.ofJson?_eq_some_iff).mpr hinterfaces
    simp [ofJson?, members?, hpackage, hinterfaces]

theorem writtenAs_toJson (d : Declaration) : d.WrittenAs d.toJson := by
  refine ⟨_, rfl, ?_, Or.inl ?_⟩
  · exact ⟨_, once_of_nodup (by simp) (by simp), rfl⟩
  · exact ⟨_, once_of_nodup (by simp) (by simp),
      items_map InterfaceDecl.writtenAs_toJson d.interfaces⟩

theorem WrittenAs.not_flawed (h : d.WrittenAs v) : ¬ Flawed true v := by
  obtain ⟨members, rfl, h⟩ := h
  apply not_flawedObject
  simp only [known, List.forall_mem_cons]
  exact ⟨h.package.sound fun _ hpackage => hpackage.not_noText,
    h.interfaces.sound_items fun _ _ hdecl => hdecl.not_flawed,
    List.forall_mem_nil _⟩

theorem ofJson?_toJson (d : Declaration) : ofJson? d.toJson = some d :=
  ofJson?_eq_some_iff.mpr d.writtenAs_toJson

theorem ofJson?_eq_none_of_flawed (h : Flawed true v) : ofJson? v = none := by
  rw [Option.eq_none_iff_forall_ne_some]
  intro d hd
  exact (ofJson?_eq_some_iff.mp hd).not_flawed h

/-- What is written reads as itself, and so does whatever was read before, in whichever way it was
written; a flawed value is not read. -/
theorem format_exact (d : Declaration) (v : Json) :
    ofJson? d.toJson = some d ∧ (ofJson? v = some d ↔ d.WrittenAs v) ∧
      (ofJson? v).bind (fun read => ofJson? read.toJson) = ofJson? v ∧
      (Flawed true v → ofJson? v = none) := by
  refine ⟨ofJson?_toJson d, ofJson?_eq_some_iff, ?_, ofJson?_eq_none_of_flawed⟩
  cases hread : ofJson? v with
  | none => rfl
  | some read => exact ofJson?_toJson read

section OneParam

/-- A method with one parameter, written without the members that have a default. -/
def oneParam (type : Json) : Json :=
  let param := .object [("type", type), ("name", .string "x")]
  let method := .object [("name", .string "M"), ("line", .int 3), ("params", .array [param])]
  let decl := .object [("methods", .array [method]), ("name", .string "A")]
  .object [("package", .string "p"), ("interfaces", .array [decl])]

def ofParamType (type : TypeExpr) : Declaration where
  package := "p"
  interfaces := [{ name := "A", methods := [{ name := "M", params := [{ name := "x", type }] }] }]

/-- A flaw reaches the declaration from the type of a parameter. -/
theorem flawed_oneParam {byNumber : Bool} {type : Json}
    (h : TypeExpr.Flawed byNumber false type) : Flawed byNumber (oneParam type) := by
  -- the interfaces, the methods of the interface, the parameters of the method, the type
  refine .member (.tail _ (.head _)) (.tail _ (.head _)) (.item (.head _) ?_)
  refine .member (.tail _ (.tail _ (.tail _ (.head _)))) (.head _) (.item (.head _) ?_)
  refine .member (.tail _ (.tail _ (.head _))) (.tail _ (.tail _ (.head _))) (.item (.head _) ?_)
  exact .member (.tail _ (.head _)) (.head _) h

theorem flawed_slice {byNumber nested : Bool} {members : List (String × Json)} {v : Json}
    (hkind : ("kind", .string "slice") ∈ members) (hv : ("elem", v) ∈ members)
    (h : TypeExpr.Flawed byNumber true v) : TypeExpr.Flawed byNumber nested (.object members) :=
  .part ⟨.tail _ (.tail _ (.head _)), _, hkind, Or.inl rfl⟩ (.head _) hv h

def loose : Json :=
  .object [("elem", .object [("kind", .string "struct"), ("size", .null)]),
    ("kind", .string "slice")]

def broken : Json := .object [("kind", .string "slice"), ("elem", .null)]

def numbered : Json :=
  .object [("kind", .string "slice"), ("elem", .object [("kind", .int 0), ("name", .string "T")])]

theorem format_exact_oneParam :
    (ofParamType (.slice .struct)).WrittenAs (oneParam loose) ∧
      ofJson? (ofParamType (.slice .struct)).toJson = some (ofParamType (.slice .struct)) ∧
      Flawed true (oneParam broken) ∧ ofJson? (oneParam broken) = none := by
  have helem : TypeExpr.Flawed true true .null := .mistyped nofun nofun
  have hflawed : Flawed true (oneParam broken) :=
    flawed_oneParam (flawed_slice (.head _) (.tail _ (.head _)) helem)
  obtain ⟨hback, hread, -, -⟩ := format_exact (ofParamType (.slice .struct)) (oneParam loose)
  obtain ⟨-, -, -, hfails⟩ := format_exact (ofParamType (.slice .struct)) (oneParam broken)
  exact ⟨hread.mp rfl, hback, hflawed, hfails hflawed⟩

/-- Inside another type expression a kind that is no text is not always a flaw. -/
theorem ofJson?_numbered :
    Flawed false (oneParam numbered) ∧
      ofJson? (oneParam numbered) = some (ofParamType (.slice (.ident "T"))) := by
  have helem : TypeExpr.Flawed false true
      (.object [("kind", .int 0), ("name", .string "T")]) := by
    refine .unknown (.head _) ?_
    rintro row - (hname | ⟨hnumber, -⟩)
    · cases hname
    · cases hnumber
  exact ⟨flawed_oneParam (flawed_slice (.head _) (.tail _ (.head _)) helem), rfl⟩

end OneParam

end Declaration

end ServiceLoom

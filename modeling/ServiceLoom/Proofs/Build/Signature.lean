import ServiceLoom.Proofs.Build.FieldType
import ServiceLoom.Proofs.Build.Parts
import ServiceLoom.Proofs.Build.Step

/-!
# Arguments and results

Every parameter after the context becomes an argument and every result before the error becomes a
result, in order and under its own name. No type has a variadic part, only the last argument may be
variadic as a whole. What tags do to a field keeps all of this.
-/

namespace ServiceLoom

/-- No part of the type is variadic. -/
def FieldType.isPlain : FieldType → Bool
  | .builtin _ | .imported _ _ | .bytes => true
  | .slice elem | .pointer elem => elem.isPlain
  | .map key value => key.isPlain && value.isPlain
  | .variadic _ => false

/-- A type that is not plain stands last and is variadic outermost only. -/
def VariadicLast (types : List FieldType) : Prop :=
  ∀ before type after, types = before ++ type :: after →
    type.isPlain = true ∨ after = [] ∧ ∃ elem, type = .variadic elem ∧ elem.isPlain = true

def Named (name : String) : Prop := name ≠ "" ∧ name ≠ "_"

structure Argument.WellFormed (custom : List String) (a : Argument) : Prop where
  named : Named a.name
  aliasName : a.aliasName = a.name ∨ Tag.Payload.isName a.aliasName = true
  tags : a.tags.Sound custom

structure Field.WellFormed (r : Field) : Prop where
  named : Named r.name
  aliasName : r.aliasName = r.name ∨ Tag.Payload.isName r.aliasName = true
  plain : r.type.isPlain = true

theorem Argument.Retagged.wellFormed {custom : List String} {a c : Argument}
    (h : a.Retagged custom c) (ha : a.WellFormed custom) : c.WellFormed custom := by
  refine ⟨h.name ▸ ha.named, ?_, h.tags ha.tags⟩
  rcases h.aliasName with hc | hc
  · rw [hc, h.name]
    exact ha.aliasName
  · exact Or.inr hc

theorem Field.Renamed.wellFormed {r q : Field} (h : r.Renamed q) (hr : r.WellFormed) :
    q.WellFormed := by
  refine ⟨h.name ▸ hr.named, ?_, h.type ▸ hr.plain⟩
  rcases h.aliasName with hq | hq
  · rw [hq, h.name]
    exact hr.aliasName
  · exact Or.inr hq

theorem map_eq_of_forall₂ {α β γ : Type} {R : α → γ → Prop} {f : α → β} {g : γ → β}
    (hf : ∀ a c, R a c → g c = f a) {as : List α} {cs : List γ} (h : List.Forall₂ R as cs) :
    cs.map g = as.map f := by
  induction h with
  | nil => rfl
  | cons hac _ ih => rw [List.map_cons, List.map_cons, hf _ _ hac, ih]

theorem forall_mem_of_forall₂ {α : Type} {R : α → α → Prop} {P : α → Prop}
    (hP : ∀ a c, R a c → P a → P c) {as cs : List α} (h : List.Forall₂ R as cs)
    (has : ∀ a ∈ as, P a) : ∀ c ∈ cs, P c := by
  intro c hc
  obtain ⟨a, ha, hac⟩ := exists_mem_of_forall₂ h hc
  exact hP a c hac (has a ha)

/-! ## Types -/

theorem variadicLast_nil : VariadicLast [] := by
  intro before type after h
  cases before <;> cases h

theorem variadicLast_cons {type : FieldType} {types : List FieldType}
    (hfirst : type.isPlain = true ∨
      types = [] ∧ ∃ elem, type = .variadic elem ∧ elem.isPlain = true)
    (hrest : VariadicLast types) : VariadicLast (type :: types) := by
  intro before other after h
  cases before with
  | nil =>
    obtain ⟨rfl, rfl⟩ := List.cons.inj h
    exact hfirst
  | cons first before =>
    exact hrest before other after (List.cons.inj h).2

namespace TypeExpr.ReadAs

variable {allowed : Bool} {e : TypeExpr} {type : FieldType}

theorem isPlain_or_variadic (h : e.ReadAs allowed type) : type.isPlain = true ∨
    allowed = true ∧ ∃ elem, type = .variadic elem ∧ elem.isPlain = true := by
  -- the parts of a type expression are read where nothing variadic is allowed
  have hpart : ∀ {inner : FieldType}, (inner.isPlain = true ∨
      false = true ∧ ∃ elem, inner = .variadic elem ∧ elem.isPlain = true) →
      inner.isPlain = true := fun ih => ih.resolve_right fun h => Bool.false_ne_true h.1
  induction h with
  | builtin | declared | imported | bytes => exact Or.inl rfl
  | slice _ _ ih | pointer _ ih =>
    have hplain := hpart ih
    exact Or.inl hplain
  | variadic _ ih => exact Or.inr ⟨rfl, _, rfl, hpart ih⟩
  | map _ _ ihkey ihvalue =>
    exact Or.inl (by simp [FieldType.isPlain, hpart ihkey, hpart ihvalue])

theorem isPlain (h : e.ReadAs false type) : type.isPlain = true :=
  h.isPlain_or_variadic.resolve_right fun h => Bool.false_ne_true h.1

end TypeExpr.ReadAs

theorem convertType_eq_ok_iff {entity : String} {expr : TypeExpr} {allowed : Bool}
    {type : FieldType} :
    convertType entity expr allowed = .ok type ↔ FieldType.ofExpr allowed expr = .ok type := by
  unfold convertType
  split <;> simp_all

theorem named_of_checkNamed {entity what : String} {position : Nat} {field : FieldDecl} {u : Unit}
    (h : checkNamed entity what position field = .ok u) : Named field.name := by
  unfold checkNamed at h
  split at h
  · cases h
  · rename_i hname
    exact not_or.mp hname

namespace Builder

variable {b : Builder} {entity label : String} {position : Nat}

theorem argument_of_buildArgument {last : Bool} {param : FieldDecl} {a : Argument}
    (h : b.buildArgument label position last param = .ok a) :
    a.name = param.name ∧ a.WellFormed b.parsers.param.names ∧
      FieldType.ofExpr last param.type = .ok a.type := by
  obtain ⟨_, hnamed, h⟩ := bind_eq_ok_iff.mp h
  obtain ⟨type, htype, h⟩ := bind_eq_ok_iff.mp h
  have hretagged := retagged_of_applyParamTokens h
  have hplain : (plainArgument param type (Comment.classify param.docs).docs).WellFormed
      b.parsers.param.names :=
    ⟨named_of_checkNamed hnamed, Or.inl rfl, TagOptions.sound_empty _⟩
  refine ⟨hretagged.name, hretagged.wellFormed hplain, ?_⟩
  rw [hretagged.type]
  exact convertType_eq_ok_iff.mp htype

theorem arguments_of_buildArguments {params : List FieldDecl} {arguments : List Argument}
    (h : b.buildArguments label position params = .ok arguments) :
    arguments.map (·.name) = params.map (·.name) ∧
      (∀ a ∈ arguments, a.WellFormed b.parsers.param.names) ∧
      VariadicLast (arguments.map (·.type)) := by
  induction params generalizing position arguments with
  | nil =>
    obtain rfl := Except.ok.inj h
    exact ⟨rfl, by simp, variadicLast_nil⟩
  | cons param rest ih =>
    obtain ⟨a, ha, h⟩ := bind_eq_ok_iff.mp h
    obtain ⟨as, has, h⟩ := bind_eq_ok_iff.mp h
    obtain rfl := Except.ok.inj h
    obtain ⟨hname, hwellFormed, htype⟩ := argument_of_buildArgument ha
    obtain ⟨hnames, hall, hvariadic⟩ := ih has
    refine ⟨by simp [hname, hnames], List.forall_mem_cons.mpr ⟨hwellFormed, hall⟩,
      variadicLast_cons ?_ hvariadic⟩
    rcases (FieldType.readAs_of_ofExpr htype).isPlain_or_variadic with hplain | ⟨hlast, hvariadic⟩
    · exact Or.inl hplain
    · have hnil := congrArg List.length hnames
      rw [List.isEmpty_iff.mp hlast, List.length_map] at hnil
      exact Or.inr ⟨by simpa using hnil, hvariadic⟩

theorem results_of_buildResults {results : List FieldDecl} {fields : List Field}
    (h : buildResults entity position results = .ok fields) :
    fields.map (·.name) = results.map (·.name) ∧ ∀ r ∈ fields, r.WellFormed := by
  induction results generalizing position fields with
  | nil =>
    obtain rfl := Except.ok.inj h
    exact ⟨rfl, by simp⟩
  | cons result rest ih =>
    obtain ⟨field, hfield, h⟩ := bind_eq_ok_iff.mp h
    obtain ⟨fields, hfields, h⟩ := bind_eq_ok_iff.mp h
    obtain rfl := Except.ok.inj h
    obtain ⟨_, hnamed, hfield⟩ := bind_eq_ok_iff.mp hfield
    obtain ⟨type, htype, hfield⟩ := bind_eq_ok_iff.mp hfield
    obtain rfl := Except.ok.inj hfield
    obtain ⟨hnames, hall⟩ := ih hfields
    have hplain := (FieldType.readAs_of_ofExpr (convertType_eq_ok_iff.mp htype)).isPlain
    refine ⟨by simp [hnames], List.forall_mem_cons.mpr ⟨?_, hall⟩⟩
    exact ⟨named_of_checkNamed hnamed, Or.inl rfl, hplain⟩

theorem params_of_contextRest {params rest : List FieldDecl}
    (h : b.contextRest entity params = .ok rest) :
    ∃ context, params = context :: rest ∧ context.type.text = b.convention.contextType := by
  unfold contextRest at h
  dsimp only at h
  split at h
  · cases h
  · rename_i context others
    split at h
    · rename_i hcontext
      obtain rfl := Except.ok.inj h
      exact ⟨context, rfl, hcontext⟩
    · cases h

theorem results_of_errorRest {results rest : List FieldDecl}
    (h : b.errorRest entity results = .ok rest) :
    ∃ error, results = rest ++ [error] ∧ error.type.text = b.convention.errorType := by
  unfold errorRest at h
  dsimp only at h
  split at h
  · cases h
  · rename_i error herror
    split at h
    · rename_i htext
      obtain rfl := Except.ok.inj h
      exact ⟨error, (List.dropLast_append_getLast? error herror).symm, htext⟩
    · cases h

end Builder

end ServiceLoom

import ServiceLoom.Build.Service
import ServiceLoom.Proofs.Results

/-!
# What a token does

A token on an entity is either a built-in tag of its kind, which is applied, or a custom one, whose
options are merged under a registered name and which changes nothing else. This is one step for all
three kinds of entities; it differs in the tables and in what applying a tag means.
-/

namespace ServiceLoom

namespace Tag

theorem resolveOn_eq_ok_iff {entity token : String} {builtin custom : List String}
    {tag : Resolved} :
    resolveOn entity token builtin custom = .ok tag ↔ resolve token builtin custom = .ok tag := by
  unfold resolveOn
  split <;> simp_all

theorem readOn_eq_ok_iff {α : Type} {entity token : String} {x : Except Fault α} {a : α} :
    readOn entity token x = .ok a ↔ x = .ok a := by
  cases x <;> simp [readOn]

theorem directOn_eq_ok_iff {α : Type} {entity directive : String} {x : Except UnknownFlag α}
    {a : α} : directOn entity directive x = .ok a ↔ x = .ok a := by
  cases x <;> simp [directOn]

theorem mem_names_of_optionsOn {α : Type} {entity token : String} {table : TagTable α}
    {tag : Resolved} {view : α} {options : OptionBag}
    (h : optionsOn entity token table tag view = .ok options) : tag.name ∈ table.names := by
  unfold optionsOn at h
  split at h
  · rename_i parser hparser
    obtain ⟨entry, hentry, _⟩ := Option.map_eq_some_iff.mp hparser
    have hname : entry.1.text = tag.name := by simpa using List.find?_some hentry
    rw [← hname]
    exact List.mem_map_of_mem (List.mem_of_find?_eq_some hentry)
  · cases h

/-- The built-in tag that a token invokes, and its payload. -/
def builtin? {κ : Type} (ofName? : String → Option κ) (builtin custom : List String)
    (token : String) : Option (κ × Option String) :=
  match resolve token builtin custom with
  | .ok ⟨.builtin, name, payload⟩ => (ofName? name).map (·, payload)
  | _ => none

/-- One step, told how to read names of built-in tags, to apply such a tag and to merge options. -/
def step {α κ : Type} (ofName? : String → Option κ) (builtin : List String) (table : TagTable α)
    (apply : Option String → κ → Except Error α) (merge : String → OptionBag → α)
    (entity token : String) (view : α) : Except Error α := do
  let tag ← resolveOn entity token builtin table.names
  match tag.pool with
  | .custom =>
    let options ← optionsOn entity token table tag view
    return merge tag.name options
  | .builtin =>
    match ofName? tag.name with
    | some known => apply tag.payload known
    | none => throw (.unknownTag entity token)

theorem step_of_builtin {α κ : Type} {ofName? : String → Option κ} {builtin : List String}
    {table : TagTable α} {apply : Option String → κ → Except Error α}
    {merge : String → OptionBag → α} {entity token name : String} {view : α}
    {payload : Option String} {known : κ}
    (h : resolve token builtin table.names = .ok ⟨.builtin, name, payload⟩)
    (hname : ofName? name = some known) :
    step ofName? builtin table apply merge entity token view = apply payload known := by
  rw [step, resolveOn_eq_ok_iff.mpr h]
  simp only [bind, Except.bind, hname]

theorem step_cases {α κ : Type} {ofName? : String → Option κ} {builtin : List String}
    {table : TagTable α} {apply : Option String → κ → Except Error α}
    {merge : String → OptionBag → α} {entity token : String} {view after : α}
    (h : step ofName? builtin table apply merge entity token view = .ok after) :
    (∃ tag payload, builtin? ofName? builtin table.names token = some (tag, payload) ∧
      apply payload tag = .ok after) ∨
    (builtin? ofName? builtin table.names token = none ∧
      ∃ name ∈ table.names, ∃ options, after = merge name options) := by
  obtain ⟨⟨pool, name, payload⟩, hresolve, h⟩ := bind_eq_ok_iff.mp h
  rw [resolveOn_eq_ok_iff] at hresolve
  cases pool with
  | custom =>
    obtain ⟨options, hoptions, h⟩ := bind_eq_ok_iff.mp h
    refine Or.inr ⟨by simp [builtin?, hresolve], name, mem_names_of_optionsOn hoptions, options, ?_⟩
    exact (Except.ok.inj h).symm
  | builtin =>
    dsimp only at h
    split at h
    · rename_i tag htag
      exact Or.inl ⟨tag, payload, by simp [builtin?, hresolve, htag], h⟩
    · cases h

end Tag

namespace Builder

def serviceTag? (b : Builder) : String → Option (Tag.ServiceTag × Option String) :=
  Tag.builtin? Tag.ServiceTag.ofName? Tag.ServiceTag.names b.parsers.service.names

def methodTag? (b : Builder) : String → Option (Tag.MethodTag × Option String) :=
  Tag.builtin? Tag.MethodTag.ofName? Tag.MethodTag.names b.parsers.method.names

def paramTag? (b : Builder) : String → Option (Tag.ParamTag × Option String) :=
  Tag.builtin? Tag.ParamTag.ofName? Tag.ParamTag.names b.parsers.param.names

variable {b : Builder} {entity label token : String}

theorem applyServiceToken_eq_step (s : Service) :
    b.applyServiceToken entity s token =
      Tag.step Tag.ServiceTag.ofName? Tag.ServiceTag.names b.parsers.service
        (fun payload => b.applyServiceTag entity token payload s)
        (fun name options => { s with tags := s.tags.merge name options }) entity token s := by
  unfold applyServiceToken Tag.step
  refine bind_congr fun tag => ?_
  cases tag.pool with
  | custom => rfl
  | builtin => cases Tag.ServiceTag.ofName? tag.name <;> rfl

theorem applyServiceToken_cases {s t : Service}
    (h : b.applyServiceToken entity s token = .ok t) :
    (∃ tag payload, b.serviceTag? token = some (tag, payload) ∧
      b.applyServiceTag entity token payload s tag = .ok t) ∨
    (b.serviceTag? token = none ∧ ∃ name ∈ b.parsers.service.names, ∃ options,
      t = { s with tags := s.tags.merge name options }) := by
  rw [applyServiceToken_eq_step] at h
  exact Tag.step_cases h

theorem applyMethodToken_eq_step (m : Method) :
    b.applyMethodToken entity label m token =
      Tag.step Tag.MethodTag.ofName? Tag.MethodTag.names b.parsers.method
        (fun payload => b.applyMethodTag entity label token payload m)
        (fun name options => { m with tags := m.tags.merge name options }) entity token m := by
  unfold applyMethodToken Tag.step
  refine bind_congr fun tag => ?_
  cases tag.pool with
  | custom => rfl
  | builtin => cases Tag.MethodTag.ofName? tag.name <;> rfl

theorem applyMethodToken_cases {m n : Method}
    (h : b.applyMethodToken entity label m token = .ok n) :
    (∃ tag payload, b.methodTag? token = some (tag, payload) ∧
      b.applyMethodTag entity label token payload m tag = .ok n) ∨
    (b.methodTag? token = none ∧ ∃ name ∈ b.parsers.method.names, ∃ options,
      n = { m with tags := m.tags.merge name options }) := by
  rw [applyMethodToken_eq_step] at h
  exact Tag.step_cases h

theorem applyParamToken_eq_step (a : Argument) :
    b.applyParamToken entity a token =
      Tag.step Tag.ParamTag.ofName? Tag.ParamTag.names b.parsers.param
        (fun payload => applyParamTag entity token payload a)
        (fun name options => { a with tags := a.tags.merge name options }) entity token a := by
  unfold applyParamToken Tag.step
  refine bind_congr fun tag => ?_
  cases tag.pool with
  | custom => rfl
  | builtin => cases Tag.ParamTag.ofName? tag.name <;> rfl

theorem applyParamToken_cases {a c : Argument}
    (h : b.applyParamToken entity a token = .ok c) :
    (∃ tag payload, b.paramTag? token = some (tag, payload) ∧
      applyParamTag entity token payload a tag = .ok c) ∨
    (b.paramTag? token = none ∧ ∃ name ∈ b.parsers.param.names, ∃ options,
      c = { a with tags := a.tags.merge name options }) := by
  rw [applyParamToken_eq_step] at h
  exact Tag.step_cases h

end Builder

end ServiceLoom

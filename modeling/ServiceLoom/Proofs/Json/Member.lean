import Mathlib.Data.List.Forall2
import Mathlib.Data.List.Nodup
import ServiceLoom.Json.Member

/-!
# Objects with known members

What a reader of an object asks for is a condition on the members it knows: it sees neither the
order of the members nor the ones under other keys. Whatever it reads meets the condition, so one
flaw of one known member is enough to keep an object from being read.
-/

namespace ServiceLoom.Json

variable {α : Type} {read : Json → Option α} {fits flawed : Json → Prop} {key : String} {a : α}
  {v w : Json} {members : List (String × Json)}

/-! ## Conditions on members -/

/-- The key is written one time, with the value. -/
structure Once (key : String) (v : Json) (members : List (String × Json)) : Prop where
  mem : (key, v) ∈ members
  count : (members.map Prod.fst).count key = 1

def Absent (key : String) (members : List (String × Json)) : Prop := key ∉ members.map Prod.fst

def Required (key : String) (fits : Json → Prop) (members : List (String × Json)) : Prop :=
  ∃ v, Once key v members ∧ fits v

/-- The member may be missing in place of a default. -/
def Optional (key : String) (fits : Json → Prop) (byDefault : Prop)
    (members : List (String × Json)) : Prop :=
  Required key fits members ∨ Absent key members ∧ byDefault

def Object (fits : List (String × Json) → Prop) (v : Json) : Prop :=
  ∃ members, v = object members ∧ fits members

def Text (s : String) (v : Json) : Prop := v = string s

def Items (fits : α → Json → Prop) (as : List α) (v : Json) : Prop :=
  ∃ items, v = array items ∧ List.Forall₂ fits as items

/-! ## What readers ask for -/

theorem mem_valuesAt : v ∈ valuesAt key members ↔ (key, v) ∈ members := by
  simp [valuesAt]

theorem length_valuesAt :
    (valuesAt key members).length = (members.map Prod.fst).count key := by
  rw [valuesAt, List.length_map, ← List.countP_eq_length_filter, List.count, List.countP_map]
  rfl

theorem valuesAt_eq_singleton_iff : valuesAt key members = [v] ↔ Once key v members := by
  constructor
  · intro h
    refine ⟨mem_valuesAt.mp ?_, ?_⟩
    · rw [h]
      exact List.mem_singleton_self v
    · rw [← length_valuesAt, h, List.length_singleton]
  · rintro ⟨hmem, hcount⟩
    obtain ⟨w, hw⟩ := List.length_eq_one_iff.mp (length_valuesAt.trans hcount)
    have hv := mem_valuesAt.mpr hmem
    rw [hw, List.mem_singleton] at hv
    rw [hw, hv]

theorem valuesAt_eq_nil_iff : valuesAt key members = [] ↔ Absent key members := by
  rw [← List.length_eq_zero_iff, length_valuesAt, List.count_eq_zero, Absent]

theorem Once.eq_of_mem (h : Once key v members) (hw : (key, w) ∈ members) : w = v := by
  have hmem := mem_valuesAt.mpr hw
  rwa [valuesAt_eq_singleton_iff.mpr h, List.mem_singleton] at hmem

theorem not_absent_of_mem (h : (key, v) ∈ members) : ¬ Absent key members :=
  fun habsent => habsent (List.mem_map.mpr ⟨_, h, rfl⟩)

theorem Required.not_absent (h : Required key fits members) : ¬ Absent key members := by
  obtain ⟨v, honce, -⟩ := h
  exact not_absent_of_mem honce.mem

theorem Required.of_mem (h : Required key fits members) (hv : (key, v) ∈ members) : fits v := by
  obtain ⟨w, honce, hw⟩ := h
  rwa [honce.eq_of_mem hv]

theorem once_of_nodup (hkeys : (members.map Prod.fst).Nodup) (hmem : (key, v) ∈ members) :
    Once key v members :=
  ⟨hmem, List.count_eq_one_of_mem hkeys (List.mem_map.mpr ⟨_, hmem, rfl⟩)⟩

theorem required?_eq_some_iff (hread : ∀ w, read w = some a ↔ fits w) :
    required? read key members = some a ↔ Required key fits members := by
  constructor
  · intro h
    rw [required?] at h
    split at h
    · next w hw => exact ⟨w, valuesAt_eq_singleton_iff.mp hw, (hread w).mp h⟩
    · cases h
  · rintro ⟨w, honce, hfits⟩
    rw [required?, valuesAt_eq_singleton_iff.mpr honce]
    exact (hread w).mpr hfits

theorem optional?_eq_some_iff {default : α} (hread : ∀ w, read w = some a ↔ fits w) :
    optional? read default key members = some a ↔ Optional key fits (a = default) members := by
  constructor
  · intro h
    rw [optional?] at h
    split at h
    · next hnil => exact Or.inr ⟨valuesAt_eq_nil_iff.mp hnil, (Option.some.inj h).symm⟩
    · next w hw => exact Or.inl ⟨w, valuesAt_eq_singleton_iff.mp hw, (hread w).mp h⟩
    · cases h
  · rintro (⟨w, honce, hfits⟩ | ⟨habsent, rfl⟩)
    · rw [optional?, valuesAt_eq_singleton_iff.mpr honce]
      exact (hread w).mpr hfits
    · rw [optional?, valuesAt_eq_nil_iff.mpr habsent]

theorem string?_eq_some_iff {s : String} : string? v = some s ↔ Text s v := by
  cases v <;> simp [string?, Text]

theorem members?_eq_some_iff : v.members? = some members ↔ v = object members := by
  cases v <;> simp [members?]

section Items

variable {fits : α → Json → Prop} {as : List α} {items : List Json}

theorem mapM_eq_some_iff (hread : ∀ a w, read w = some a ↔ fits a w) :
    items.mapM read = some as ↔ List.Forall₂ fits as items := by
  induction items generalizing as with
  | nil => simp [eq_comm]
  | cons item items ih =>
    rw [List.mapM_cons, List.forall₂_cons_right_iff]
    constructor
    · intro h
      obtain ⟨a, ha, h⟩ := Option.bind_eq_some_iff.mp h
      obtain ⟨rest, hrest, h⟩ := Option.bind_eq_some_iff.mp h
      exact ⟨a, rest, (hread a item).mp ha, ih.mp hrest, (Option.some.inj h).symm⟩
    · rintro ⟨a, rest, ha, hrest, rfl⟩
      rw [(hread a item).mpr ha, ih.mpr hrest]
      rfl

theorem list?_eq_some_iff (hread : ∀ a w, read w = some a ↔ fits a w) :
    list? read v = some as ↔ Items fits as v := by
  cases v with
  | array items => simp [list?, Items, mapM_eq_some_iff hread]
  | _ => simp [list?, Items]

theorem optional?_list?_eq_some_iff (hread : ∀ a w, read w = some a ↔ fits a w) :
    optional? (list? read) [] key members = some as ↔
      Optional key (Items fits as) (as = []) members :=
  optional?_eq_some_iff fun _ => list?_eq_some_iff hread

end Items

/-! ## What is written -/

theorem items_map {fits : α → Json → Prop} {write : α → Json} (h : ∀ a, fits a (write a))
    (as : List α) : Items fits as (array (as.map write)) := by
  refine ⟨_, rfl, ?_⟩
  rw [List.forall₂_map_right_iff]
  exact List.forall₂_same.mpr fun a _ => h a

theorem items_ofStrings (texts : List String) : Items Text texts (ofStrings texts) :=
  items_map (fun s => show Text s (string s) from rfl) texts

/-! ## Flaws -/

def NoText (v : Json) : Prop := ∀ s, v ≠ string s

inductive FlawedList (flawed : Json → Prop) : Json → Prop where
  | mistyped {v : Json} (h : ∀ items, v ≠ array items) : FlawedList flawed v
  | item {items : List Json} {v : Json} (hv : v ∈ items) (h : flawed v) :
    FlawedList flawed (array items)

/-- A member that a reader knows, and what its value must not be. -/
structure Known where
  key : String
  required : Bool
  flawed : Json → Prop

/-- Nothing is said of an array that stands for an object. -/
inductive FlawedObject (known : List Known) : Json → Prop where
  | mistyped {v : Json} (hobject : ∀ members, v ≠ object members)
    (harray : ∀ items, v ≠ array items) : FlawedObject known v
  | missing {k : Known} {members : List (String × Json)} (hk : k ∈ known)
    (hrequired : k.required = true) (h : Absent k.key members) :
    FlawedObject known (object members)
  | member {k : Known} {v : Json} {members : List (String × Json)} (hk : k ∈ known)
    (hv : (k.key, v) ∈ members) (h : k.flawed v) : FlawedObject known (object members)

structure Known.Sound (k : Known) (members : List (String × Json)) : Prop where
  present : k.required = true → ¬ Absent k.key members
  value : ∀ v, (k.key, v) ∈ members → ¬ k.flawed v

theorem not_flawedObject {known : List Known} (h : ∀ k ∈ known, k.Sound members) :
    ¬ FlawedObject known (object members) := by
  intro hflawed
  cases hflawed with
  | mistyped hobject _ => exact hobject members rfl
  | missing hk hrequired habsent => exact (h _ hk).present hrequired habsent
  | member hk hv hvalue => exact (h _ hk).value _ hv hvalue

theorem Required.sound {required : Bool} (h : Required key fits members)
    (hfits : ∀ v, fits v → ¬ flawed v) : (Known.mk key required flawed).Sound members := by
  refine ⟨fun _ => h.not_absent, fun v hv => ?_⟩
  exact hfits v (h.of_mem hv)

theorem Optional.sound {byDefault : Prop} (h : Optional key fits byDefault members)
    (hfits : ∀ v, fits v → ¬ flawed v) : (Known.mk key false flawed).Sound members := by
  rcases h with h | ⟨habsent, -⟩
  · exact h.sound hfits
  · refine ⟨Bool.noConfusion, fun v hv => ?_⟩
    exact absurd habsent (not_absent_of_mem hv)

theorem Text.not_noText {s : String} (h : Text s v) : ¬ NoText v := fun hno => hno s h

theorem Items.not_flawedList {fits : α → Json → Prop} {as : List α} (h : Items fits as v)
    (hfits : ∀ a v, fits a v → ¬ flawed v) : ¬ FlawedList flawed v := by
  obtain ⟨items, rfl, hitems⟩ := h
  have hsound : ∀ w ∈ items, ¬ flawed w := by
    induction hitems with
    | nil => simp
    | cons ha _ ih => exact List.forall_mem_cons.mpr ⟨hfits _ _ ha, ih⟩
  intro hflawed
  cases hflawed with
  | mistyped harray => exact harray items rfl
  | item hv hvalue => exact hsound _ hv hvalue

theorem Optional.sound_items {fits : α → Json → Prop} {as : List α} {byDefault : Prop}
    (h : Optional key (Items fits as) byDefault members) (hfits : ∀ a v, fits a v → ¬ flawed v) :
    (Known.mk key false (FlawedList flawed)).Sound members :=
  h.sound fun _ hitems => hitems.not_flawedList hfits

end ServiceLoom.Json

import Mathlib.Order.BooleanAlgebra.Set
import ServiceLoom.Proofs.Flag.Universe

/-!
# Directives as operations on sets

A directive changes a set in place, one flag after the other. It expands its names before the first
change, so either it fails with the first unknown name and leaves the set alone, or it makes of the
set what its meaning says. The meaning only uses the set of the flags that are named, so neither
their order nor repetitions of them matter.
-/

namespace ServiceLoom

namespace FlagSet

def toSet (s : FlagSet) : Set String := {flag | flag ∈ s}

@[simp] theorem mem_toSet {s : FlagSet} {flag : String} : flag ∈ s.toSet ↔ flag ∈ s := Iff.rfl

theorem toSet_inj {s t : FlagSet} : s.toSet = t.toSet ↔ s = t := by
  constructor
  · intro h
    exact ext fun flag => Set.ext_iff.mp h flag
  · rintro rfl
    rfl

theorem toSet_insertAll (s : FlagSet) (flags : List String) :
    (s.insertAll flags).toSet = s.toSet ∪ {flag | flag ∈ flags} := by
  ext flag
  simp

theorem toSet_eraseAll (s : FlagSet) (flags : List String) :
    (s.eraseAll flags).toSet = s.toSet \ {flag | flag ∈ flags} := by
  ext flag
  simp

theorem toSet_ofList (flags : List String) : (ofList flags).toSet = {flag | flag ∈ flags} := by
  ext flag
  simp

end FlagSet

inductive Directive where
  | all (reference : FlagSet)
  | allBut (enabled : Bool) (names : List String)
  | add (names : List String)
  | remove (names : List String)
  | only (names : List String)

namespace Directive

def names : Directive → List String
  | all _ => []
  | allBut _ names => names
  | add names => names
  | remove names => names
  | only names => names

def withNames (names : List String) : Directive → Directive
  | all reference => all reference
  | allBut enabled _ => allBut enabled names
  | add _ => add names
  | remove _ => remove names
  | only _ => only names

/-- What becomes of a set, if `named` are the flags that the names stand for. -/
def meaning (allowed named target : Set String) : Directive → Set String
  | all reference => target ∪ reference.toSet ∩ allowed
  | allBut true _ => (target ∪ allowed) \ named
  | allBut false _ => (target \ allowed) ∪ named
  | add _ => target ∪ named
  | remove _ => target \ named
  | only _ => named

end Directive

namespace FlagUniverse

/-- The set that a directive makes of its target. -/
def outcome (u : FlagUniverse) (target : FlagSet) : Directive → Except UnknownFlag FlagSet
  | .all reference => .ok (u.inherit target reference)
  | .allBut enabled names => u.allBut enabled names target
  | .add names => u.add names target
  | .remove names => u.remove names target
  | .only names => u.only names

def changeAll (f : FlagSet → String → FlagSet) :
    List String → ExceptT UnknownFlag (StateM FlagSet) Unit
  | [] => pure ()
  | flag :: flags => do
    ExceptT.lift (modify (f · flag))
    changeAll f flags

/-- The directive as changes of its target in place, each of one flag. -/
def perform (u : FlagUniverse) : Directive → ExceptT UnknownFlag (StateM FlagSet) Unit
  | .all reference => changeAll .insert (reference.flags.filter u.allowed.contains)
  | .allBut enabled names => do
    let leaves ← liftM (u.expand names)
    changeAll (·.set enabled ·) u.allowed.flags
    changeAll (·.set (!enabled) ·) leaves
  | .add names => do
    let leaves ← liftM (u.expand names)
    changeAll .insert leaves
  | .remove names => do
    let leaves ← liftM (u.expand names)
    changeAll .erase leaves
  | .only names => do
    let leaves ← liftM (u.expand names)
    ExceptT.lift (set FlagSet.empty)
    changeAll .insert leaves

variable {u : FlagUniverse} {d : Directive} {names : List String}

theorem runOn_changeAll (f : FlagSet → String → FlagSet) (flags : List String) (s : FlagSet) :
    runOn (changeAll f flags) s = (.ok (), flags.foldl f s) := by
  induction flags generalizing s with
  | nil => rfl
  | cons flag flags ih =>
    rw [changeAll, runOn_bind]
    exact ih (f s flag)

theorem foldl_set (enabled : Bool) (flags : List String) (s : FlagSet) :
    flags.foldl (·.set enabled ·) s = if enabled then s.insertAll flags else s.eraseAll flags := by
  cases enabled with
  | true => rfl
  | false => rfl

/-- Changes that begin once all names are expanded do nothing where that fails. -/
theorem runOn_expand_bind {f : List String → ExceptT UnknownFlag (StateM FlagSet) Unit}
    {g : List String → FlagSet} {target : FlagSet}
    (h : ∀ leaves, runOn (f leaves) target = (.ok (), g leaves)) :
    runOn (liftM (u.expand names) >>= f) target = match g <$> u.expand names with
      | .ok t => (.ok (), t)
      | .error e => (.error e, target) := by
  rw [runOn_bind, runOn_liftM]
  cases u.expand names with
  | error e => rfl
  | ok leaves => exact h leaves

/-- In place it comes to the same, and nothing has been changed where it fails. -/
theorem runOn_perform (u : FlagUniverse) (d : Directive) (target : FlagSet) :
    runOn (u.perform d) target = match u.outcome target d with
      | .ok t => (.ok (), t)
      | .error e => (.error e, target) := by
  cases d with
  | all reference => exact runOn_changeAll _ _ _
  | allBut enabled names =>
    refine runOn_expand_bind fun leaves => ?_
    rw [runOn_bind, runOn_changeAll]
    change runOn (changeAll _ leaves) _ = _
    rw [runOn_changeAll, foldl_set, foldl_set]
    cases enabled with
    | true => rfl
    | false => rfl
  | add names => exact runOn_expand_bind fun leaves => runOn_changeAll _ leaves target
  | remove names => exact runOn_expand_bind fun leaves => runOn_changeAll _ leaves target
  | only names => exact runOn_expand_bind fun leaves => runOn_changeAll _ leaves .empty

/-! ## Names -/

/-- Whether a name is a group or a flag, once it is trimmed and in lower case. -/
def knows (u : FlagUniverse) (name : String) : Bool :=
  (u.group? (normalize name)).isSome || u.allowed.contains (normalize name)

theorem expandName_of_not_knows {name : String} (h : u.knows name = false) :
    u.expandName name = .error ⟨u.kind, normalize name⟩ := by
  rw [knows, Bool.or_eq_false_iff] at h
  rw [expandName, Option.isSome_eq_false_iff.mp h.1 |> Option.isNone_iff_eq_none.mp]
  simp [h.2]

theorem exists_expandName_of_knows {name : String} (h : u.knows name = true) :
    ∃ leaves, u.expandName name = .ok leaves := by
  rw [knows, Bool.or_eq_true] at h
  unfold expandName
  cases hgroup : u.group? (normalize name) with
  | some members => exact ⟨members, by simp [hgroup]⟩
  | none =>
    have hallowed : u.allowed.contains (normalize name) = true := by simpa [hgroup] using h
    exact ⟨[normalize name], by simp [hgroup, hallowed]⟩

def unknown? (u : FlagUniverse) (names : List String) : Option String :=
  names.find? (!u.knows ·)

theorem expand_of_unknown {name : String} (h : u.unknown? names = some name) :
    u.expand names = .error ⟨u.kind, normalize name⟩ := by
  induction names with
  | nil => cases h
  | cons first names ih =>
    rw [unknown?, List.find?_cons] at h
    cases hknows : u.knows first with
    | false =>
      simp only [hknows, Bool.not_false] at h
      obtain rfl := Option.some.inj h
      rw [expand, expandName_of_not_knows hknows]
      rfl
    | true =>
      simp only [hknows, Bool.not_true] at h
      obtain ⟨leaves, hleaves⟩ := exists_expandName_of_knows hknows
      rw [expand, hleaves, ih h]
      rfl

theorem exists_expand_of_known (h : u.unknown? names = none) :
    ∃ leaves, u.expand names = .ok leaves := by
  induction names with
  | nil => exact ⟨[], rfl⟩
  | cons first names ih =>
    rw [unknown?, List.find?_cons] at h
    cases hknows : u.knows first with
    | false => simp [hknows] at h
    | true =>
      simp only [hknows, Bool.not_true] at h
      obtain ⟨leaves, hleaves⟩ := exists_expandName_of_knows hknows
      obtain ⟨rest, hrest⟩ := ih h
      exact ⟨leaves ++ rest, expand_cons_eq_ok_iff.mpr ⟨leaves, rest, hleaves, hrest, rfl⟩⟩

theorem unknown?_eq_none_of_mem_iff {others : List String}
    (h : ∀ name, name ∈ others ↔ name ∈ names) (hnames : u.unknown? names = none) :
    u.unknown? others = none := by
  rw [unknown?, List.find?_eq_none] at hnames ⊢
  intro name hname
  exact hnames name ((h name).mp hname)

/-! ## Outcomes -/

theorem outcome_of_error {e : UnknownFlag} (target : FlagSet) (h : u.expand d.names = .error e) :
    u.outcome target d = .error e := by
  cases d with
  | all reference => cases h
  | allBut enabled names => exact bind_eq_error_iff.mpr (Or.inl h)
  | add names => exact bind_eq_error_iff.mpr (Or.inl h)
  | remove names => exact bind_eq_error_iff.mpr (Or.inl h)
  | only names => exact bind_eq_error_iff.mpr (Or.inl h)

theorem outcome_of_leaves {leaves : List String} (target : FlagSet)
    (h : u.expand d.names = .ok leaves) :
    ∃ t, u.outcome target d = .ok t ∧
      t.toSet = d.meaning u.allowed.toSet {flag | flag ∈ leaves} target.toSet := by
  have hallowed : {flag | flag ∈ u.allowed.flags} = u.allowed.toSet := rfl
  cases d with
  | all reference =>
    refine ⟨_, rfl, ?_⟩
    ext flag
    simp [inherit, Directive.meaning, List.mem_filter, ← FlagSet.mem_def]
  | allBut enabled names =>
    refine ⟨_, bind_eq_ok_iff.mpr ⟨leaves, h, rfl⟩, ?_⟩
    cases enabled with
    | true =>
      change ((target.insertAll u.allowed.flags).eraseAll leaves).toSet = _
      rw [FlagSet.toSet_eraseAll, FlagSet.toSet_insertAll, hallowed]
      rfl
    | false =>
      change ((target.eraseAll u.allowed.flags).insertAll leaves).toSet = _
      rw [FlagSet.toSet_insertAll, FlagSet.toSet_eraseAll, hallowed]
      rfl
  | add names => exact ⟨_, bind_eq_ok_iff.mpr ⟨leaves, h, rfl⟩, FlagSet.toSet_insertAll _ _⟩
  | remove names => exact ⟨_, bind_eq_ok_iff.mpr ⟨leaves, h, rfl⟩, FlagSet.toSet_eraseAll _ _⟩
  | only names => exact ⟨_, bind_eq_ok_iff.mpr ⟨leaves, h, rfl⟩, FlagSet.toSet_ofList _⟩

theorem meaning_subset {allowed named target : Set String} (hnamed : named ⊆ allowed)
    (htarget : target ⊆ allowed) : d.meaning allowed named target ⊆ allowed := by
  cases d with
  | all reference => exact Set.union_subset htarget Set.inter_subset_right
  | allBut enabled names =>
    cases enabled with
    | true => exact Set.Subset.trans Set.sdiff_subset (Set.union_subset htarget Set.Subset.rfl)
    | false => exact Set.union_subset (Set.Subset.trans Set.sdiff_subset htarget) hnamed
  | add names => exact Set.union_subset htarget hnamed
  | remove names => exact Set.Subset.trans Set.sdiff_subset htarget
  | only names => exact hnamed

theorem covers_eq_of_mem_iff {others : List String} (h : ∀ name, name ∈ others ↔ name ∈ names)
    (flag : String) : u.covers others flag = u.covers names flag := by
  rw [Bool.eq_iff_iff, covers, covers, List.any_eq_true, List.any_eq_true]
  simp only [h]

theorem Directive.mem_names_withNames {others : List String}
    (h : ∀ name, name ∈ others ↔ name ∈ d.names) (name : String) :
    name ∈ (d.withNames others).names ↔ name ∈ d.names := by
  cases d with
  | all reference => exact Iff.rfl
  | _ => exact h name

theorem Directive.meaning_withNames (others : List String) (allowed named target : Set String) :
    (d.withNames others).meaning allowed named target = d.meaning allowed named target := by
  cases d with
  | allBut enabled names =>
    cases enabled with
    | true => rfl
    | false => rfl
  | _ => rfl

/-- The names count as a set only. -/
theorem outcome_withNames {others : List String} {target t : FlagSet}
    (hothers : ∀ name, name ∈ others ↔ name ∈ d.names) (hknown : u.unknown? d.names = none)
    (h : u.outcome target d = .ok t) : u.outcome target (d.withNames others) = .ok t := by
  have hnames := Directive.mem_names_withNames hothers
  obtain ⟨leaves, hleaves⟩ := exists_expand_of_known hknown
  obtain ⟨leaves', hleaves'⟩ := exists_expand_of_known (unknown?_eq_none_of_mem_iff hnames hknown)
  obtain ⟨t₁, ht₁, hset₁⟩ := outcome_of_leaves target hleaves
  obtain ⟨t₂, ht₂, hset₂⟩ := outcome_of_leaves target hleaves'
  obtain rfl : t = t₁ := Except.ok.inj (h.symm.trans ht₁)
  have hsame : {flag | flag ∈ leaves'} = {flag | flag ∈ leaves} := by
    ext flag
    rw [Set.mem_ofPred_eq, Set.mem_ofPred_eq, mem_of_expand hleaves, mem_of_expand hleaves',
      covers_eq_of_mem_iff hnames]
  have heq : t₂ = t := by
    rw [← FlagSet.toSet_inj, hset₂, hset₁, hsame, Directive.meaning_withNames]
  rw [ht₂, heq]

/-- All that can be said about a directive that makes `t` of its target. -/
structure Computes (u : FlagUniverse) (d : Directive) (target : FlagSet) (named : Set String)
    (t : FlagSet) : Prop where
  inside : named ⊆ u.allowed.toSet
  outcome_eq : u.outcome target d = .ok t
  inPlace : runOn (u.perform d) target = (.ok (), t)
  toSet_eq : t.toSet = d.meaning u.allowed.toSet named target.toSet
  stays : target.toSet ⊆ u.allowed.toSet → t.toSet ⊆ u.allowed.toSet
  /-- Only the set of the names counts. -/
  unordered : ∀ names, (∀ name, name ∈ names ↔ name ∈ d.names) →
    u.outcome target (d.withNames names) = .ok t

theorem Closed.computes (hu : u.Closed) (d : Directive) {leaves : List String} (target : FlagSet)
    (hknown : u.unknown? d.names = none) (hleaves : u.expand d.names = .ok leaves) :
    ∃ t, u.Computes d target {flag | flag ∈ leaves} t := by
  obtain ⟨t, ht, hset⟩ := outcome_of_leaves target hleaves
  have hinside : {flag | flag ∈ leaves} ⊆ u.allowed.toSet :=
    fun _ hflag => hu.mem_allowed_of_expand hleaves hflag
  refine ⟨t, hinside, ht, ?_, hset, ?_, ?_⟩
  · rw [runOn_perform, ht]
  · intro htarget
    rw [hset]
    exact meaning_subset hinside htarget
  · intro names hnames
    exact outcome_withNames hnames hknown ht

/-- A directive fails with the first unknown name and changes nothing, or it computes its meaning;
what is named and all but what is named divide the universe. -/
theorem Declared.directive_computes (hu : u.Declared) (d : Directive) (target : FlagSet) :
    (∀ name, u.unknown? d.names = some name →
      u.expand d.names = .error ⟨u.kind, normalize name⟩ ∧
      u.outcome target d = .error ⟨u.kind, normalize name⟩ ∧
      runOn (u.perform d) target = (.error ⟨u.kind, normalize name⟩, target)) ∧
    (u.unknown? d.names = none → ∃ leaves t, u.expand d.names = .ok leaves ∧
      (∀ flag, flag ∈ leaves ↔ u.covers d.names flag = true) ∧
      u.Computes d target {flag | flag ∈ leaves} t) ∧
    ∀ names start, u.unknown? names = none → target.toSet ⊆ u.allowed.toSet →
      ∃ kept rest, u.outcome start (.only names) = .ok kept ∧
        u.outcome target (.allBut true names) = .ok rest ∧
        kept.toSet ∪ rest.toSet = u.allowed.toSet ∧ kept.toSet ∩ rest.toSet = ∅ := by
  refine ⟨?_, ?_, ?_⟩
  · intro name hname
    have hexpand := expand_of_unknown hname
    have houtcome := outcome_of_error target hexpand
    refine ⟨hexpand, houtcome, ?_⟩
    rw [runOn_perform, houtcome]
  · intro hknown
    obtain ⟨leaves, hleaves⟩ := exists_expand_of_known hknown
    obtain ⟨t, ht⟩ := hu.closed.computes d target hknown hleaves
    exact ⟨leaves, t, hleaves, fun flag => mem_of_expand hleaves, ht⟩
  · intro names start hknown htarget
    obtain ⟨leaves, hleaves⟩ := exists_expand_of_known hknown
    obtain ⟨kept, hkept⟩ := hu.closed.computes (.only names) start hknown hleaves
    obtain ⟨rest, hrest⟩ := hu.closed.computes (.allBut true names) target hknown hleaves
    have hkeptSet : kept.toSet = {flag | flag ∈ leaves} := hkept.toSet_eq
    have hrestSet : rest.toSet = u.allowed.toSet \ {flag | flag ∈ leaves} := by
      rw [hrest.toSet_eq, Directive.meaning, Set.union_eq_self_of_subset_left htarget]
    refine ⟨kept, rest, hkept.outcome_eq, hrest.outcome_eq, ?_, ?_⟩
    · rw [hkeptSet, hrestSet, Set.union_sdiff_cancel hkept.inside]
    · rw [hkeptSet, hrestSet, Set.inter_sdiff_self]

theorem directive_computes_http :
    service.Declared ∧
      service.unknown? ["HTTP ", " Nope", "none"] = some " Nope" ∧
      runOn (service.perform (.only ["HTTP ", " Nope", "none"])) (.ofList ["logging"]) =
        (.error ⟨.service, "nope"⟩, .ofList ["logging"]) ∧
      service.unknown? ["HTTP ", "main", "http"] = none ∧
      ∃ t, runOn (service.perform (.allBut false ["HTTP ", "main", "http"]))
          (.ofList ["logging", "other"]) = (.ok (), t) ∧
        ∀ flag, flag ∈ t ↔ flag = "other" ∨ flag ∈ "main" :: httpFlags := by
  have hunknown : service.unknown? ["HTTP ", " Nope", "none"] = some " Nope" := by decide
  have hnope : normalize " Nope" = "nope" := by decide
  have hknown : service.unknown? ["HTTP ", "main", "http"] = none := by decide
  have hfails := (Declared.directive_computes .service (.only ["HTTP ", " Nope", "none"])
    (.ofList ["logging"])).1 " Nope" hunknown
  rw [hnope] at hfails
  have hexpand : service.expand ["HTTP ", "main", "http"] =
      .ok (httpFlags ++ ["main"] ++ httpFlags) := by rfl
  have hother : "other" ∉ service.allowed := by decide
  have hlogging : "logging" ∈ service.allowed := by decide
  obtain ⟨leaves, t, hleaves, -, hcomputes⟩ := (Declared.directive_computes .service
    (.allBut false ["HTTP ", "main", "http"]) (.ofList ["logging", "other"])).2.1 hknown
  refine ⟨.service, hunknown, hfails.2.2, hknown, t, hcomputes.inPlace, fun flag => ?_⟩
  obtain rfl := Except.ok.inj (hexpand.symm.trans hleaves)
  rw [← FlagSet.mem_toSet, hcomputes.toSet_eq, Directive.meaning]
  simp only [Set.mem_union, Set.mem_sdiff, FlagSet.mem_toSet, FlagSet.mem_ofList, Set.mem_ofPred_eq,
    List.mem_append, List.mem_cons, List.not_mem_nil, or_false]
  constructor
  · rintro (⟨rfl | rfl, hnot⟩ | (hhttp | rfl) | hhttp)
    · exact absurd hlogging hnot
    · exact Or.inl rfl
    · exact Or.inr (Or.inr hhttp)
    · exact Or.inr (Or.inl rfl)
    · exact Or.inr (Or.inr hhttp)
  · rintro (rfl | rfl | hhttp)
    · exact Or.inl ⟨Or.inr rfl, hother⟩
    · exact Or.inr (Or.inl (Or.inr rfl))
    · exact Or.inr (Or.inr hhttp)

end FlagUniverse

end ServiceLoom

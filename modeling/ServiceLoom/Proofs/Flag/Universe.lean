import ServiceLoom.Flag.Universe
import ServiceLoom.Proofs.Lookup
import ServiceLoom.Proofs.Results

/-!
# What directives do to a set

A name covers the members of the group it names, or the flag it names. The groups of a declared
universe list flags only, so a directive never leads out of the universe, and for each flag of the
universe it either decides alone or leaves the flag as it was.
-/

namespace ServiceLoom.FlagUniverse

/-- One of the two standard universes, or one that passed the checks of its groups. -/
inductive Declared : FlagUniverse → Prop
  | service : Declared service
  | method : Declared method
  | made {kind : EntityKind} {flags : List String} {groups : List (String × List String)}
    {u : FlagUniverse} (h : make kind flags groups = .ok u) : Declared u

def Closed (u : FlagUniverse) : Prop :=
  ∀ group ∈ u.groups, ∀ flag ∈ group.2, flag ∈ u.allowed

instance (u : FlagUniverse) : Decidable (Closed u) :=
  inferInstanceAs (Decidable (∀ group ∈ u.groups, ∀ flag ∈ group.2, flag ∈ u.allowed))

variable {u : FlagUniverse} {names leaves : List String} {flag : String} {s t : FlagSet}

theorem addGroup_eq_ok_iff {v : FlagUniverse} {name : String} {members : List String} :
    u.addGroup name members = .ok v ↔ name ∉ u.allowed ∧ name ∉ u.groups.map Prod.fst ∧
      (∀ member ∈ members, member ∈ u.allowed) ∧
      v = { u with groups := u.groups ++ [(name, members)] } := by
  have htwice : (u.group? name).isSome = true ↔ name ∈ u.groups.map Prod.fst := by
    rw [← not_iff_not, Bool.not_eq_true, Option.isSome_eq_false_iff, Option.isNone_iff_eq_none]
    exact lookup_eq_none_iff_not_mem
  have hmembers : u.allowed.contains name = true ↔ name ∈ u.allowed := FlagSet.contains_iff
  unfold addGroup
  dsimp only
  split
  · rename_i hflag
    exact iff_of_false (by simp) fun h => h.1 (hmembers.mp hflag)
  · rename_i hflag
    split
    · rename_i hgroup
      exact iff_of_false (by simp) fun h => h.2.1 (htwice.mp hgroup)
    · rename_i hgroup
      split
      · rename_i member hfind
        refine iff_of_false (by simp) fun h => ?_
        have hknown := FlagSet.contains_iff.mpr (h.2.2.1 member (List.mem_of_find?_eq_some hfind))
        simpa only [hknown, Bool.not_true, Bool.false_eq_true] using List.find?_some hfind
      · rename_i hfind
        have hall : ∀ member ∈ members, member ∈ u.allowed := by
          simpa using List.find?_eq_none.mp hfind
        rw [Except.ok.injEq]
        constructor
        · rintro rfl
          exact ⟨mt hmembers.mpr hflag, mt htwice.mpr hgroup, hall, rfl⟩
        · rintro ⟨_, _, _, rfl⟩
          rfl

theorem Closed.addGroup {v : FlagUniverse} (hu : u.Closed) {name : String} {members : List String}
    (h : u.addGroup name members = .ok v) : v.Closed := by
  obtain ⟨_, _, hmembers, rfl⟩ := addGroup_eq_ok_iff.mp h
  intro group hgroup
  rcases List.mem_append.mp hgroup with hgroup | hgroup
  · exact hu group hgroup
  · obtain rfl := List.mem_singleton.mp hgroup
    exact hmembers

theorem Declared.closed (h : u.Declared) : u.Closed := by
  cases h with
  | service => decide
  | method => decide
  | made h =>
    refine foldlM_invariant (fun _ v => v.Closed) ?_ ?_ h
    · intro _ group v w hv hw
      exact hv.addGroup hw
    · intro group hgroup
      cases hgroup

/-! ## Names -/

/-- Whether a flag is among those that the name stands for. -/
def stands (u : FlagUniverse) (name flag : String) : Bool :=
  match u.group? (normalize name) with
  | some members => members.contains flag
  | none => flag == normalize name

def covers (u : FlagUniverse) (names : List String) (flag : String) : Bool :=
  names.any (u.stands · flag)

theorem mem_of_expandName {name : String} (h : u.expandName name = .ok leaves) :
    flag ∈ leaves ↔ u.stands name flag = true := by
  unfold expandName at h
  unfold stands
  cases hgroup : u.group? (normalize name) with
  | some members =>
    simp only [hgroup] at h ⊢
    obtain rfl := Except.ok.inj h
    exact List.contains_iff_mem.symm
  | none =>
    simp only [hgroup] at h ⊢
    split at h
    · obtain rfl := Except.ok.inj h
      rw [List.mem_singleton]
      exact beq_iff_eq.symm
    · cases h

theorem Closed.mem_allowed_of_expandName (hu : u.Closed) {name : String}
    (h : u.expandName name = .ok leaves) (hflag : flag ∈ leaves) : flag ∈ u.allowed := by
  unfold expandName at h
  dsimp only at h
  split at h
  · rename_i members hgroup
    obtain rfl := Except.ok.inj h
    obtain ⟨before, after, hgroups, _⟩ := List.lookup_eq_some_iff.mp hgroup
    exact hu (normalize name, members) (by rw [hgroups]; simp) flag hflag
  · split at h
    · rename_i hallowed
      obtain rfl := Except.ok.inj h
      obtain rfl := List.mem_singleton.mp hflag
      exact FlagSet.contains_iff.mp hallowed
    · cases h

theorem expand_cons_eq_ok_iff {name : String} : u.expand (name :: names) = .ok leaves ↔
    ∃ first rest, u.expandName name = .ok first ∧ u.expand names = .ok rest ∧
      leaves = first ++ rest := by
  rw [expand, bind_eq_ok_iff]
  constructor
  · rintro ⟨first, hfirst, h⟩
    obtain ⟨rest, hrest, h⟩ := bind_eq_ok_iff.mp h
    exact ⟨first, rest, hfirst, hrest, (Except.ok.inj h).symm⟩
  · rintro ⟨first, rest, hfirst, hrest, rfl⟩
    exact ⟨first, hfirst, bind_eq_ok_iff.mpr ⟨rest, hrest, rfl⟩⟩

theorem mem_of_expand (h : u.expand names = .ok leaves) :
    flag ∈ leaves ↔ u.covers names flag = true := by
  induction names generalizing leaves with
  | nil =>
    obtain rfl := Except.ok.inj h
    simp [covers]
  | cons name names ih =>
    obtain ⟨first, rest, hfirst, hrest, rfl⟩ := expand_cons_eq_ok_iff.mp h
    rw [covers, List.any_cons, Bool.or_eq_true, List.mem_append]
    exact or_congr (mem_of_expandName hfirst) (ih hrest)

theorem Closed.mem_allowed_of_expand (hu : u.Closed) (h : u.expand names = .ok leaves)
    (hflag : flag ∈ leaves) : flag ∈ u.allowed := by
  induction names generalizing leaves with
  | nil =>
    obtain rfl := Except.ok.inj h
    cases hflag
  | cons name names ih =>
    obtain ⟨first, rest, hfirst, hrest, rfl⟩ := expand_cons_eq_ok_iff.mp h
    rcases List.mem_append.mp hflag with hflag | hflag
    · exact hu.mem_allowed_of_expandName hfirst hflag
    · exact ih hrest hflag

/-! ## Directives -/

/-- A set after a directive: flags of the universe that it switched on, or left on. -/
def Follows (u : FlagUniverse) (decision : String → Option Bool) (s t : FlagSet) : Prop :=
  ∀ flag, flag ∈ t ↔
    flag ∈ u.allowed ∧ (decision flag = some true ∨ decision flag = none ∧ flag ∈ s)

theorem follows_none (hs : ∀ flag ∈ s, flag ∈ u.allowed) : u.Follows (fun _ => none) s s := by
  intro flag
  simpa using hs flag

theorem Closed.only (hu : u.Closed) (h : u.only names = .ok t) :
    u.Follows (fun flag => some (u.covers names flag)) s t := by
  obtain ⟨leaves, hleaves, h⟩ := bind_eq_ok_iff.mp h
  obtain rfl := Except.ok.inj h
  intro flag
  have hallowed : flag ∈ leaves → flag ∈ u.allowed := hu.mem_allowed_of_expand hleaves
  rw [FlagSet.mem_ofList, Option.some.injEq, ← mem_of_expand hleaves]
  constructor
  · exact fun hflag => ⟨hallowed hflag, Or.inl hflag⟩
  · rintro ⟨_, hflag | ⟨hnone, _⟩⟩
    · exact hflag
    · cases hnone

theorem Closed.add (hu : u.Closed) (hs : ∀ flag ∈ s, flag ∈ u.allowed)
    (h : u.add names s = .ok t) :
    u.Follows (fun flag => if u.covers names flag then some true else none) s t := by
  obtain ⟨leaves, hleaves, h⟩ := bind_eq_ok_iff.mp h
  obtain rfl := Except.ok.inj h
  intro flag
  have hcovers : flag ∈ leaves ↔ u.covers names flag = true := mem_of_expand hleaves
  rw [FlagSet.mem_insertAll]
  by_cases hflag : flag ∈ leaves
  · have hallowed := hu.mem_allowed_of_expand hleaves hflag
    simp [hflag, hcovers.mp hflag, hallowed]
  · simp only [hflag, mt hcovers.mpr hflag]
    simpa using hs flag

theorem remove_follows (hs : ∀ flag ∈ s, flag ∈ u.allowed) (h : u.remove names s = .ok t) :
    u.Follows (fun flag => if u.covers names flag then some false else none) s t := by
  obtain ⟨leaves, hleaves, h⟩ := bind_eq_ok_iff.mp h
  obtain rfl := Except.ok.inj h
  intro flag
  have hcovers : flag ∈ leaves ↔ u.covers names flag = true := mem_of_expand hleaves
  rw [FlagSet.mem_eraseAll]
  by_cases hflag : flag ∈ leaves
  · simp [hflag, hcovers.mp hflag]
  · simp only [hflag, mt hcovers.mpr hflag]
    simpa using hs flag

/-- Nothing is left of a set inside the universe, so all earlier directives are forgotten. -/
theorem Closed.allBut (hu : u.Closed) {enabled : Bool} (hs : ∀ flag ∈ s, flag ∈ u.allowed)
    (h : u.allBut enabled names s = .ok t) :
    u.Follows (fun flag => some (u.covers names flag != enabled)) s t := by
  obtain ⟨leaves, hleaves, h⟩ := bind_eq_ok_iff.mp h
  obtain rfl := Except.ok.inj h
  intro flag
  have hcovers : flag ∈ leaves ↔ u.covers names flag = true := mem_of_expand hleaves
  have hallowed : flag ∈ leaves → flag ∈ u.allowed := hu.mem_allowed_of_expand hleaves
  have hmem : flag ∈ u.allowed.flags ↔ flag ∈ u.allowed := Iff.rfl
  cases enabled with
  | true =>
    have hin : flag ∈ s ∨ flag ∈ u.allowed.flags ↔ flag ∈ u.allowed := by
      rw [hmem]
      exact or_iff_right_of_imp (hs flag)
    rw [if_pos rfl, FlagSet.mem_eraseAll, FlagSet.mem_insertAll, hin, hcovers]
    simp
  | false =>
    have hout : ¬ (flag ∈ s ∧ flag ∉ u.allowed.flags) := fun h => h.2 (hs flag h.1)
    rw [if_neg Bool.false_ne_true, FlagSet.mem_insertAll, FlagSet.mem_eraseAll, or_iff_right hout]
    constructor
    · intro hflag
      simpa [hcovers.mp hflag] using hallowed hflag
    · rintro ⟨_, hdecides | ⟨hnone, _⟩⟩
      · simpa [← hcovers] using hdecides
      · cases hnone

@[simp] theorem mem_inherit_empty {reference : FlagSet} :
    flag ∈ u.inherit FlagSet.empty reference ↔ flag ∈ u.allowed ∧ flag ∈ reference := by
  rw [inherit, FlagSet.mem_insertAll, List.mem_filter, FlagSet.contains_iff,
    or_iff_right FlagSet.not_mem_empty, and_comm, FlagSet.mem_def (s := reference)]

end ServiceLoom.FlagUniverse

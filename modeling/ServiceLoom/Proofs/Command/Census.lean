import ServiceLoom.Command.Generate
import ServiceLoom.Command.Inspect
import ServiceLoom.Proofs.Build.Parts

/-!
# Accepted and rejected interfaces

A builder decides about every interface by itself. So the services of a declaration are those of the
interfaces that are accepted, and it makes no difference to them whether the others are there. To
build all interfaces or to stop at the first that is rejected are two ways to look at these
decisions.
-/

namespace ServiceLoom

namespace Declaration

def models (b : Builder) (d : Declaration) : List Service :=
  d.interfaces.filterMap fun i => (b.buildIn d.package i).toOption

def refusal? (b : Builder) (package : String) (i : InterfaceDecl) : Option Generate.Rejection :=
  match b.buildIn package i with
  | .ok _ => none
  | .error e => some ⟨i.name, e⟩

def refusals (b : Builder) (d : Declaration) : List Generate.Rejection :=
  d.interfaces.filterMap (refusal? b d.package)

def Accepts (b : Builder) (package : String) (i : InterfaceDecl) : Prop :=
  ∃ s, b.buildIn package i = .ok s

instance (b : Builder) (package : String) : DecidablePred (Accepts b package) := fun i =>
  match h : b.buildIn package i with
  | .ok s => isTrue ⟨s, h⟩
  | .error _ => isFalse fun ⟨_, hs⟩ => by rw [h] at hs; cases hs

/-- The declaration without the interfaces that are rejected. -/
def accepted (b : Builder) (d : Declaration) : Declaration :=
  { d with interfaces := d.interfaces.filter (Accepts b d.package) }

variable {b : Builder} {d : Declaration} {package : String} {i : InterfaceDecl}

theorem refusal?_of_ok {s : Service} (h : b.buildIn package i = .ok s) :
    refusal? b package i = none := by
  rw [refusal?, h]

theorem refusal?_of_error {e : Error} (h : b.buildIn package i = .error e) :
    refusal? b package i = some ⟨i.name, e⟩ := by
  rw [refusal?, h]

theorem accepts_cases (b : Builder) (package : String) (i : InterfaceDecl) :
    (∃ s, b.buildIn package i = .ok s ∧ s.name = i.name ∧ Accepts b package i) ∨
      ∃ e, b.buildIn package i = .error e ∧ ¬ Accepts b package i := by
  cases hbuilt : b.buildIn package i with
  | ok s => exact Or.inl ⟨s, rfl, Builder.name_of_buildIn hbuilt, s, hbuilt⟩
  | error e =>
    refine Or.inr ⟨e, rfl, ?_⟩
    rintro ⟨s, hs⟩
    rw [hbuilt] at hs
    cases hs

theorem names_models : (d.models b).map (·.name) = (d.accepted b).interfaces.map (·.name) := by
  unfold models accepted
  induction d.interfaces with
  | nil => rfl
  | cons i interfaces ih =>
    rcases accepts_cases b d.package i with ⟨s, hbuilt, hname, ha⟩ | ⟨e, hbuilt, ha⟩
    · simpa [hbuilt, hname, ha, Except.toOption] using ih
    · simpa [hbuilt, ha, Except.toOption] using ih

theorem interfaces_refusals :
    (d.refusals b).map (·.interface) =
      (d.interfaces.filter (¬ Accepts b d.package ·)).map (·.name) := by
  unfold refusals
  induction d.interfaces with
  | nil => rfl
  | cons i interfaces ih =>
    rcases accepts_cases b d.package i with ⟨s, hbuilt, -, ha⟩ | ⟨e, hbuilt, ha⟩
    · simpa [refusal?_of_ok hbuilt, ha] using ih
    · simpa [refusal?_of_error hbuilt, ha] using ih

theorem perm_names : ((d.models b).map (·.name) ++ (d.refusals b).map (·.interface)).Perm
    (d.interfaces.map (·.name)) := by
  rw [names_models, interfaces_refusals, ← List.map_append, accepted]
  simp only [decide_not]
  exact (List.filter_append_perm _ d.interfaces).map _

theorem models_accepted : (d.accepted b).models b = d.models b := by
  unfold models accepted
  rw [List.filterMap_filter]
  refine congrArg (d.interfaces.filterMap ·) (funext fun i => ?_)
  rcases accepts_cases b d.package i with ⟨s, -, -, ha⟩ | ⟨e, hbuilt, ha⟩
  · exact if_pos (decide_eq_true ha)
  · rw [if_neg (by simpa using ha), hbuilt]
    rfl

theorem refusals_accepted : (d.accepted b).refusals b = [] := by
  refine List.filterMap_eq_nil_iff.mpr fun i hi => ?_
  obtain ⟨-, ha⟩ := List.mem_filter.mp hi
  obtain ⟨s, hbuilt⟩ := of_decide_eq_true ha
  exact refusal?_of_ok hbuilt

end Declaration

theorem Generate.Census.of_eq (b : Builder) (d : Declaration) :
    Census.of b d = ⟨d.models b, d.refusals b⟩ := by
  unfold Census.of Declaration.models Declaration.refusals
  induction d.interfaces with
  | nil => rfl
  | cons i interfaces ih =>
    rw [Census.ofInterfaces, List.foldr_cons]
    change Census.add i _ (Census.ofInterfaces b d.package interfaces) = _
    rw [ih]
    cases hbuilt : b.buildIn d.package i with
    | ok s => simp [Census.add, Declaration.refusal?_of_ok hbuilt, Except.toOption, hbuilt]
    | error e => simp [Census.add, Declaration.refusal?_of_error hbuilt, Except.toOption, hbuilt]

/-- To build all interfaces takes that none is rejected. -/
theorem Builder.buildAll_eq (b : Builder) (d : Declaration) :
    b.buildAll d = match d.refusals b with
      | [] => .ok (d.models b)
      | first :: _ => .error first.error := by
  unfold buildAll Declaration.models Declaration.refusals
  induction d.interfaces with
  | nil => rfl
  | cons i interfaces ih =>
    rw [List.mapM_cons, ih, List.filterMap_cons, List.filterMap_cons]
    cases hbuilt : b.buildIn d.package i with
    | error e =>
      rw [Declaration.refusal?_of_error hbuilt]
      rfl
    | ok s =>
      rw [Declaration.refusal?_of_ok hbuilt]
      cases interfaces.filterMap (Declaration.refusal? b d.package) <;> rfl

end ServiceLoom

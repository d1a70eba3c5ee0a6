import Mathlib.Data.Nat.Find
import ServiceLoom.Proofs.Config.Templates
import ServiceLoom.Proofs.Results
import ServiceLoom.Proofs.Text.Padding

/-!
# Valid configurations

All faults of a configuration are listed: those of the conventions, and then artifact by artifact a
name that came before and whatever is wrong with the artifact alone. The check ends with the first
fault. So it passes exactly the valid configurations, and nothing after the first flawed artifact
makes a difference.
-/

namespace ServiceLoom

def Blank (text : String) : Prop := Text.AllBlank text.toList

instance (text : String) : Decidable (Blank text) :=
  inferInstanceAs (Decidable (Text.AllBlank text.toList))

theorem isBlankText_iff {text : String} : Text.isBlankText text = true ↔ Blank text :=
  List.all_eq_true

/-! ## Faults -/

section Faults

variable {p : Prop} [Decidable p] {message : String}

def faultIf (p : Prop) [Decidable p] (message : String) : List Error :=
  if p then [.configuration message] else []

theorem faultIf_eq_nil_iff : faultIf p message = [] ↔ ¬ p := by
  unfold faultIf
  split <;> simp_all

theorem reports_check {q : Prop} [Decidable q] {rest : Except Error Unit} {more : List Error}
    (htest : q ↔ p) (hrest : Reports more rest) :
    Reports (faultIf p message ++ more)
      (if q then .error (.configuration message) else rest) := by
  unfold faultIf
  by_cases hp : p
  · rw [if_pos hp, if_pos (htest.mpr hp)]
    rfl
  · rw [if_neg hp, if_neg (mt htest.mp hp)]
    exact hrest

end Faults

namespace Convention

structure Valid (c : Convention) : Prop where
  context : ¬ Blank c.contextType
  error : ¬ Blank c.errorType

def faults (c : Convention) : List Error :=
  faultIf (Blank c.contextType) "context_type cannot be empty" ++
    faultIf (Blank c.errorType) "error_type cannot be empty"

theorem faults_eq_nil_iff {c : Convention} : c.faults = [] ↔ c.Valid := by
  rw [faults, List.append_eq_nil_iff, faultIf_eq_nil_iff, faultIf_eq_nil_iff]
  exact ⟨fun ⟨hcontext, herror⟩ => ⟨hcontext, herror⟩, fun h => ⟨h.context, h.error⟩⟩

instance (c : Convention) : Decidable c.Valid := decidable_of_iff _ faults_eq_nil_iff

theorem reports_validate (c : Convention) : Reports c.faults c.validate := by
  refine reports_check isBlankText_iff ?_
  rw [← List.append_nil (faultIf _ _)]
  exact reports_check isBlankText_iff (.ok ())

theorem validate_eq_ok_iff {c : Convention} : c.validate = .ok () ↔ c.Valid :=
  c.reports_validate.eq_ok_iff.trans faults_eq_nil_iff

end Convention

namespace ArtifactConfig

structure Valid (a : ArtifactConfig) : Prop where
  name : ¬ Blank a.name
  file : ¬ Blank a.file
  template : a.serviceTemplate ≠ none ∨ a.methodTemplate ≠ none
  policy : ¬ (a.overwrite = true ∧ a.merge = true)
  methodFlag : a.methodFlag ≠ none → a.methodTemplate ≠ none

/-- What is wrong with the artifact alone. -/
def faults (a : ArtifactConfig) : List Error :=
  faultIf (Blank a.name) "artifact name cannot be empty" ++
    (faultIf (Blank a.file) s!"artifact '{a.name}' has no file name" ++
    (faultIf (a.serviceTemplate = none ∧ a.methodTemplate = none)
      s!"artifact '{a.name}' has no template" ++
    (faultIf (a.overwrite = true ∧ a.merge = true)
      s!"artifact '{a.name}' cannot both overwrite and merge" ++
    faultIf (a.methodFlag ≠ none ∧ a.methodTemplate = none)
      s!"artifact '{a.name}' sets method_flag without a method template")))

def repetition (earlier : List String) (a : ArtifactConfig) : List Error :=
  faultIf (a.name ∈ earlier) s!"artifact '{a.name}' defined twice"

theorem faults_eq_nil_iff {a : ArtifactConfig} : a.faults = [] ↔ a.Valid := by
  simp only [faults, List.append_eq_nil_iff, faultIf_eq_nil_iff]
  constructor
  · rintro ⟨hname, hfile, htemplate, hpolicy, hflag⟩
    refine ⟨hname, hfile, ?_, hpolicy, fun hsome hnone => hflag ⟨hsome, hnone⟩⟩
    by_contra hnone
    rw [not_or, not_not, not_not] at hnone
    exact htemplate hnone
  · rintro ⟨hname, hfile, htemplate, hpolicy, hflag⟩
    refine ⟨hname, hfile, ?_, hpolicy, fun h => hflag h.1 h.2⟩
    rintro ⟨hservice, hmethod⟩
    rcases htemplate with h | h
    · exact h hservice
    · exact h hmethod

instance (a : ArtifactConfig) : Decidable a.Valid := decidable_of_iff _ faults_eq_nil_iff

theorem reports_validate (a : ArtifactConfig) : Reports a.faults a.validate := by
  refine reports_check isBlankText_iff (reports_check isBlankText_iff
    (reports_check ?_ (reports_check ?_ ?_)))
  · simp
  · simp
  · rw [← List.append_nil (faultIf _ _)]
    refine reports_check ?_ (.ok ())
    simp [Option.isSome_iff_ne_none]

theorem validate_eq_ok_iff {a : ArtifactConfig} : a.validate = .ok () ↔ a.Valid :=
  a.reports_validate.eq_ok_iff.trans faults_eq_nil_iff

end ArtifactConfig

namespace Config

variable {c : Config} {earlier : List String} {artifacts : List ArtifactConfig}

structure Valid (c : Config) : Prop where
  model : c.model.Valid
  distinct : (c.artifacts.map (·.name)).Nodup
  artifacts : ∀ a ∈ c.artifacts, a.Valid

/-- What is wrong with artifacts that come after others of these names. -/
def faultsAfter (earlier : List String) : List ArtifactConfig → List Error
  | [] => []
  | a :: rest => a.repetition earlier ++ (a.faults ++ faultsAfter (a.name :: earlier) rest)

def faults (c : Config) : List Error := c.model.faults ++ faultsAfter [] c.artifacts

theorem reports_validateArtifacts (earlier : List String) (artifacts : List ArtifactConfig) :
    Reports (faultsAfter earlier artifacts) (validateArtifacts earlier artifacts) := by
  induction artifacts generalizing earlier with
  | nil => exact .ok ()
  | cons a rest ih =>
    have hrest := a.reports_validate.bind fun _ _ => ih (a.name :: earlier)
    rw [validateArtifacts_cons]
    exact reports_check Iff.rfl hrest

theorem reports_validate (c : Config) : Reports c.faults c.validate :=
  c.model.reports_validate.bind fun _ _ => reports_validateArtifacts [] c.artifacts

theorem faultsAfter_append (earlier : List String) (before rest : List ArtifactConfig) :
    faultsAfter earlier (before ++ rest) = faultsAfter earlier before ++
      faultsAfter ((before.map (·.name)).reverse ++ earlier) rest := by
  induction before generalizing earlier with
  | nil => rfl
  | cons a before ih =>
    rw [List.cons_append, faultsAfter, faultsAfter, ih, List.map_cons, List.reverse_cons]
    simp only [List.append_assoc, List.singleton_append]

theorem faultsAfter_eq_nil_iff : faultsAfter earlier artifacts = [] ↔
    ∀ i a, artifacts[i]? = some a →
      (a.name ∉ earlier ∧ a.name ∉ (artifacts.take i).map (·.name)) ∧ a.Valid := by
  induction artifacts generalizing earlier with
  | nil => simp [faultsAfter]
  | cons first rest ih =>
    simp only [faultsAfter, ArtifactConfig.repetition, List.append_eq_nil_iff, faultIf_eq_nil_iff,
      ArtifactConfig.faults_eq_nil_iff, ih, List.mem_cons, not_or]
    constructor
    · rintro ⟨hfirst, hvalid, hrest⟩ i a ha
      cases i with
      | zero =>
        obtain rfl := Option.some.inj ha
        exact ⟨⟨hfirst, by simp⟩, hvalid⟩
      | succ i =>
        obtain ⟨⟨⟨hne, hearlier⟩, hbefore⟩, ha⟩ := hrest i a ha
        exact ⟨⟨hearlier, by simpa [hne] using hbefore⟩, ha⟩
    · intro h
      obtain ⟨⟨hfirst, _⟩, hvalid⟩ := h 0 first rfl
      refine ⟨hfirst, hvalid, fun i a ha => ?_⟩
      obtain ⟨⟨hearlier, hbefore⟩, ha⟩ := h (i + 1) a ha
      rw [List.take_succ_cons, List.map_cons, List.mem_cons, not_or] at hbefore
      exact ⟨⟨⟨hbefore.1, hearlier⟩, hbefore.2⟩, ha⟩

/-- The artifact at the index repeats the name of an earlier one or is invalid alone. -/
def Flawed (c : Config) (i : Nat) : Prop :=
  ∃ a, c.artifacts[i]? = some a ∧ (a.name ∈ (c.artifacts.take i).map (·.name) ∨ ¬ a.Valid)

/-- No artifact before the index is flawed, and the one at the index is at fault: for its name, if
it repeats one, and for itself otherwise. -/
structure FirstFlaw (c : Config) (i : Nat) (e : Error) : Prop where
  before : ∀ j < i, ¬ c.Flawed j
  artifact : ∃ a, c.artifacts[i]? = some a ∧
    if a.name ∈ (c.artifacts.take i).map (·.name) then
      e = .configuration s!"artifact '{a.name}' defined twice"
    else a.validate = .error e

theorem faults_eq_nil_iff : c.faults = [] ↔ c.model.Valid ∧ ∀ i, ¬ c.Flawed i := by
  rw [faults, List.append_eq_nil_iff, Convention.faults_eq_nil_iff, faultsAfter_eq_nil_iff]
  simp [Flawed]

theorem validate_eq_ok_iff : c.validate = .ok () ↔ c.Valid := by
  have hcheck : c.validate = .ok () ↔
      c.model.validate = .ok () ∧ validateArtifacts [] c.artifacts = .ok () := by
    rw [validate, bind_eq_ok_iff]
    exact ⟨fun ⟨(), hmodel, h⟩ => ⟨hmodel, h⟩, fun ⟨hmodel, h⟩ => ⟨(), hmodel, h⟩⟩
  rw [hcheck, Convention.validate_eq_ok_iff, validateArtifacts_eq_ok_iff]
  simp only [ArtifactConfig.validate_eq_ok_iff, List.not_mem_nil, not_false_eq_true, true_and]
  exact ⟨fun ⟨hmodel, hdistinct, hall⟩ => ⟨hmodel, hdistinct, hall⟩,
    fun h => ⟨h.model, h.distinct, h.artifacts⟩⟩

theorem faultsAfter_take {i : Nat} (h : ∀ j < i, ¬ c.Flawed j) :
    faultsAfter [] (c.artifacts.take i) = [] := by
  apply faultsAfter_eq_nil_iff.mpr
  intro j a ha
  rw [List.getElem?_take, Option.ite_none_right_eq_some] at ha
  obtain ⟨hj, ha⟩ := ha
  have hsound := h j hj
  rw [List.take_take, Nat.min_eq_left (Nat.le_of_lt hj)]
  simp only [Flawed, not_exists, not_and, not_or, not_not] at hsound
  exact ⟨⟨List.not_mem_nil, (hsound a ha).1⟩, (hsound a ha).2⟩

/-- The first flaw is the error of every configuration that is the same up to it. -/
theorem validate_of_firstFlaw {i : Nat} {e : Error} (hmodel : c.model.Valid)
    (h : c.FirstFlaw i e) {other : Config} (hsame : other.model = c.model)
    (htake : other.artifacts.take (i + 1) = c.artifacts.take (i + 1)) :
    other.validate = .error e := by
  obtain ⟨a, ha, hcause⟩ := h.artifact
  have hsplit : other.artifacts = c.artifacts.take i ++ a :: other.artifacts.drop (i + 1) := by
    have htaken : other.artifacts.take (i + 1) = c.artifacts.take i ++ [a] := by
      rw [htake, List.take_add_one, ha]
      rfl
    rw [← List.singleton_append, ← List.append_assoc, ← htaken, List.take_append_drop]
  rw [other.reports_validate.eq_error_iff, faults, hsame,
    Convention.faults_eq_nil_iff.mpr hmodel, hsplit, faultsAfter_append, faultsAfter_take h.before,
    faultsAfter, ArtifactConfig.repetition, faultIf]
  simp only [List.nil_append, List.append_nil, List.mem_reverse]
  split at hcause
  · rename_i hname
    rw [if_pos hname, hcause]
    rfl
  · rename_i hname
    rw [if_neg hname, List.nil_append, List.head?_append,
      a.reports_validate.eq_error_iff.mp hcause]
    rfl

theorem exists_firstFlaw (h : ∃ i, c.Flawed i) : ∃ i e, c.FirstFlaw i e := by
  classical
  obtain ⟨a, ha, hflaw⟩ := Nat.find_spec h
  have hbefore : ∀ j < Nat.find h, ¬ c.Flawed j := fun j hj => Nat.find_min h hj
  by_cases hname : a.name ∈ (c.artifacts.take (Nat.find h)).map (·.name)
  · exact ⟨Nat.find h, _, hbefore, a, ha, by rw [if_pos hname]⟩
  · cases hvalidate : a.validate with
    | ok _ =>
      have hvalid := ArtifactConfig.validate_eq_ok_iff.mp hvalidate
      exact absurd hvalid (hflaw.resolve_left hname)
    | error e => exact ⟨Nat.find h, e, hbefore, a, ha, by rw [if_neg hname, hvalidate]⟩

theorem validate_eq_error_iff {e : Error} : c.validate = .error e ↔
    c.model.faults.head? = some e ∨ c.model.Valid ∧ ∃ i, c.FirstFlaw i e := by
  constructor
  · intro h
    by_cases hmodel : c.model.Valid
    · have hfaults : c.faults ≠ [] := by
        intro hnone
        rw [c.reports_validate.eq_ok_iff.mpr hnone] at h
        cases h
      rw [Ne, faults_eq_nil_iff, not_and, not_forall_not] at hfaults
      obtain ⟨i, e', hfirst⟩ := exists_firstFlaw (hfaults hmodel)
      have herror := validate_of_firstFlaw hmodel hfirst rfl rfl
      obtain rfl := Except.error.inj (h.symm.trans herror)
      exact Or.inr ⟨hmodel, i, hfirst⟩
    · have hfaults : c.model.faults ≠ [] := mt Convention.faults_eq_nil_iff.mp hmodel
      rw [c.reports_validate.eq_error_iff, faults, List.head?_append_of_ne_nil _ hfaults] at h
      exact Or.inl h
  · rintro (hmodel | ⟨hmodel, i, hfirst⟩)
    · rw [c.reports_validate.eq_error_iff, faults, List.head?_append, hmodel]
      rfl
    · exact validate_of_firstFlaw hmodel hfirst rfl rfl

/-- The check passes the valid configurations and reports the first flaw of all others. -/
theorem validate_exact (c : Config) :
    (c.validate = .ok () ↔ c.Valid) ∧
    (∀ e, c.validate = .error e ↔
      c.model.validate = .error e ∨ c.model.Valid ∧ ∃ i, c.FirstFlaw i e) ∧
    (∀ e, c.model.validate = .error e ↔ c.model.faults.head? = some e) ∧
    (∀ (a : ArtifactConfig) e, a.validate = .error e ↔ a.faults.head? = some e) ∧
    ∀ i e, c.model.Valid → c.FirstFlaw i e → ∀ other : Config, other.model = c.model →
      other.artifacts.take (i + 1) = c.artifacts.take (i + 1) → other.validate = .error e := by
  refine ⟨validate_eq_ok_iff, fun e => ?_, fun _ => c.model.reports_validate.eq_error_iff,
    fun a _ => a.reports_validate.eq_error_iff, ?_⟩
  · rw [validate_eq_error_iff, c.model.reports_validate.eq_error_iff]
  · intro i e hvalid hfirst other hsame htake
    exact validate_of_firstFlaw hvalid hfirst hsame htake

/-- The second artifact repeats a name and is invalid as well, and so is the third. -/
def repeatedNote : Config where
  artifacts := [
    { name := "note", file := "a.go", serviceTemplate := some "x" },
    { name := "note", file := " ", overwrite := true, merge := true },
    { name := "", file := "" }]

theorem validate_exact_repeatedNote :
    repeatedNote.model.Valid ∧
      repeatedNote.FirstFlaw 1 (.configuration "artifact 'note' defined twice") ∧
      Config.validate { artifacts := repeatedNote.artifacts.take 2 } =
        .error (.configuration "artifact 'note' defined twice") := by
  have hmodel : repeatedNote.model.Valid := by decide
  have hbefore : ∀ j < 1, ¬ repeatedNote.Flawed j := by
    intro j hj
    obtain rfl := Nat.lt_one_iff.mp hj
    rintro ⟨a, ha, hflaw⟩
    obtain rfl := Option.some.inj ha
    revert hflaw
    decide
  have hfirst : repeatedNote.FirstFlaw 1 (.configuration "artifact 'note' defined twice") :=
    ⟨hbefore, _, rfl, by decide⟩
  obtain ⟨_, _, _, _, hsame⟩ := validate_exact repeatedNote
  exact ⟨hmodel, hfirst, hsame 1 _ hmodel hfirst _ rfl rfl⟩

end Config

end ServiceLoom

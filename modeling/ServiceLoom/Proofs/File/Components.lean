import ServiceLoom.Proofs.File.Names

/-!
# Components of a path

Apart from a dot at its start the components of a path are the root, if it is absolute, and its
steps. A path that is joined to a directory adds its components to those of the directory, and stays
inside it if none of them is the root or leads upwards.
-/

namespace ServiceLoom.FilePath

variable {root path : String}

/-- Whether a path stays inside the directory it is joined to. -/
def IsInward (path : String) : Prop :=
  Component.root ∉ components path ∧ Component.parent ∉ components path

instance (path : String) : Decidable (IsInward path) :=
  inferInstanceAs (Decidable (Component.root ∉ components path ∧
    Component.parent ∉ components path))

/-- The components of a path that count, a dot at its start left out. -/
def ownComponents (path : String) : List Component := (components path).filter (· != .current)

theorem ofName_ne_current_of_mem_steps {name : String} {s : List Char} (h : name ∈ steps s) :
    Component.ofName name.toList ≠ .current := by
  obtain ⟨piece, hpiece, rfl⟩ := List.mem_map.mp h
  obtain ⟨-, hpiece⟩ := List.mem_filter.mp hpiece
  rw [Bool.and_eq_true, bne_iff_ne] at hpiece
  rw [String.toList_ofList, Component.ofName, if_neg hpiece.2]
  split <;> simp

theorem ofName_eq_parent_iff {name : String} :
    Component.ofName name.toList = .parent ↔ name = ".." := by
  rw [← String.toList_inj]
  unfold Component.ofName
  split
  · rename_i hdot
    simp [hdot]
  · split
    · rename_i hup
      simp [hup]
    · rename_i hup
      simpa using hup

theorem ownComponents_eq (path : String) :
    ownComponents path = (if isAbsolute path then [.root] else []) ++
      (steps path.toList).map fun name => .ofName name.toList := by
  have hsteps (s : List Char) : ((steps s).map fun name => Component.ofName name.toList).filter
      (· != .current) = (steps s).map fun name => .ofName name.toList := by
    rw [List.filter_eq_self]
    intro component hcomponent
    obtain ⟨name, hname, rfl⟩ := List.mem_map.mp hcomponent
    simpa using ofName_ne_current_of_mem_steps hname
  unfold ownComponents components located isAbsolute
  -- a path starts at the root, is a dot, starts with a dot and a slash, or does none of these
  split
  · rename_i rest hpath
    simp [hpath, map_fst_laterComponents, hsteps]
  · rename_i hpath
    simp [hpath]
  · rename_i rest hpath
    simp [hpath, map_fst_laterComponents, hsteps]
  · rename_i hroot _ _
    have hrelative : (path.toList.head? == some '/') = false := by
      cases hs : path.toList with
      | nil => rfl
      | cons c cs =>
        have hc : c ≠ '/' := fun hc => hroot cs (hc ▸ hs)
        simpa using hc
    simp [hrelative, map_fst_laterComponents, hsteps]

theorem mem_ownComponents_iff {component : Component} (h : component ≠ .current) :
    component ∈ ownComponents path ↔ component ∈ components path := by
  simp [ownComponents, h]

theorem isInward_iff :
    IsInward path ↔ isAbsolute path = false ∧ ".." ∉ steps path.toList := by
  have hroot : Component.root ∈ ownComponents path ↔ isAbsolute path = true := by
    rw [ownComponents_eq, List.mem_append, List.mem_map]
    constructor
    · rintro (h | ⟨name, -, h⟩)
      · split at h
        · assumption
        · cases h
      · unfold Component.ofName at h
        split at h
        · cases h
        · split at h <;> cases h
    · intro h
      simp [h]
  have hup : Component.parent ∈ ownComponents path ↔ ".." ∈ steps path.toList := by
    rw [ownComponents_eq, List.mem_append, List.mem_map]
    constructor
    · rintro (h | ⟨name, hname, h⟩)
      · split at h <;> simp at h
      · rwa [ofName_eq_parent_iff.mp h] at hname
    · exact fun h => Or.inr ⟨"..", h, rfl⟩
  rw [IsInward, ← mem_ownComponents_iff (by simp), ← mem_ownComponents_iff (by simp), hroot, hup,
    Bool.not_eq_true]

theorem ownComponents_join (h : isAbsolute path = false) :
    ownComponents (join root path) = ownComponents root ++ ownComponents path := by
  simp only [ownComponents_eq, isAbsolute_join h, steps_join h, h, List.map_append]
  simp

theorem ownComponents_of_isInward (h : IsInward path) :
    ownComponents path = (components path).filter Component.isNormal := by
  apply List.filter_congr
  intro component hcomponent
  cases component with
  | root => exact absurd hcomponent h.1
  | current => rfl
  | parent => exact absurd hcomponent h.2
  | normal name => rfl

end ServiceLoom.FilePath

import ServiceLoom.Proofs.File.Components
import ServiceLoom.Proofs.File.Operations

/-!
# Targets in a root

An artifact has a target exactly if its path stays inside the directory it is joined to. The target
is then the root with some steps appended that only lead further in. So the targets in one root are
straight together: a root that is turned back out of a missing directory is made with the first of
them.
-/

namespace ServiceLoom.Artifact

variable {root : String} {a : Artifact} {path : String}

theorem escaping?_eq_none_iff : escaping? path = none ↔ FilePath.IsInward path := by
  constructor
  · intro h
    have hfree := List.find?_eq_none.mp h
    refine ⟨fun hroot => ?_, fun hup => ?_⟩
    · exact hfree _ hroot rfl
    · exact hfree _ hup rfl
  · rintro ⟨hroot, hup⟩
    refine List.find?_eq_none.mpr fun component hcomponent => ?_
    cases component with
    | root => exact absurd hcomponent hroot
    | current => simp
    | parent => exact absurd hcomponent hup
    | normal name => simp [FilePath.Component.isNormal]

theorem target_eq_ok_iff :
    a.target root = .ok path ↔
      FilePath.IsInward a.relativePath ∧ path = FilePath.join root a.relativePath := by
  rw [← escaping?_eq_none_iff]
  unfold target
  cases escaping? a.relativePath with
  | none => simp [eq_comm]
  | some component => simp

theorem target_eq_error_of_not_isInward (root : String)
    (h : ¬ FilePath.IsInward a.relativePath) :
    ∃ component, a.target root = .error ⟨[], .escape a.relativePath component⟩ := by
  cases hescaping : escaping? a.relativePath with
  | none => exact absurd (escaping?_eq_none_iff.mp hescaping) h
  | some component => exact ⟨component, by rw [target, hescaping]⟩

theorem ownComponents_target (h : a.target root = .ok path) :
    FilePath.ownComponents path = FilePath.ownComponents root ++
      (FilePath.components a.relativePath).filter FilePath.Component.isNormal := by
  obtain ⟨hinward, rfl⟩ := target_eq_ok_iff.mp h
  rw [FilePath.ownComponents_join (FilePath.isInward_iff.mp hinward).1,
    FilePath.ownComponents_of_isInward hinward]

theorem isStraight_iff_of_target {t : FileTree} (h : a.target root = .ok path) :
    t.isStraight path = true ↔ t.isStraight root = true := by
  obtain ⟨hinward, rfl⟩ := target_eq_ok_iff.mp h
  obtain ⟨hrelative, hup⟩ := FilePath.isInward_iff.mp hinward
  rw [FileTree.isStraight_eq, FileTree.isStraight_eq, FilePath.steps_join hrelative,
    FileTree.straightFrom_append, FileTree.start, FilePath.isAbsolute_join hrelative]
  exact and_iff_left (FileTree.straightFrom_of_not_mem hup)

theorem isStraight_root_of_find {t : FileTree} {l : Location} {node : FileTree.Node}
    (h : a.target root = .ok path) (hfind : t.find path = .taken l node) :
    t.isStraight root = true :=
  (isStraight_iff_of_target h).mp (FileTree.isStraight_of_find_taken hfind)

/-- A target lies below its root. -/
theorem isPrefix_locate_target {t : FileTree} (h : a.target root = .ok path) :
    t.locate root <+: t.locate path := by
  obtain ⟨hinward, rfl⟩ := target_eq_ok_iff.mp h
  obtain ⟨hrelative, hup⟩ := FilePath.isInward_iff.mp hinward
  have hstart : t.start (FilePath.join root a.relativePath) = t.start root := by
    rw [FileTree.start, FilePath.isAbsolute_join hrelative, FileTree.start]
  rw [FileTree.locate_eq, FileTree.locate_eq, FilePath.steps_join hrelative, FileTree.lead_append,
    hstart]
  exact FileTree.isPrefix_lead_of_not_mem hup

end ServiceLoom.Artifact

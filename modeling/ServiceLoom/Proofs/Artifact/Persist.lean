import ServiceLoom.Proofs.Artifact.Policy
import ServiceLoom.Proofs.File.Operations

/-!
# Writing one artifact

A dry look and the real step ask the same of the tree, where the target leads to. What a successful
step then does is one of three things: a directory is left alone, a file gets the text that the
artifact makes of its text, and where nothing is found a file with the content is made, together
with the directories it is in. Whatever is not at the target or on its way stays as it is.
-/

namespace ServiceLoom.Artifact

/-- What is planned for the node that a target leads to. -/
def foresee (a : Artifact) (target : String) : Option FileTree.Node → Except Abort Outcome
  | none => .ok .created
  | some node =>
    if a.descriptor.overwrite then .ok .overwritten
    else if a.descriptor.merge then
      match node with
      | .file x => .ok (a.mergeOutcome x)
      | .directory => .error (.file (.readTarget target))
    else .ok .skipped

theorem foresee_file (a : Artifact) (path x : String) :
    a.foresee path (some (.file x)) = .ok (a.outcomeOn x) := by
  simp only [foresee, outcomeOn]
  split
  · rfl
  · split <;> rfl

theorem runOn_plan (a : Artifact) (path : String) (t : FileTree) :
    runOn (a.plan path) t = (a.foresee path (t.find path).node?, t) := by
  simp only [plan, runOn_bind, FileTree.runOn_present, FileTree.present_eq]
  cases hnode : (t.find path).node? with
  | none => rfl
  | some node =>
    simp only [foresee, Option.isSome_some, Bool.not_true, Bool.false_eq_true, if_false]
    split
    · rfl
    · split
      · simp only [runOn_bind, FileTree.runOn_readText, FileTree.readText?_eq, hnode]
        cases node with
        | directory => rfl
        | file x => rfl
      · rfl

theorem runOn_store_eq_ok_iff {a : Artifact} {path : String} {t u : FileTree} :
    runOn (a.store path) t = (.ok (), u) ↔
      (t.prepare path).1 = true ∧ (t.prepare path).2.writeText? path a.content = some u := by
  have hwrite (t : FileTree) : runOn (do
      if !(← FileSystem.writeText path a.content) then
        throw (Abort.file (.writeTarget path)) : ExceptT Abort (StateM FileTree) Unit) t =
        (.ok (), u) ↔ t.writeText? path a.content = some u := by
    rw [runOn_bind, FileTree.runOn_writeText]
    cases t.writeText? path a.content with
    | none => simp
    | some v => simp
  unfold store FileTree.prepare
  cases FilePath.parent? path with
  | none => simpa using hwrite t
  | some directory =>
    simp only [runOn_bind, FileTree.runOn_createDirs]
    cases (t.createDirs directory).1 with
    | false => simp
    | true => simpa using hwrite (t.createDirs directory).2

theorem runOn_extend (a : Artifact) (path : String) (t : FileTree) :
    runOn (a.extend path) t = match t.appendText? path a.content with
      | some u => (.ok (), u)
      | none => (.error (.file (.openTarget path)), t) := by
  rw [extend, runOn_bind, FileTree.runOn_appendText]
  cases t.appendText? path a.content with
  | none => rfl
  | some u => rfl

section Step

variable {a : Artifact} {path : String} {t u : FileTree} {o : Outcome}

theorem store_eq_ok (hs : t.Sound) (h : runOn (a.store path) t = (.ok (), u)) :
    t.TouchedAt u path ∧ u.find path = .taken (t.locate path) (.file a.content) ∧
      path ≠ "" ∧ t.find path ≠ .blocked := by
  obtain ⟨-, hwrite⟩ := runOn_store_eq_ok_iff.mp h
  have hmade := FileTree.prepare_furnishes hs path
  obtain ⟨hfind, hfits, rfl⟩ := FileTree.writeText?_eq_some hmade.sound hwrite
  rw [hmade.growsTo.locate_eq] at hfind hfits ⊢
  refine ⟨FileTree.TouchedAt.of_fits hmade hfits, ?_, ?_, ?_⟩
  · exact FileTree.find_of_growsTo hfits.growsTo hfind hfits.node?_put
  · exact (FileTree.isWalked_of_location? hfind).2
  · intro hblocked
    rw [FileTree.find_blocked_of_growsTo hmade.growsTo hblocked] at hfind
    cases hfind

theorem prepare_of_store (hs : t.Sound) (h : runOn (a.store path) t = (.ok (), u))
    {v : FileTree} (hg : u.GrowsTo v) : v.prepare path = (true, v) := by
  obtain ⟨hmake, hwrite⟩ := runOn_store_eq_ok_iff.mp h
  obtain ⟨-, hfits, rfl⟩ :=
    FileTree.writeText?_eq_some (FileTree.prepare_furnishes hs path).sound hwrite
  exact FileTree.prepare_of_growsTo hs hmake (hfits.growsTo.trans hg)

theorem persist_eq_ok_iff :
    runOn (a.persist path) t = (.ok o, u) ↔
      a.foresee path (t.find path).node? = .ok o ∧ runOn (a.perform path o) t = (.ok (), u) := by
  simp only [persist, runOn_bind_eq_ok_iff, runOn_plan, runOn_pure, Prod.mk.injEq, Except.ok.injEq]
  constructor
  · rintro ⟨o', t', ⟨hforesee, rfl⟩, ⟨⟩, u', hperform, rfl, rfl⟩
    exact ⟨hforesee, hperform⟩
  · rintro ⟨hforesee, hperform⟩
    exact ⟨o, t, ⟨hforesee, rfl⟩, (), u, hperform, rfl, rfl⟩

/-- What one artifact can do to the file of one path. -/
inductive Persisted (a : Artifact) (path : String) (t u : FileTree) : Outcome → Prop where
  | directory (found : t.find path = .taken (t.locate path) .directory)
      (overwrite : a.descriptor.overwrite = false) (merge : a.descriptor.merge = false)
      (same : u = t) : Persisted a path t u .skipped
  | file {x : String} (found : t.find path = .taken (t.locate path) (.file x))
      (left : u.find path = .taken (t.locate path) (.file (a.onto (some x)))) :
      Persisted a path t u (a.outcomeOn x)
  | fresh (ne_empty : path ≠ "") (notBlocked : t.find path ≠ .blocked)
      (notFound : (t.find path).node? = none)
      (left : u.find path = .taken (t.locate path) (.file a.content)) :
      Persisted a path t u .created

theorem persisted_of_created (hs : t.Sound) (hnone : (t.find path).node? = none)
    (h : runOn (a.store path) t = (.ok (), u)) :
    t.TouchedAt u path ∧ Persisted a path t u .created := by
  obtain ⟨htouched, hleft, hne, hblocked⟩ := store_eq_ok hs h
  exact ⟨htouched, .fresh hne hblocked hnone hleft⟩

theorem persisted_of_directory (hs : t.Sound)
    (hfind : t.find path = .taken (t.locate path) .directory)
    (h : runOn (a.persist path) t = (.ok o, u)) :
    t.TouchedAt u path ∧ Persisted a path t u o := by
  obtain ⟨hforesee, hperform⟩ := persist_eq_ok_iff.mp h
  simp only [hfind, FileTree.Place.node?, foresee] at hforesee
  cases hover : a.descriptor.overwrite with
  | true =>
    -- Nothing can be written to a directory.
    obtain rfl : .overwritten = o := by simpa [hover] using hforesee
    obtain ⟨htouched, hleft, -⟩ := store_eq_ok hs hperform
    have hdirectory := htouched.growsTo.directory _ (FileTree.find_taken hfind).2
    rw [(FileTree.find_taken hleft).2] at hdirectory
    cases hdirectory
  | false =>
    cases hmerge : a.descriptor.merge with
    | true => simp [hover, hmerge] at hforesee
    | false =>
      obtain rfl : .skipped = o := by simpa [hover, hmerge] using hforesee
      obtain ⟨-, rfl⟩ := Prod.mk.inj hperform
      exact ⟨.refl hs path, .directory hfind hover hmerge rfl⟩

theorem persisted_of_file (hs : t.Sound) {x : String}
    (hfind : t.find path = .taken (t.locate path) (.file x))
    (h : runOn (a.persist path) t = (.ok o, u)) :
    t.TouchedAt u path ∧ Persisted a path t u o := by
  obtain ⟨hforesee, hperform⟩ := persist_eq_ok_iff.mp h
  rw [hfind, FileTree.Place.node?, foresee_file] at hforesee
  obtain rfl := Except.ok.inj hforesee
  rcases a.outcomeOn_cases x with ⟨ho, honto, -⟩ | ⟨ho, honto⟩ | ⟨ho, honto⟩
  · rw [ho] at hperform
    obtain ⟨htouched, hleft, -⟩ := store_eq_ok hs hperform
    exact ⟨htouched, .file hfind (honto ▸ hleft)⟩
  · rw [ho] at hperform
    simp only [perform, runOn_extend, FileTree.appendText?_of_find hfind] at hperform
    obtain ⟨-, rfl⟩ := Prod.mk.inj hperform
    have hfits := FileTree.fits_of_file hs (FileTree.find_taken hfind).2 (x ++ a.content)
    refine ⟨.of_fits (.refl hs _) hfits, .file hfind ?_⟩
    rw [honto]
    exact FileTree.find_of_growsTo hfits.growsTo (by rw [hfind]; rfl) hfits.node?_put
  · have hu : t = u := by
      rcases ho with ho | ho <;> rw [ho] at hperform <;> exact (Prod.mk.inj hperform).2
    subst hu
    exact ⟨.refl hs path, .file hfind (honto.symm ▸ hfind)⟩

theorem persist_eq_ok (hs : t.Sound) (h : runOn (a.persist path) t = (.ok o, u)) :
    t.TouchedAt u path ∧ Persisted a path t u o := by
  have hcreated (hnone : (t.find path).node? = none) :
      t.TouchedAt u path ∧ Persisted a path t u o := by
    obtain ⟨hforesee, hperform⟩ := persist_eq_ok_iff.mp h
    rw [hnone] at hforesee
    obtain rfl := Except.ok.inj hforesee
    exact persisted_of_created hs hnone hperform
  cases hfind : t.find path with
  | taken l node =>
    obtain ⟨rfl, -⟩ := FileTree.find_taken hfind
    cases node with
    | directory => exact persisted_of_directory hs hfind h
    | file x => exact persisted_of_file hs hfind h
  | free l => exact hcreated (by rw [hfind]; rfl)
  | missing => exact hcreated (by rw [hfind]; rfl)
  | blocked => exact hcreated (by rw [hfind]; rfl)

namespace Persisted

theorem reachable (h : Persisted a path t u o) : path ≠ "" ∧ t.find path ≠ .blocked := by
  cases h with
  | directory found _ _ _ =>
    exact ⟨(FileTree.isWalked_of_find_taken found).2, by simp [found]⟩
  | file found _ => exact ⟨(FileTree.isWalked_of_find_taken found).2, by simp [found]⟩
  | fresh ne_empty notBlocked _ _ => exact ⟨ne_empty, notBlocked⟩

theorem find_eq (h : Persisted a path t u o) :
    ∃ node, u.find path = .taken (t.locate path) node := by
  cases h with
  | directory found _ _ same =>
    subst same
    exact ⟨_, found⟩
  | file _ left => exact ⟨_, left⟩
  | fresh _ _ _ left => exact ⟨_, left⟩

/-- A location is in use after a step if it was before or is on the way of the target. -/
theorem node?_eq_none_iff {l : Location} (h : Persisted a path t u o)
    (htouched : t.TouchedAt u path) :
    u.node? l = none ↔ t.node? l = none ∧ ¬ t.Passes path l := by
  obtain ⟨node, hfind⟩ := h.find_eq
  constructor
  · intro hnone
    refine ⟨?_, fun hpasses => ?_⟩
    · by_contra hl
      exact htouched.growsTo.node?_ne_none hl hnone
    · rw [← FileTree.passes_of_growsTo htouched.growsTo] at hpasses
      exact FileTree.node?_ne_none_of_passes htouched.sound hfind hpasses hnone
  · rintro ⟨hnone, hpasses⟩
    rw [htouched.node?_eq l, hnone]
    · rintro rfl
      exact hpasses ⟨path, List.mem_cons_self, rfl⟩
    · exact fun q hq hl => hpasses ⟨q, List.mem_cons_of_mem path hq, hl⟩

/-- An artifact writes on some text, and that of a straight target is the one which is there. -/
theorem exists_node?_eq (h : Persisted a path t u o) (hs : t.Sound) :
    ∃ x, (t.isStraight path = true → x = t.text? (t.locate path)) ∧
      (u.node? (t.locate path) = some (.file (a.onto x)) ∨
        u.node? (t.locate path) = some .directory ∧
          a.descriptor.overwrite = false ∧ a.descriptor.merge = false) := by
  cases h with
  | directory found overwrite merge same =>
    subst same
    exact ⟨_, fun _ => rfl, Or.inr ⟨(FileTree.find_taken found).2, overwrite, merge⟩⟩
  | file found left =>
    refine ⟨some _, fun _ => ?_, Or.inl (FileTree.find_taken left).2⟩
    rw [FileTree.text?_eq_some_iff.mpr (FileTree.find_taken found).2]
  | fresh ne_empty notBlocked notFound left =>
    refine ⟨none, fun hstraight => ?_, Or.inl (FileTree.find_taken left).2⟩
    have hnone := FileTree.node?_locate_of_isStraight hs hstraight ne_empty notBlocked notFound
    rw [FileTree.text?_eq_none_of_node?_eq_none hnone]

end Persisted

end Step

end ServiceLoom.Artifact

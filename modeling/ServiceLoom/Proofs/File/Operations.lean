import Mathlib.Tactic.ByContra
import ServiceLoom.Proofs.File.Names
import ServiceLoom.Proofs.File.Walk
import ServiceLoom.Proofs.Results

/-!
# Operations on trees

A node is only put where nothing is, or in place of a file by another, and always in a directory: so
a sound tree stays sound and only grows. Making directories changes no text. A path that was found,
or free and then filled, is found in every later tree.
-/

namespace ServiceLoom

/-- Whether a path is looked up at all; any tree refuses the others without looking. -/
def FilePath.IsWalked (path : String) : Prop := isRefused path = false ∧ path ≠ ""

namespace FileTree

variable {t u : FileTree} {path : String} {l m : Location} {node : Node}

section Find

theorem locate_eq (t : FileTree) (path : String) :
    t.locate path = lead (t.start path) (FilePath.steps path.toList) := by
  rw [locate, ← lead_filter, FilePath.filter_names]

theorem isStraight_eq (t : FileTree) (path : String) :
    t.isStraight path = t.straightFrom (t.start path) (FilePath.steps path.toList) := by
  rw [isStraight, ← straightFrom_filter, FilePath.filter_names]

theorem isStraight_of_not_mem (h : ".." ∉ FilePath.names path) : t.isStraight path = true :=
  straightFrom_of_not_mem h

theorem isStraight_of_growsTo (hg : t.GrowsTo u) (h : t.isStraight path = true) :
    u.isStraight path = true := by
  rw [isStraight, hg.start_eq]
  exact straightFrom_of_growsTo hg h

theorem find_eq_walk (h : FilePath.IsWalked path) (t : FileTree) :
    t.find path = t.walk (t.start path) (FilePath.names path) := by
  simp [find, h.1, h.2]

theorem isWalked_of_location? (h : (t.find path).location? = some m) :
    FilePath.IsWalked path := by
  unfold find at h
  split at h
  · cases h
  · rename_i hrefused
    split at h
    · cases h
    · rename_i hne
      exact ⟨by simpa using hrefused, hne⟩

theorem isWalked_of_find_taken (h : t.find path = .taken m node) : FilePath.IsWalked path :=
  isWalked_of_location? (t := t) (m := m) (by rw [h]; rfl)

theorem find_taken (h : t.find path = .taken m node) :
    m = t.locate path ∧ t.node? m = some node := by
  rw [find_eq_walk (isWalked_of_find_taken h)] at h
  exact walk_taken h

theorem find_free (hs : t.Sound) (h : t.find path = .free m) :
    m = t.locate path ∧ t.node? m = none ∧ t.node? m.dropLast = some .directory := by
  have hwalked : FilePath.IsWalked path :=
    isWalked_of_location? (t := t) (m := m) (by rw [h]; rfl)
  rw [find_eq_walk hwalked] at h
  obtain ⟨hm, hnone, hrest⟩ := walk_free hs h
  exact ⟨hm, hnone, (hrest.resolve_left (FilePath.names_ne_nil hwalked.2)).2⟩

theorem find_of_growsTo (hg : t.GrowsTo u) (h : (t.find path).location? = some m)
    (hu : u.node? m = some node) : u.find path = .taken m node := by
  have hwalked := isWalked_of_location? h
  rw [find_eq_walk hwalked] at h
  rw [find_eq_walk hwalked, hg.start_eq]
  exact walk_of_growsTo hg h hu

theorem find_taken_of_growsTo (hg : t.GrowsTo u) (h : t.find path = .taken m node) :
    ∃ node', u.node? m = some node' ∧ u.find path = .taken m node' := by
  obtain ⟨node', hnode'⟩ := Option.ne_none_iff_exists'.mp
    (hg.node?_ne_none (l := m) (by simp [(find_taken h).2]))
  exact ⟨node', hnode', find_of_growsTo hg (by rw [h]; rfl) hnode'⟩

theorem find_blocked_of_growsTo (hg : t.GrowsTo u) (h : t.find path = .blocked) :
    u.find path = .blocked := by
  unfold find at h ⊢
  split at h
  · rename_i hrefused
    rw [if_pos hrefused]
  · rename_i hrefused
    split at h
    · cases h
    · rename_i hne
      rw [if_neg hrefused, if_neg hne, hg.start_eq]
      exact walk_blocked_of_growsTo hg h

theorem isStraight_of_find_taken (h : t.find path = .taken m node) :
    t.isStraight path = true := by
  rw [find_eq_walk (isWalked_of_find_taken h)] at h
  exact straightFrom_of_walk_taken h

/-- Where a straight path leads there is nothing, unless it is found or blocked. -/
theorem node?_locate_of_isStraight (hs : t.Sound) (hstraight : t.isStraight path = true)
    (hne : path ≠ "") (hblocked : t.find path ≠ .blocked)
    (hnotFound : (t.find path).node? = none) : t.node? (t.locate path) = none := by
  have hrefused : FilePath.isRefused path = false := by
    by_contra h
    exact hblocked (by simp [find, h])
  have hwalk (t : FileTree) := find_eq_walk ⟨hrefused, hne⟩ t
  simp only [hwalk] at hblocked hnotFound
  cases hwalk : t.walk (t.start path) (FilePath.names path) with
  | taken m node =>
    rw [hwalk] at hnotFound
    cases hnotFound
  | free m =>
    obtain ⟨hm, hnone, -⟩ := walk_free hs hwalk
    rwa [hm] at hnone
  | missing => exact node?_lead_of_walk_missing hs hstraight hwalk
  | blocked => exact absurd hwalk hblocked

theorem node?_find_eq_none_iff (hs : t.Sound) (hstraight : t.isStraight path = true)
    (hne : path ≠ "") (hblocked : t.find path ≠ .blocked) :
    (t.find path).node? = none ↔ t.node? (t.locate path) = none := by
  refine ⟨node?_locate_of_isStraight hs hstraight hne hblocked, fun hnone => ?_⟩
  cases hfind : t.find path with
  | taken l node =>
    obtain ⟨rfl, hnode⟩ := find_taken hfind
    rw [hnone] at hnode
    cases hnode
  | free l => rfl
  | missing => rfl
  | blocked => rfl

end Find

section Put

theorem mem_putEntry {location : Location} {content : Option String}
    {entries : List (Location × Option String)} {entry : Location × Option String}
    (h : entry ∈ putEntry location content entries) :
    entry = (location, content) ∨ entry ∈ entries := by
  induction entries with
  | nil => exact Or.inl (List.mem_singleton.mp h)
  | cons first rest ih =>
    unfold putEntry at h
    split at h
    · exact (List.mem_cons.mp h).imp_right (List.mem_cons_of_mem first)
    · rcases List.mem_cons.mp h with rfl | h
      · exact Or.inr List.mem_cons_self
      · exact (ih h).imp_right (List.mem_cons_of_mem first)

/-- Where a node can be put. -/
structure Fits (t : FileTree) (l : Location) (node : Node) : Prop where
  parent : t.node? l.dropLast = some .directory
  replaced : t.node? l = none ∨ ∃ x y, t.node? l = some (.file x) ∧ node = .file y

namespace Fits

theorem ne_nil (h : t.Fits l node) : l ≠ [] := by
  rintro rfl
  rcases h.replaced with hnone | ⟨x, y, hfile, -⟩
  · simp at hnone
  · simp at hfile

theorem node?_put (h : t.Fits l node) : (t.put l node).node? l = some node :=
  node?_put_self t node h.ne_nil

theorem growsTo (h : t.Fits l node) : t.GrowsTo (t.put l node) where
  working := rfl
  directory m hm := by
    by_cases hml : m = l
    · subst hml
      rcases h.replaced with hnone | ⟨x, y, hfile, -⟩
      · rw [hm] at hnone
        cases hnone
      · rw [hm] at hfile
        cases hfile
    · rwa [node?_put_of_ne t node hml]
  file m x hm := by
    by_cases hml : m = l
    · subst hml
      rcases h.replaced with hnone | ⟨-, y, -, rfl⟩
      · rw [hm] at hnone
        cases hnone
      · exact ⟨y, h.node?_put⟩
    · exact ⟨x, by rwa [node?_put_of_ne t node hml]⟩

theorem sound (h : t.Fits l node) (hs : t.Sound) : (t.put l node).Sound := by
  have hentry : ∀ entry ∈ (t.put l node).entries, entry.1 = l ∨ entry ∈ t.entries := by
    intro entry hmem
    exact (mem_putEntry hmem).imp_left (congrArg Prod.fst)
  intro entry hmem
  refine h.growsTo.directory _ ?_
  rcases hentry entry hmem with heq | hold
  · rw [heq]
    exact h.parent
  · exact hs entry hold

end Fits

theorem text?_put_file {x : String} (h : t.Fits l (.file x)) :
    (t.put l (.file x)).text? l = some x :=
  text?_eq_some_iff.mpr h.node?_put

theorem text?_put_directory (h : t.node? l = none) (m : Location) :
    (t.put l .directory).text? m = t.text? m := by
  by_cases hml : m = l
  · subst hml
    have hne : m ≠ [] := by
      rintro rfl
      simp at h
    simp [text?, node?_put_self t .directory hne, h]
  · simp [text?, node?_put_of_ne t .directory hml]

end Put

section MakeDirs

/-- A tree is furnished for some paths if nothing but directories is added, and these only at the
locations of the paths. -/
structure FurnishedTo (t u : FileTree) (paths : List String) : Prop where
  sound : u.Sound
  growsTo : t.GrowsTo u
  text?_eq : ∀ l, u.text? l = t.text? l
  node?_eq : ∀ l, (∀ path ∈ paths, t.locate path ≠ l) → u.node? l = t.node? l

theorem FurnishedTo.refl (hs : t.Sound) (paths : List String) : t.FurnishedTo t paths :=
  ⟨hs, GrowsTo.refl t, fun _ => rfl, fun _ _ => rfl⟩

theorem makeDirs_furnishes (hs : t.Sound) (paths : List String) :
    t.FurnishedTo (t.makeDirs paths).2 paths := by
  fun_induction t.makeDirs paths with
  | case1 t => exact FurnishedTo.refl hs []
  | case2 t path paths l hfind ih =>
    have h := ih hs
    exact { h with node?_eq := fun l hl => h.node?_eq l (List.forall_mem_cons.mp hl).2 }
  | case3 t path paths l hfind ih =>
    obtain ⟨hl, hnone, hparent⟩ := find_free hs hfind
    have hfits : t.Fits l .directory := ⟨hparent, Or.inl hnone⟩
    have h := ih (hfits.sound hs)
    refine ⟨h.sound, hfits.growsTo.trans h.growsTo, fun m => ?_, fun m hm => ?_⟩
    · rw [h.text?_eq, text?_put_directory hnone]
    · obtain ⟨hpath, hpaths⟩ := List.forall_mem_cons.mp hm
      rw [h.node?_eq m fun path hmem => hfits.growsTo.locate_eq path ▸ hpaths path hmem]
      exact node?_put_of_ne t .directory fun heq => hpath (heq ▸ hl.symm)
  | case4 t path paths => exact FurnishedTo.refl hs _

theorem find_of_makeDirs (hs : t.Sound) {paths : List String} (h : (t.makeDirs paths).1 = true) :
    ∀ path ∈ paths, ∃ l, (t.makeDirs paths).2.find path = .taken l .directory := by
  fun_induction t.makeDirs paths with
  | case1 t => simp
  | case2 t path paths l hfind ih =>
    refine List.forall_mem_cons.mpr ⟨⟨l, ?_⟩, ih hs h⟩
    have hg := (makeDirs_furnishes hs paths).growsTo
    exact find_of_growsTo hg (by rw [hfind]; rfl) (hg.directory l (find_taken hfind).2)
  | case3 t path paths l hfind ih =>
    obtain ⟨hl, hnone, hparent⟩ := find_free hs hfind
    have hfits : t.Fits l .directory := ⟨hparent, Or.inl hnone⟩
    have hg := (makeDirs_furnishes (hfits.sound hs) paths).growsTo
    refine List.forall_mem_cons.mpr ⟨⟨l, ?_⟩, ih (hfits.sound hs) h⟩
    exact find_of_growsTo (hfits.growsTo.trans hg) (by rw [hfind]; rfl)
      (hg.directory l hfits.node?_put)
  | case4 t path paths => cases h

theorem makeDirs_of_find {paths : List String}
    (h : ∀ path ∈ paths, ∃ l, t.find path = .taken l .directory) :
    t.makeDirs paths = (true, t) := by
  induction paths with
  | nil => rfl
  | cons path paths ih =>
    obtain ⟨⟨l, hfind⟩, hpaths⟩ := List.forall_mem_cons.mp h
    rw [makeDirs, hfind]
    exact ih hpaths

/-- Make the directories that a path is in. -/
def prepare (t : FileTree) (path : String) : Bool × FileTree :=
  match FilePath.parent? path with
  | none => (true, t)
  | some directory => t.createDirs directory

theorem prepare_furnishes (hs : t.Sound) (path : String) :
    t.FurnishedTo (t.prepare path).2 (FilePath.outer path) := by
  unfold prepare FilePath.outer
  cases FilePath.parent? path with
  | none => exact FurnishedTo.refl hs []
  | some directory =>
    simp only [createDirs]
    split
    · exact FurnishedTo.refl hs _
    · exact makeDirs_furnishes hs _

/-- What has been prepared once is prepared for good. -/
theorem prepare_of_growsTo (hs : t.Sound) (h : (t.prepare path).1 = true)
    (hg : (t.prepare path).2.GrowsTo u) : u.prepare path = (true, u) := by
  unfold prepare at h hg ⊢
  cases hparent : FilePath.parent? path with
  | none => rfl
  | some directory =>
    simp only [hparent, createDirs] at h hg ⊢
    split at h
    · cases h
    · rename_i hrefused
      rw [if_neg hrefused] at hg ⊢
      refine makeDirs_of_find fun path hpath => ?_
      obtain ⟨l, hfind⟩ := find_of_makeDirs hs h path hpath
      exact ⟨l, find_of_growsTo hg (by rw [hfind]; rfl) (hg.directory l (find_taken hfind).2)⟩

end MakeDirs

section Passes

/-- Whether a location is on the way of a path, or at its end. -/
def Passes (t : FileTree) (path : String) (l : Location) : Prop :=
  ∃ q ∈ path :: FilePath.outer path, t.locate q = l

theorem passes_of_growsTo (hg : t.GrowsTo u) : u.Passes path l ↔ t.Passes path l := by
  simp only [Passes, hg.locate_eq]

/-- What is made on the way of a straight path is made above its end. -/
theorem isPrefix_locate_of_opens (hs : t.Sound) {q : String} (h : FilePath.Opens q path)
    (hstraight : t.isStraight path = true) (hnone : t.node? (t.locate q) = none) :
    t.locate q <+: t.locate path := by
  obtain ⟨rest, hrest⟩ := h.steps_isPrefix
  have hstart : t.start q = t.start path := by
    simp only [start, FilePath.isAbsolute_eq_of_isPrefix h.ne_empty h.isPrefix]
  rw [isStraight_eq, ← hrest, straightFrom_append] at hstraight
  rw [locate_eq, hstart] at hnone ⊢
  rw [locate_eq, ← hrest, lead_append]
  exact isPrefix_lead hs hstraight.2 hnone

theorem node?_ne_none_of_passes (hs : t.Sound) (hfind : t.find path = .taken m node)
    (hl : t.Passes path l) : t.node? l ≠ none := by
  obtain ⟨q, hq, rfl⟩ := hl
  obtain ⟨rfl, hnode⟩ := find_taken hfind
  rcases List.mem_cons.mp hq with rfl | hq
  · simp [hnode]
  · intro hnone
    have hprefix := isPrefix_locate_of_opens hs (FilePath.Opens.of_mem_outer hq)
      (isStraight_of_find_taken hfind) hnone
    rw [hs.node?_eq_none_of_isPrefix hprefix hnone] at hnode
    cases hnode

end Passes

section Write

variable {x y : String}

theorem fits_of_file (hs : t.Sound) (h : t.node? l = some (.file x)) (y : String) :
    t.Fits l (.file y) :=
  ⟨hs.dropLast (by simp [h]), Or.inr ⟨x, y, h, rfl⟩⟩

theorem writeText?_eq_some (hs : t.Sound) (h : t.writeText? path x = some u) :
    (t.find path).location? = some (t.locate path) ∧ t.Fits (t.locate path) (.file x) ∧
      u = t.put (t.locate path) (.file x) := by
  unfold writeText? at h
  split at h
  · rename_i l y hfind
    obtain ⟨rfl, hnode⟩ := find_taken hfind
    exact ⟨by rw [hfind]; rfl, fits_of_file hs hnode x, (Option.some.inj h).symm⟩
  · rename_i l hfind
    obtain ⟨rfl, hnone, hparent⟩ := find_free hs hfind
    exact ⟨by rw [hfind]; rfl, ⟨hparent, Or.inl hnone⟩, (Option.some.inj h).symm⟩
  · cases h

theorem writeText?_of_find (h : t.find path = .taken l (.file y)) :
    t.writeText? path x = some (t.put l (.file x)) := by
  simp [writeText?, h]

theorem appendText?_of_find (h : t.find path = .taken l (.file y)) :
    t.appendText? path x = some (t.put l (.file (y ++ x))) := by
  simp [appendText?, h]

/-- A tree that has changed at one path: there may be another text, and new directories it is in. -/
structure TouchedAt (t u : FileTree) (path : String) : Prop where
  sound : u.Sound
  growsTo : t.GrowsTo u
  text?_eq : ∀ l, l ≠ t.locate path → u.text? l = t.text? l
  node?_eq : ∀ l, l ≠ t.locate path → (∀ q ∈ FilePath.outer path, t.locate q ≠ l) →
    u.node? l = t.node? l

namespace TouchedAt

theorem refl (hs : t.Sound) (path : String) : t.TouchedAt t path :=
  ⟨hs, GrowsTo.refl t, fun _ _ => rfl, fun _ _ _ => rfl⟩

theorem of_fits (h : t.FurnishedTo u (FilePath.outer path))
    (hfits : u.Fits (t.locate path) node) : t.TouchedAt (u.put (t.locate path) node) path where
  sound := hfits.sound h.sound
  growsTo := h.growsTo.trans hfits.growsTo
  text?_eq l hl := by
    rw [← h.text?_eq l, text?, text?, node?_put_of_ne u node hl]
  node?_eq l hl houter := by
    rw [node?_put_of_ne u node hl, h.node?_eq l houter]

end TouchedAt

end Write

section Run

variable {ε : Type}

@[simp] theorem runOn_present (path : String) (t : FileTree) :
    runOn (FileSystem.present path : ExceptT ε (StateM FileTree) Bool) t =
      (.ok (t.present path), t) := rfl

@[simp] theorem runOn_readText (path : String) (t : FileTree) :
    runOn (FileSystem.readText path : ExceptT ε (StateM FileTree) (Option String)) t =
      (.ok (t.readText? path), t) := rfl

@[simp] theorem runOn_createDirs (path : String) (t : FileTree) :
    runOn (FileSystem.createDirs path : ExceptT ε (StateM FileTree) Bool) t =
      (.ok (t.createDirs path).1, (t.createDirs path).2) := rfl

@[simp] theorem runOn_writeText (path content : String) (t : FileTree) :
    runOn (FileSystem.writeText path content : ExceptT ε (StateM FileTree) Bool) t =
      match t.writeText? path content with
      | some u => (.ok true, u)
      | none => (.ok false, t) := by
  refine (runOn_lift (FileSystem.writeText path content) t).trans ?_
  simp only [FileSystem.writeText]
  cases t.writeText? path content with
  | none => rfl
  | some u => rfl

@[simp] theorem runOn_appendText (path content : String) (t : FileTree) :
    runOn (FileSystem.appendText path content : ExceptT ε (StateM FileTree) Appended) t =
      match t.appendText? path content with
      | some u => (.ok .done, u)
      | none => (.ok .notOpened, t) := by
  refine (runOn_lift (FileSystem.appendText path content) t).trans ?_
  simp only [FileSystem.appendText]
  cases t.appendText? path content with
  | none => rfl
  | some u => rfl

theorem present_eq (t : FileTree) (path : String) :
    t.present path = (t.find path).node?.isSome := by
  unfold present
  cases t.find path <;> rfl

theorem readText?_eq (t : FileTree) (path : String) :
    t.readText? path = match (t.find path).node? with
      | some (.file x) => some x
      | _ => none := by
  unfold readText?
  split
  · rename_i h
    rw [h]
    rfl
  · rename_i h
    cases hfind : t.find path with
    | taken l node =>
      cases node with
      | directory => rfl
      | file x => exact absurd hfind (h l x)
    | free => rfl
    | missing => rfl
    | blocked => rfl

end Run

end FileTree

end ServiceLoom

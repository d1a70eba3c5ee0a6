import ServiceLoom.Proofs.Artifact.Persist

/-!
# Writing artifacts one after the other

Several artifacts may be written to one file. Only those written to a location bear on its text, and
they leave of it what they leave of any text: the last one that overwrites decides it, and merging
ones after it are added. A location that nothing is written to keeps its file, and gets none.

A path can be written in more than one way. A target is straight if it turns back only out of
directories that are there, as every path without `..` is. Of a file behind a missing directory the
look-up says that it is not there, and it is written anew.
-/

namespace ServiceLoom

namespace FileTree

/-- A tree that has changed at some paths, which are all found afterwards. -/
structure TouchedBy (t u : FileTree) (paths : List String) : Prop where
  sound : u.Sound
  growsTo : t.GrowsTo u
  text?_eq : ∀ l, (∀ path ∈ paths, t.locate path ≠ l) → u.text? l = t.text? l
  found : ∀ path ∈ paths, ∃ node, u.find path = .taken (t.locate path) node

end FileTree

namespace Artifact

def persistAll {m : Type → Type} [Monad m] [FileSystem m] (writes : List (Artifact × String)) :
    ExceptT Abort m (List Outcome) :=
  writes.mapM fun w => w.1.persist w.2

def aimedAt (t : FileTree) (l : Location) (writes : List (Artifact × String)) : List Artifact :=
  (writes.filter fun w => t.locate w.2 == l).map (·.1)

variable {writes : List (Artifact × String)} {t u : FileTree} {l : Location} {os : List Outcome}

theorem aimedAt_eq_nil_iff : aimedAt t l writes = [] ↔ ∀ w ∈ writes, t.locate w.2 ≠ l := by
  simp [aimedAt]

theorem aimedAt_cons (t : FileTree) (l : Location) (a : Artifact) (path : String)
    (writes : List (Artifact × String)) :
    aimedAt t l ((a, path) :: writes) =
      if t.locate path = l then a :: aimedAt t l writes else aimedAt t l writes := by
  by_cases h : t.locate path = l <;> simp [aimedAt, h]

theorem aimedAt_append (t : FileTree) (l : Location) (before after : List (Artifact × String)) :
    aimedAt t l (before ++ after) = aimedAt t l before ++ aimedAt t l after := by
  simp [aimedAt]

theorem aimedAt_of_growsTo (hg : t.GrowsTo u) (l : Location) (writes : List (Artifact × String)) :
    aimedAt u l writes = aimedAt t l writes := by
  simp only [aimedAt, hg.locate_eq]

theorem persistAll_cons_eq_ok_iff {a : Artifact} {path : String} :
    runOn (persistAll ((a, path) :: writes)) t = (.ok os, u) ↔ ∃ o v rest,
      runOn (a.persist path) t = (.ok o, v) ∧ runOn (persistAll writes) v = (.ok rest, u) ∧
        os = o :: rest :=
  runOn_mapM_cons_eq_ok_iff

theorem persistAll_concat_eq_ok {a : Artifact} {path : String} {v : FileTree} {o : Outcome}
    (h : runOn (persistAll writes) t = (.ok os, v))
    (hstep : runOn (a.persist path) v = (.ok o, u)) :
    runOn (persistAll (writes ++ [(a, path)])) t = (.ok (os ++ [o]), u) := by
  induction writes generalizing t os with
  | nil =>
    obtain ⟨hos, rfl⟩ := Prod.mk.inj h
    obtain rfl := Except.ok.inj hos
    exact persistAll_cons_eq_ok_iff.mpr ⟨o, u, [], hstep, rfl, rfl⟩
  | cons w writes ih =>
    obtain ⟨o', t', rest, hfirst, hrest, rfl⟩ := persistAll_cons_eq_ok_iff.mp h
    exact persistAll_cons_eq_ok_iff.mpr ⟨o', t', rest ++ [o], hfirst, ih hrest, rfl⟩

theorem persistAll_touches (hs : t.Sound) (h : runOn (persistAll writes) t = (.ok os, u)) :
    t.TouchedBy u (writes.map (·.2)) := by
  induction writes generalizing t os with
  | nil =>
    obtain ⟨-, rfl⟩ := Prod.mk.inj h
    exact ⟨hs, .refl t, fun _ _ => rfl, by simp⟩
  | cons w writes ih =>
    obtain ⟨a, path⟩ := w
    obtain ⟨o, v, rest, hstep, hrest, rfl⟩ := persistAll_cons_eq_ok_iff.mp h
    obtain ⟨htouched, hpersisted⟩ := persist_eq_ok hs hstep
    have hlater := ih htouched.sound hrest
    refine ⟨hlater.sound, htouched.growsTo.trans hlater.growsTo, fun l hl => ?_, ?_⟩
    · obtain ⟨hpath, hpaths⟩ := List.forall_mem_cons.mp hl
      rw [hlater.text?_eq l fun q hq => htouched.growsTo.locate_eq q ▸ hpaths q hq,
        htouched.text?_eq l (Ne.symm hpath)]
    · refine List.forall_mem_cons.mpr ⟨?_, fun q hq => ?_⟩
      · obtain ⟨node, hfind⟩ := hpersisted.find_eq
        obtain ⟨node', -, hfind'⟩ := FileTree.find_taken_of_growsTo hlater.growsTo hfind
        exact ⟨node', hfind'⟩
      · rw [← htouched.growsTo.locate_eq q]
        exact hlater.found q hq

/-- A location is in use after a round if it was before or is on the way of a target. -/
theorem persistAll_node?_eq_none_iff (hs : t.Sound)
    (h : runOn (persistAll writes) t = (.ok os, u)) :
    u.node? l = none ↔ t.node? l = none ∧ ∀ w ∈ writes, ¬ t.Passes w.2 l := by
  induction writes generalizing t os with
  | nil =>
    obtain ⟨-, rfl⟩ := Prod.mk.inj h
    simp
  | cons w writes ih =>
    obtain ⟨a, path⟩ := w
    obtain ⟨o, v, rest, hstep, hrest, rfl⟩ := persistAll_cons_eq_ok_iff.mp h
    obtain ⟨htouched, hpersisted⟩ := persist_eq_ok hs hstep
    have hg := htouched.growsTo
    rw [ih htouched.sound hrest, hpersisted.node?_eq_none_iff htouched, List.forall_mem_cons,
      and_assoc]
    simp only [FileTree.passes_of_growsTo hg]

/-- What some artifacts leave at a location with a text, or none, before them. A directory is left
alone, and only by artifacts that neither overwrite nor merge. -/
inductive Leaves (x : Option String) (as : List Artifact) (u : FileTree) (l : Location) : Prop where
  | text (notDirectory : u.node? l ≠ some .directory) (text : u.text? l = replay x as)
  | directory (directory : u.node? l = some .directory)
      (flags : ∀ a ∈ as, a.descriptor.overwrite = false ∧ a.descriptor.merge = false)

theorem Leaves.nil (u : FileTree) (l : Location) : Leaves (u.text? l) [] u l := by
  rcases Decidable.em (u.node? l = some .directory) with hnode | hnode
  · exact .directory hnode (by simp)
  · exact .text hnode rfl

theorem Leaves.cons {a : Artifact} {as : List Artifact} {v : FileTree} {x : Option String}
    (hstep : v.node? l = some (.file (a.onto x)) ∨ v.node? l = some .directory ∧
      a.descriptor.overwrite = false ∧ a.descriptor.merge = false)
    (hg : v.GrowsTo u) (h : Leaves (v.text? l) as u l) : Leaves x (a :: as) u l := by
  rcases hstep with hfile | ⟨hdirectory, hflags⟩
  · cases h with
    | text notDirectory text =>
      rw [FileTree.text?_eq_some_iff.mpr hfile] at text
      exact .text notDirectory text
    | directory directory _ => exact absurd directory (hg.node?_ne_directory hfile)
  · cases h with
    | text notDirectory _ => exact absurd (hg.directory l hdirectory) notDirectory
    | directory directory flags =>
      exact .directory directory (List.forall_mem_cons.mpr ⟨hflags, flags⟩)

theorem persistAll_leaves (hs : t.Sound) (h : runOn (persistAll writes) t = (.ok os, u))
    (hstraight : ∀ w ∈ writes, t.locate w.2 = l → t.isStraight w.2 = true) :
    Leaves (t.text? l) (aimedAt t l writes) u l := by
  induction writes generalizing t os with
  | nil =>
    obtain ⟨-, rfl⟩ := Prod.mk.inj h
    exact .nil t l
  | cons w writes ih =>
    obtain ⟨a, path⟩ := w
    obtain ⟨o, v, rest, hstep, hrest, rfl⟩ := persistAll_cons_eq_ok_iff.mp h
    obtain ⟨htouched, hpersisted⟩ := persist_eq_ok hs hstep
    obtain ⟨hpath, hpaths⟩ := List.forall_mem_cons.mp hstraight
    have hg := htouched.growsTo
    have hlater := ih htouched.sound hrest fun w hw hl =>
      FileTree.isStraight_of_growsTo hg (hpaths w hw (hg.locate_eq w.2 ▸ hl))
    rw [aimedAt_of_growsTo hg] at hlater
    rw [aimedAt_cons]
    split
    · rename_i hl
      subst hl
      obtain ⟨x, hx, hnode⟩ := hpersisted.exists_node?_eq hs
      obtain rfl := hx (hpath rfl)
      exact .cons hnode (persistAll_touches htouched.sound hrest).growsTo hlater
    · rename_i hl
      rwa [htouched.text?_eq l (Ne.symm hl)] at hlater

/-- What becomes of the file at a location that some artifacts are written to, in order. -/
structure KeepsContent (t u : FileTree) (l : Location) (as : List Artifact) : Prop where
  /-- Without artifacts nothing happens to a file; only directories of other files are made. -/
  untouched : as = [] →
    u.node? l = t.node? l ∨ t.node? l = none ∧ u.node? l = some .directory
  kept : ∀ x, t.text? l = some x →
    (∀ a ∈ as, a.descriptor.overwrite = false ∧ a.descriptor.merge = false) → u.text? l = some x
  prolonged : ∀ x, t.text? l = some x → (∀ a ∈ as, a.descriptor.overwrite = false) →
    ∃ y, u.text? l = some y ∧ x.toList <+: y.toList ∧
      ∀ a ∈ as, a.descriptor.merge = true → a.isIn y = true
  overwritten : ∀ before a after, as = before ++ a :: after → a.descriptor.overwrite = true →
    (∀ b ∈ after, b.descriptor.overwrite = false) → u.text? l = some (extended a.content after)
  created : t.node? l = none → u.node? l ≠ some .directory → ∀ a after, as = a :: after →
    (∀ b ∈ as, b.descriptor.overwrite = false) → u.text? l = some (extended a.content after)

theorem persistAll_keepsContent (hs : t.Sound) (h : runOn (persistAll writes) t = (.ok os, u))
    (hstraight : ∀ w ∈ writes, t.locate w.2 = l → t.isStraight w.2 = true) :
    KeepsContent t u l (aimedAt t l writes) := by
  have htouched := persistAll_touches hs h
  have hleaves := persistAll_leaves hs h hstraight
  have hfile (x : String) (hx : t.text? l = some x) :
      u.text? l = replay (some x) (aimedAt t l writes) := by
    cases hleaves with
    | text _ text => rw [text, hx]
    | directory directory _ =>
      have hnode := FileTree.text?_eq_some_iff.mp hx
      exact absurd directory (htouched.growsTo.node?_ne_directory hnode)
  refine ⟨fun hnil => ?_, fun x hx hkeep => ?_, fun x hx hgentle => ?_, ?_, ?_⟩
  · refine htouched.growsTo.node?_eq_of_text?_eq (htouched.text?_eq l fun path hpath => ?_)
    obtain ⟨w, hw, rfl⟩ := List.mem_map.mp hpath
    exact aimedAt_eq_nil_iff.mp hnil w hw
  · rw [hfile x hx, replay_of_gentle fun a ha => (hkeep a ha).1]
    refine congrArg some (extended_eq_self fun a ha hmerge => ?_)
    rw [(hkeep a ha).2] at hmerge
    cases hmerge
  · exact ⟨_, (hfile x hx).trans (replay_of_gentle hgentle), isPrefix_extended x _,
      fun a ha hmerge => isIn_extended ha hmerge⟩
  · intro before a after has hover hafter
    cases hleaves with
    | text _ text => rw [text, has, replay_of_overwrite hover, replay_of_gentle hafter]
    | directory _ flags =>
      rw [(flags a (by simp [has])).1] at hover
      cases hover
  · intro hnone hnode a after has hgentle
    cases hleaves with
    | text _ text =>
      rw [text, has, FileTree.text?_eq_none_of_node?_eq_none hnone]
      exact replay_of_gentle fun b hb => hgentle b (by simp [has, hb])
    | directory directory _ => exact absurd directory hnode

def noteTree (text : String) (more : List (Location × Option String)) : FileTree :=
  ⟨[(["home"], none), (["home", "note"], some text)] ++ more, ["home"]⟩

/-- A note that is merged into, replaced and merged into again, and a file beside it. -/
def noteWrites : List (Artifact × String) :=
  let artifact (content : String) (overwrite merge : Bool) : Artifact :=
    ⟨⟨"text", "", "note", overwrite, merge⟩, content⟩
  [(artifact "b" false true, "note"), (artifact "c" false false, "new/file"),
    (artifact "d" true true, "./note"), (artifact "e" false true, "note")]

theorem persistAll_keepsContent_note :
    (noteTree "a" []).Sound ∧
      runOn (persistAll noteWrites) (noteTree "a" []) =
        (.ok [.merged, .created, .overwritten, .merged],
          noteTree "de" [(["home", "new"], none), (["home", "new", "file"], some "c")]) ∧
      (∀ w ∈ noteWrites, (noteTree "a" []).locate w.2 = ["home", "note"] →
        (noteTree "a" []).isStraight w.2 = true) ∧
      KeepsContent (noteTree "a" [])
        (noteTree "de" [(["home", "new"], none), (["home", "new", "file"], some "c")])
        ["home", "note"] (aimedAt (noteTree "a" []) ["home", "note"] noteWrites) := by
  have hsound : (noteTree "a" []).Sound := by decide
  have hrun : runOn (persistAll noteWrites) (noteTree "a" []) =
      (.ok [.merged, .created, .overwritten, .merged],
        noteTree "de" [(["home", "new"], none), (["home", "new", "file"], some "c")]) := by
    decide +kernel
  have hstraight : ∀ w ∈ noteWrites, (noteTree "a" []).locate w.2 = ["home", "note"] →
      (noteTree "a" []).isStraight w.2 = true := by decide
  exact ⟨hsound, hrun, hstraight, persistAll_keepsContent hsound hrun hstraight⟩

end Artifact

end ServiceLoom

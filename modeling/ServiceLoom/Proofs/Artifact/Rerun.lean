import ServiceLoom.Proofs.Artifact.Sequence
import ServiceLoom.Proofs.Artifact.Target

/-!
# Writing the same artifacts again

After a round every target is found, what it is in is there, and no directory waits for a text. So a
second round goes through, makes nothing new, and at every location it replays the artifacts on the
text that they left themselves. In the first round a root may still be behind a missing directory;
then the first artifact writes as if nothing were there, and the others find the root made.
-/

namespace ServiceLoom.Artifact

variable {writes : List (Artifact × String)} {t u v : FileTree} {l : Location} {os : List Outcome}
  {a : Artifact} {path root : String} {o : Outcome}

section First

/-- Whatever a root is like, the artifacts in it leave what they leave of some text. -/
theorem exists_leaves_of_target (hs : t.Sound) (hroot : ∀ w ∈ writes, w.1.target root = .ok w.2)
    (h : runOn (persistAll writes) t = (.ok os, u)) (l : Location) :
    ∃ x, Leaves x (aimedAt t l writes) u l := by
  cases writes with
  | nil =>
    obtain ⟨-, rfl⟩ := Prod.mk.inj h
    exact ⟨_, .nil t l⟩
  | cons w writes =>
    obtain ⟨a, path⟩ := w
    obtain ⟨hpath, hpaths⟩ := List.forall_mem_cons.mp hroot
    obtain ⟨o, v, rest, hstep, hrest, rfl⟩ := persistAll_cons_eq_ok_iff.mp h
    obtain ⟨htouched, hpersisted⟩ := persist_eq_ok hs hstep
    have hg := htouched.growsTo
    have hstraight : v.isStraight root = true := by
      obtain ⟨node, hfind⟩ := hpersisted.find_eq
      exact isStraight_root_of_find hpath hfind
    have hlater := persistAll_leaves (l := l) htouched.sound hrest fun w hw _ =>
      (isStraight_iff_of_target (hpaths w hw)).mpr hstraight
    rw [aimedAt_of_growsTo hg] at hlater
    rw [aimedAt_cons]
    split
    · rename_i hl
      subst hl
      obtain ⟨x, -, hnode⟩ := hpersisted.exists_node?_eq hs
      exact ⟨x, .cons hnode (persistAll_touches htouched.sound hrest).growsTo hlater⟩
    · exact ⟨_, hlater⟩

theorem prepare_of_persist (hs : t.Sound) (h : runOn (a.persist path) t = (.ok o, u))
    (hover : a.descriptor.overwrite = true) (hg : u.GrowsTo v) : v.prepare path = (true, v) := by
  obtain ⟨hforesee, hperform⟩ := persist_eq_ok_iff.mp h
  cases hnode : (t.find path).node? with
  | none =>
    rw [hnode] at hforesee
    obtain rfl := Except.ok.inj hforesee
    exact prepare_of_store hs hperform hg
  | some node =>
    simp only [hnode, foresee, hover, if_true] at hforesee
    obtain rfl := Except.ok.inj hforesee
    exact prepare_of_store hs hperform hg

theorem prepare_of_persistAll (hs : t.Sound) (h : runOn (persistAll writes) t = (.ok os, u))
    (hg : u.GrowsTo v) :
    ∀ w ∈ writes, w.1.descriptor.overwrite = true → v.prepare w.2 = (true, v) := by
  induction writes generalizing t os with
  | nil => simp
  | cons w writes ih =>
    obtain ⟨a, path⟩ := w
    obtain ⟨o, t', rest, hstep, hrest, rfl⟩ := persistAll_cons_eq_ok_iff.mp h
    have hsound := (persist_eq_ok hs hstep).1.sound
    refine List.forall_mem_cons.mpr ⟨fun hover => ?_, ih hsound hrest⟩
    exact prepare_of_persist hs hstep hover ((persistAll_touches hsound hrest).growsTo.trans hg)

end First

section Second

structure Ready (t : FileTree) (a : Artifact) (path : String) : Prop where
  found : ∃ node, t.find path = .taken (t.locate path) node
  directory : t.node? (t.locate path) = some .directory →
    a.descriptor.overwrite = false ∧ a.descriptor.merge = false
  prepared : a.descriptor.overwrite = true → ∀ u, t.GrowsTo u → u.prepare path = (true, u)

theorem Ready.of_growsTo (h : Ready t a path) (hg : t.GrowsTo u) : Ready u a path := by
  obtain ⟨node, hfind⟩ := h.found
  obtain ⟨node', hnode', hfind'⟩ := FileTree.find_taken_of_growsTo hg hfind
  rw [← hg.locate_eq path] at hnode' hfind'
  refine ⟨⟨node', hfind'⟩, fun hdirectory => h.directory ?_, fun hover v hv =>
    h.prepared hover v (hg.trans hv)⟩
  cases node with
  | directory => exact (FileTree.find_taken hfind).2
  | file x =>
    rw [hg.locate_eq path] at hdirectory
    exact absurd hdirectory (hg.node?_ne_directory (FileTree.find_taken hfind).2)

/-- A tree with the same nodes, where some artifacts have been written to the files again. -/
structure RewrittenTo (t u : FileTree) (writes : List (Artifact × String)) : Prop where
  sound : u.Sound
  growsTo : t.GrowsTo u
  node?_eq_none : ∀ l, t.node? l = none → u.node? l = none
  text?_eq : ∀ l x, t.text? l = some x → u.text? l = replay (some x) (aimedAt t l writes)

namespace RewrittenTo

theorem refl (hs : t.Sound) : RewrittenTo t t [] :=
  ⟨hs, .refl t, fun _ hl => hl, fun _ _ hx => hx⟩

theorem trans {more : List (Artifact × String)} (htv : RewrittenTo t v writes)
    (hvu : RewrittenTo v u more) : RewrittenTo t u (writes ++ more) where
  sound := hvu.sound
  growsTo := htv.growsTo.trans hvu.growsTo
  node?_eq_none l hl := hvu.node?_eq_none l (htv.node?_eq_none l hl)
  text?_eq l x hx := by
    obtain ⟨y, hy⟩ := exists_replay_eq x (aimedAt t l writes)
    rw [hvu.text?_eq l y ((htv.text?_eq l x hx).trans hy), aimedAt_of_growsTo htv.growsTo,
      aimedAt_append, replay_append, hy]

theorem of_put {x : String} (hs : t.Sound) (hnode : t.node? (t.locate path) = some (.file x)) :
    RewrittenTo t (t.put (t.locate path) (.file (a.onto (some x)))) [(a, path)] := by
  have hfits := FileTree.fits_of_file hs hnode (a.onto (some x))
  refine ⟨hfits.sound hs, hfits.growsTo, fun l hl => ?_, fun l y hy => ?_⟩
  · rw [FileTree.node?_put_of_ne]
    · exact hl
    · rintro rfl
      rw [hl] at hnode
      cases hnode
  · rw [aimedAt_cons]
    split
    · rename_i hl
      subst hl
      rw [FileTree.text?_eq_some_iff.mpr hnode] at hy
      obtain rfl := Option.some.inj hy
      exact FileTree.text?_put_file hfits
    · rename_i hl
      rw [FileTree.text?, FileTree.node?_put_of_ne _ _ (Ne.symm hl)]
      exact hy

theorem of_same (hs : t.Sound)
    (hsame : ∀ x, t.node? (t.locate path) = some (.file x) → a.onto (some x) = x) :
    RewrittenTo t t [(a, path)] := by
  refine ⟨hs, .refl t, fun _ hl => hl, fun l x hx => ?_⟩
  rw [aimedAt_cons]
  split
  · rename_i hl
    subst hl
    have honto := hsame x (FileTree.text?_eq_some_iff.mp hx)
    exact hx.trans (congrArg some honto.symm)
  · exact hx

end RewrittenTo

theorem persist_of_directory (hs : t.Sound)
    (hfind : t.find path = .taken (t.locate path) .directory)
    (hover : a.descriptor.overwrite = false) (hmerge : a.descriptor.merge = false) :
    ∃ o u, runOn (a.persist path) t = (.ok o, u) ∧ RewrittenTo t u [(a, path)] := by
  refine ⟨.skipped, t, persist_eq_ok_iff.mpr ⟨?_, rfl⟩, .of_same hs fun x hx => ?_⟩
  · simp [hfind, FileTree.Place.node?, foresee, hover, hmerge]
  · rw [(FileTree.find_taken hfind).2] at hx
    cases hx

theorem persist_of_file (hs : t.Sound) {x : String}
    (hfind : t.find path = .taken (t.locate path) (.file x))
    (hprepare : a.descriptor.overwrite = true → t.prepare path = (true, t)) :
    ∃ o u, runOn (a.persist path) t = (.ok o, u) ∧ RewrittenTo t u [(a, path)] := by
  have hnode := (FileTree.find_taken hfind).2
  have hput := RewrittenTo.of_put (a := a) hs hnode
  simp only [persist_eq_ok_iff, hfind, FileTree.Place.node?, foresee_file]
  refine ⟨a.outcomeOn x, ?_⟩
  rcases a.outcomeOn_cases x with ⟨ho, honto, hover⟩ | ⟨ho, honto⟩ | ⟨ho, honto⟩
  · refine ⟨_, ⟨rfl, ?_⟩, hput⟩
    rw [ho, perform, runOn_store_eq_ok_iff, hprepare hover, honto]
    exact ⟨rfl, FileTree.writeText?_of_find hfind⟩
  · refine ⟨_, ⟨rfl, ?_⟩, hput⟩
    rw [ho, perform, runOn_extend, FileTree.appendText?_of_find hfind, honto]
  · refine ⟨t, ⟨rfl, ?_⟩, .of_same hs fun y hy => ?_⟩
    · rcases ho with ho | ho <;> rw [ho] <;> rfl
    · rw [hnode] at hy
      cases hy
      exact honto

theorem persist_of_ready (hs : t.Sound) (h : Ready t a path) :
    ∃ o u, runOn (a.persist path) t = (.ok o, u) ∧ RewrittenTo t u [(a, path)] := by
  obtain ⟨node, hfind⟩ := h.found
  cases node with
  | directory =>
    obtain ⟨hover, hmerge⟩ := h.directory (FileTree.find_taken hfind).2
    exact persist_of_directory hs hfind hover hmerge
  | file x => exact persist_of_file hs hfind fun hover => h.prepared hover t (.refl t)

theorem persistAll_of_ready (hs : t.Sound) (h : ∀ w ∈ writes, Ready t w.1 w.2) :
    ∃ os u, runOn (persistAll writes) t = (.ok os, u) ∧ RewrittenTo t u writes := by
  induction writes generalizing t with
  | nil => exact ⟨[], t, rfl, .refl hs⟩
  | cons w writes ih =>
    obtain ⟨a, path⟩ := w
    obtain ⟨hpath, hpaths⟩ := List.forall_mem_cons.mp h
    obtain ⟨o, v, hstep, hv⟩ := persist_of_ready hs hpath
    obtain ⟨os, u, hrest, hu⟩ := ih hv.sound fun w hw => (hpaths w hw).of_growsTo hv.growsTo
    exact ⟨o :: os, u, persistAll_cons_eq_ok_iff.mpr ⟨o, v, os, hstep, hrest, rfl⟩, hv.trans hu⟩

end Second

/-- A second round over the same artifacts in a root goes through and changes nothing. -/
theorem persistAll_again (hs : t.Sound) (hroot : ∀ w ∈ writes, w.1.target root = .ok w.2)
    (h : runOn (persistAll writes) t = (.ok os, u)) :
    ∃ os' v, runOn (persistAll writes) u = (.ok os', v) ∧ ∀ l, v.node? l = u.node? l := by
  have htouched := persistAll_touches hs h
  have hready : ∀ w ∈ writes, Ready u w.1 w.2 := by
    intro w hw
    refine ⟨?_, fun hdirectory => ?_, fun hover v hg => prepare_of_persistAll hs h hg w hw hover⟩
    · rw [htouched.growsTo.locate_eq]
      exact htouched.found w.2 (List.mem_map_of_mem hw)
    · obtain ⟨x, hleaves⟩ := exists_leaves_of_target hs hroot h (u.locate w.2)
      cases hleaves with
      | text notDirectory _ => exact absurd hdirectory notDirectory
      | directory _ flags =>
        refine flags w.1 (List.mem_map_of_mem (List.mem_filter.mpr ⟨hw, ?_⟩))
        simp [htouched.growsTo.locate_eq]
  obtain ⟨os', v, hrun, hv⟩ := persistAll_of_ready htouched.sound hready
  refine ⟨os', v, hrun, fun l => ?_⟩
  cases hnode : u.node? l with
  | none => exact hv.node?_eq_none l hnode
  | some node =>
    cases node with
    | directory => exact hv.growsTo.directory l hnode
    | file y =>
      have hy := FileTree.text?_eq_some_iff.mpr hnode
      obtain ⟨x, hleaves⟩ := exists_leaves_of_target hs hroot h l
      refine FileTree.text?_eq_some_iff.mp ?_
      cases hleaves with
      | text _ text =>
        rw [hv.text?_eq l y hy, aimedAt_of_growsTo htouched.growsTo, ← hy, text, replay_replay]
      | directory directory _ =>
        rw [hnode] at directory
        cases directory

end ServiceLoom.Artifact

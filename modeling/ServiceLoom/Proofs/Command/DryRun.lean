import ServiceLoom.Proofs.Command.Generate

/-!
# What a dry run foretells

A dry run looks at every target in the tree as it is, and a real run in the tree that the earlier
targets have left. The two say the same of a target that is a file unless the earlier artifacts put
the content of a merging one into it or took it out, and of a target that is not there unless it is
on the way of an earlier one. So they say the same of all targets where no two get in each other's
way, and something else where two artifacts make one file.
-/

namespace ServiceLoom

namespace Artifact

variable {writes before : List (Artifact × String)} {t u v : FileTree} {os ps : List Outcome}
  {a : Artifact} {path root : String} {o p : Outcome}

/-- Whether the tree before a run tells what happens to a target, given the artifacts written before
it. -/
def Foreseeable (t : FileTree) (before : List (Artifact × String)) (a : Artifact) (path : String) :
    Prop :=
  match (t.find path).node? with
  | some .directory => True
  | some (.file x) => a.descriptor.overwrite = true ∨ a.descriptor.merge = false ∨
      ∀ y, replay (some x) (aimedAt t (t.locate path) before) = some y → a.isIn y = a.isIn x
  | none => before = [] ∨
      t.node? (t.locate path) = none ∧ ∀ w ∈ before, ¬ t.Passes w.2 (t.locate path)

theorem outcomeOn_eq_iff {x y : String} :
    a.outcomeOn x = a.outcomeOn y ↔
      a.descriptor.overwrite = true ∨ a.descriptor.merge = false ∨ a.isIn y = a.isIn x := by
  unfold outcomeOn
  cases a.descriptor.overwrite with
  | true => simp
  | false =>
    cases a.descriptor.merge with
    | false => simp
    | true =>
      simp only [mergeOutcome_eq]
      cases a.isIn x <;> cases a.isIn y <;> simp

theorem foresee_eq_created_iff {node : Option FileTree.Node}
    (h : a.foresee path node = .ok o) : o = .created ↔ node = none := by
  cases node with
  | none =>
    obtain rfl := Except.ok.inj h
    simp
  | some node =>
    simp only [reduceCtorEq, iff_false]
    rintro rfl
    cases node with
    | directory =>
      unfold foresee at h
      cases hover : a.descriptor.overwrite <;> cases hmerge : a.descriptor.merge <;>
        simp [hover, hmerge] at h
    | file x =>
      rw [foresee_file] at h
      rcases a.outcomeOn_cases x with ⟨ho, -⟩ | ⟨ho, -⟩ | ⟨ho | ho, -⟩ <;> simp [ho] at h

theorem node?_find_eq_none_iff_of_persistAll (hs : t.Sound)
    (hroot : ∀ w ∈ before, w.1.target root = .ok w.2) (htarget : a.target root = .ok path)
    (hbefore : runOn (persistAll before) t = (.ok os, v))
    (hreal : runOn (a.persist path) v = (.ok o, u)) (hnone : (t.find path).node? = none) :
    (v.find path).node? = none ↔ before = [] ∨
      t.node? (t.locate path) = none ∧ ∀ w ∈ before, ¬ t.Passes w.2 (t.locate path) := by
  have htouched := persistAll_touches hs hbefore
  cases before with
  | nil =>
    obtain ⟨-, rfl⟩ := Prod.mk.inj hbefore
    simp [hnone]
  | cons w before =>
    -- The root is there once the first artifact is.
    have hstraight : v.isStraight path = true := by
      obtain ⟨node, hfind⟩ := htouched.found w.2 List.mem_cons_self
      rw [isStraight_iff_of_target htarget]
      exact isStraight_root_of_find (hroot w List.mem_cons_self) hfind
    obtain ⟨hne, hblocked⟩ := (persist_eq_ok htouched.sound hreal).2.reachable
    rw [FileTree.node?_find_eq_none_iff htouched.sound hstraight hne hblocked,
      htouched.growsTo.locate_eq, persistAll_node?_eq_none_iff hs hbefore]
    simp

/-- The text of a file that is there is foretold by replaying the artifacts before its turn. -/
theorem find_of_persistAll (hs : t.Sound) (hroot : ∀ w ∈ before, w.1.target root = .ok w.2)
    (htarget : a.target root = .ok path) (hbefore : runOn (persistAll before) t = (.ok os, v))
    {x : String} (hfind : t.find path = .taken (t.locate path) (.file x)) :
    ∃ y, replay (some x) (aimedAt t (t.locate path) before) = some y ∧
      v.find path = .taken (t.locate path) (.file y) := by
  have htouched := persistAll_touches hs hbefore
  have hnode := (FileTree.find_taken hfind).2
  have hstraight := isStraight_root_of_find htarget hfind
  obtain ⟨y, hy⟩ := htouched.growsTo.file _ x hnode
  refine ⟨y, ?_, FileTree.find_of_growsTo htouched.growsTo (by rw [hfind]; rfl) hy⟩
  have hleaves := persistAll_leaves (l := t.locate path) hs hbefore fun w hw _ =>
    (isStraight_iff_of_target (hroot w hw)).mpr hstraight
  cases hleaves with
  | text _ text =>
    rw [← FileTree.text?_eq_some_iff.mpr hnode, ← text, FileTree.text?_eq_some_iff.mpr hy]
  | directory directory _ =>
    rw [hy] at directory
    cases directory

theorem foresee_eq_iff (hs : t.Sound) (hroot : ∀ w ∈ before, w.1.target root = .ok w.2)
    (htarget : a.target root = .ok path) (hbefore : runOn (persistAll before) t = (.ok os, v))
    (hdry : a.foresee path (t.find path).node? = .ok p)
    (hreal : runOn (a.persist path) v = (.ok o, u)) :
    p = o ↔ Foreseeable t before a path := by
  obtain ⟨hforesee, -⟩ := persist_eq_ok_iff.mp hreal
  have hg := (persistAll_touches hs hbefore).growsTo
  have hmissing (hnone : (t.find path).node? = none) : p = o ↔ Foreseeable t before a path := by
    obtain rfl := (foresee_eq_created_iff hdry).mpr hnone
    rw [eq_comm, foresee_eq_created_iff hforesee,
      node?_find_eq_none_iff_of_persistAll hs hroot htarget hbefore hreal hnone, Foreseeable, hnone]
  cases hfind : t.find path with
  | taken l node =>
    obtain ⟨rfl, hnode⟩ := FileTree.find_taken hfind
    cases node with
    | directory =>
      have hlater := FileTree.find_of_growsTo hg (by rw [hfind]; rfl) (hg.directory _ hnode)
      rw [hlater] at hforesee
      rw [hfind] at hdry
      have hsame : p = o := Except.ok.inj (hdry.symm.trans hforesee)
      simp [Foreseeable, hfind, FileTree.Place.node?, hsame]
    | file x =>
      obtain ⟨y, hy, hlater⟩ := find_of_persistAll hs hroot htarget hbefore hfind
      rw [hlater, FileTree.Place.node?, foresee_file] at hforesee
      rw [hfind, FileTree.Place.node?, foresee_file] at hdry
      obtain rfl := Except.ok.inj hforesee
      obtain rfl := Except.ok.inj hdry
      rw [outcomeOn_eq_iff]
      simp [Foreseeable, hfind, FileTree.Place.node?, hy]
  | free l => exact hmissing (by rw [hfind]; rfl)
  | missing => exact hmissing (by rw [hfind]; rfl)
  | blocked => exact hmissing (by rw [hfind]; rfl)

theorem foresee_all_eq_iff (hs : t.Sound)
    (hroot : ∀ w ∈ before ++ writes, w.1.target root = .ok w.2)
    (hbefore : runOn (persistAll before) t = (.ok os, v))
    (hdry : writes.mapM (fun w => w.1.foresee w.2 (t.find w.2).node?) = .ok ps)
    {qs : List Outcome} (hreal : runOn (persistAll writes) v = (.ok qs, u)) :
    ps = qs ↔ ∀ more a path after, writes = more ++ (a, path) :: after →
      Foreseeable t (before ++ more) a path := by
  induction writes generalizing before v os ps qs with
  | nil =>
    obtain rfl := Except.ok.inj hdry
    obtain ⟨hqs, -⟩ := Prod.mk.inj hreal
    obtain rfl := Except.ok.inj hqs
    simp
  | cons w writes ih =>
    obtain ⟨a, path⟩ := w
    rw [List.mapM_cons] at hdry
    obtain ⟨p, hp, hdry⟩ := bind_eq_ok_iff.mp hdry
    obtain ⟨ps, hps, hdry⟩ := bind_eq_ok_iff.mp hdry
    obtain rfl := Except.ok.inj hdry
    obtain ⟨q, v', qs, hq, hqs, rfl⟩ := persistAll_cons_eq_ok_iff.mp hreal
    have hfirst := foresee_eq_iff hs (fun w hw => hroot w (List.mem_append_left _ hw))
      (hroot (a, path) (by simp)) hbefore hp hq
    have hroot' : ∀ w ∈ (before ++ [(a, path)]) ++ writes, w.1.target root = .ok w.2 := by
      simpa using hroot
    have hrest := ih hroot' (persistAll_concat_eq_ok hbefore hq) hps hqs
    rw [List.cons.injEq, hfirst, hrest]
    constructor
    · rintro ⟨hpath, hpaths⟩ more b target after hsplit
      cases more with
      | nil =>
        obtain ⟨⟨⟩, -⟩ := List.cons.inj hsplit
        simpa using hpath
      | cons w more =>
        obtain ⟨rfl, hwrites⟩ := List.cons.inj hsplit
        simpa using hpaths more b target after hwrites
    · intro h
      refine ⟨by simpa using h [] a path writes rfl, fun more b target after hwrites => ?_⟩
      simpa using h ((a, path) :: more) b target after (by simp [hwrites])

end Artifact

namespace Generate

variable {d : Declaration} {c : Config} {out : String} {t t' u : FileTree}
  {ws : List (Artifact × String)} {os ps : List Outcome} {s r : Summary}

theorem runOn_outcomes_true_eq_ok_iff :
    runOn (outcomes true ws) t = (.ok os, u) ↔
      u = t ∧ ws.mapM (fun w => w.1.foresee w.2 (t.find w.2).node?) = .ok os := by
  unfold outcomes
  induction ws generalizing os with
  | nil =>
    constructor
    · intro h
      obtain ⟨hos, rfl⟩ := Prod.mk.inj h
      exact ⟨rfl, hos⟩
    · rintro ⟨rfl, hos⟩
      exact Prod.ext hos rfl
  | cons w ws ih =>
    rw [runOn_mapM_cons_eq_ok_iff, List.mapM_cons, bind_eq_ok_iff]
    simp only [if_true, Artifact.runOn_plan, Prod.mk.injEq]
    constructor
    · rintro ⟨o, v, rest, ⟨ho, rfl⟩, hrest, rfl⟩
      obtain ⟨rfl, hrest⟩ := ih.mp hrest
      exact ⟨rfl, o, ho, bind_eq_ok_iff.mpr ⟨rest, hrest, rfl⟩⟩
    · rintro ⟨rfl, o, ho, hos⟩
      obtain ⟨rest, hrest, hos⟩ := bind_eq_ok_iff.mp hos
      exact ⟨o, u, rest, ⟨ho, rfl⟩, ih.mpr ⟨rfl, hrest⟩, (Except.ok.inj hos).symm⟩

theorem length_of_outcomes {dryRun : Bool} (h : runOn (outcomes dryRun ws) t = (.ok os, u)) :
    os.length = ws.length := by
  unfold outcomes at h
  induction ws generalizing t os with
  | nil =>
    obtain ⟨hos, -⟩ := Prod.mk.inj h
    obtain rfl := Except.ok.inj hos
    rfl
  | cons w ws ih =>
    obtain ⟨o, v, rest, -, hrest, rfl⟩ := runOn_mapM_cons_eq_ok_iff.mp h
    simp [ih hrest]

theorem map_entriesOf (h : os.length = ws.length) :
    (entriesOf ws os).map (fun e => (e.path, e.bytes)) =
      ws.map fun w => (w.2, w.1.content.utf8ByteSize) := by
  rw [entriesOf, List.map_map]
  calc (ws.zip os).map ((fun e => (e.path, e.bytes)) ∘ fun x => entry x.1 x.2)
      = ((ws.zip os).map Prod.fst).map fun w => (w.2, w.1.content.utf8ByteSize) := by
        rw [List.map_map]
        rfl
    _ = ws.map fun w => (w.2, w.1.content.utf8ByteSize) := by
        rw [List.map_fst_zip (by omega)]

theorem map_outcome_entriesOf (h : os.length = ws.length) :
    (entriesOf ws os).map (·.outcome) = os := by
  rw [entriesOf, List.map_map]
  exact List.map_snd_zip (by omega)

theorem entriesOf_inj (hos : os.length = ws.length) (hps : ps.length = ws.length) :
    entriesOf ws os = entriesOf ws ps ↔ os = ps := by
  refine ⟨fun h => ?_, congrArg (entriesOf ws)⟩
  rw [← map_outcome_entriesOf hos, h, map_outcome_entriesOf hps]

/-- A dry run lists the artifacts that a real run lists, and it foretells their outcomes exactly if
each is foreseeable. -/
theorem dryRun_foretells_iff (hs : t.Sound) (hdry : runOn (run d c out true) t = (.ok s, t'))
    (hreal : runOn (run d c out false) t = (.ok r, u)) :
    ∃ ws, writes d c out = .ok ws ∧
      s.entries.map (fun e => (e.path, e.bytes)) = r.entries.map (fun e => (e.path, e.bytes)) ∧
      (s.entries = r.entries ↔ ∀ before a path after, ws = before ++ (a, path) :: after →
        Artifact.Foreseeable t before a path) := by
  obtain ⟨ws, os, hws, hos, hs'⟩ := exists_run_eq_ok_iff.mp ⟨s, hdry, rfl⟩
  obtain ⟨ws', ps, hws', hps, hr'⟩ := exists_run_eq_ok_iff.mp ⟨r, hreal, rfl⟩
  obtain rfl := Except.ok.inj (hws.symm.trans hws')
  have hlength := length_of_outcomes hos
  have hlength' := length_of_outcomes hps
  refine ⟨ws, hws, ?_, ?_⟩
  · rw [hs', hr', map_entriesOf hlength, map_entriesOf hlength']
  · obtain ⟨-, hforesee⟩ := runOn_outcomes_true_eq_ok_iff.mp hos
    rw [hs', hr', entriesOf_inj hlength hlength']
    have hnothing : runOn (Artifact.persistAll []) t = (.ok [], t) := rfl
    exact Artifact.foresee_all_eq_iff hs (target_of_mem_writes hws) hnothing hforesee hps

theorem dryRun_foretells_keptNote :
    (treeWithNote "a").Sound ∧
      runOn (run noteService (twoNotes false false) "out" true) (treeWithNote "a") =
        (.ok (noteSummary true .skipped .skipped), treeWithNote "a") ∧
      runOn (run noteService (twoNotes false false) "out" false) (treeWithNote "a") =
        (.ok (noteSummary false .skipped .skipped), treeWithNote "a") ∧
      ∃ ws, writes noteService (twoNotes false false) "out" = .ok ws ∧
        (noteSummary true .skipped .skipped).entries.map (fun e => (e.path, e.bytes)) =
          (noteSummary false .skipped .skipped).entries.map (fun e => (e.path, e.bytes)) ∧
        ((noteSummary true .skipped .skipped).entries =
            (noteSummary false .skipped .skipped).entries ↔
          ∀ before a path after, ws = before ++ (a, path) :: after →
            Artifact.Foreseeable (treeWithNote "a") before a path) := by
  have hsound : (treeWithNote "a").Sound := by decide
  have hdry : runOn (run noteService (twoNotes false false) "out" true) (treeWithNote "a") =
      (.ok (noteSummary true .skipped .skipped), treeWithNote "a") := by decide +kernel
  have hreal : runOn (run noteService (twoNotes false false) "out" false) (treeWithNote "a") =
      (.ok (noteSummary false .skipped .skipped), treeWithNote "a") := by decide +kernel
  exact ⟨hsound, hdry, hreal, dryRun_foretells_iff hsound hdry hreal⟩

/-- Of two artifacts of one missing file a dry run says twice that it would be made. -/
theorem dryRun_mistakes_secondNote :
    runOn (run noteService (twoNotes false false) "out" true) FileTree.scratch =
        (.ok (noteSummary true .created .created), FileTree.scratch) ∧
      runOn (run noteService (twoNotes false false) "out" false) FileTree.scratch =
        (.ok (noteSummary false .created .skipped), treeWithNote "a") ∧
      (noteSummary true .created .created).entries ≠
        (noteSummary false .created .skipped).entries := by
  decide +kernel

end Generate

end ServiceLoom

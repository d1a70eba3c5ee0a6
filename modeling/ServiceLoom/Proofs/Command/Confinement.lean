import ServiceLoom.Proofs.Command.DryRun
import ServiceLoom.Proofs.Recipe.Report

/-!
# Runs stay in their root

All targets are checked before the first artifact is written. So one path that leads out of the root
ends a run before anything is done to the files, wherever its artifact stands among the others, and
a run that goes through changes no text but those of its targets, which lie below the root.
Directories may be made on the way to the root itself.
-/

namespace ServiceLoom.Generate

variable {d : Declaration} {c : Config} {out : String} {dryRun : Bool} {t u : FileTree}
  {a : Artifact} {as : List Artifact} {ws : List (Artifact × String)} {s : Summary}

/-- Some recipe makes the artifact of the service of some interface. -/
def Makes (d : Declaration) (c : Config) (a : Artifact) : Prop :=
  ∃ book, c.book = .ok book ∧ ∃ i ∈ d.interfaces, ∃ service,
    c.builder.buildIn d.package i = .ok service ∧
      ∃ entry ∈ book.recipes, entry.2.generate service = .ok (some a)

theorem Census.mem_services_of_iff {b : Builder} {service : Service} :
    service ∈ (Census.of b d).services ↔
      ∃ i ∈ d.interfaces, b.buildIn d.package i = .ok service := by
  rw [Census.of_eq]
  simp only [Declaration.models, List.mem_filterMap]
  refine exists_congr fun i => and_congr_right fun _ => ?_
  cases b.buildIn d.package i <;> simp [Except.toOption]

theorem makes_iff {book : RecipeBook} (h : c.book = .ok book) :
    Makes d c a ↔ a ∈ (book.generateAll (Census.of c.builder d).services).artifacts := by
  rw [RecipeBook.mem_artifacts_generateAll_iff]
  constructor
  · rintro ⟨book', hbook, i, hi, service, hbuilt, hentry⟩
    obtain rfl := Except.ok.inj (h.symm.trans hbook)
    exact ⟨service, Census.mem_services_of_iff.mpr ⟨i, hi, hbuilt⟩, hentry⟩
  · rintro ⟨service, hservice, hentry⟩
    obtain ⟨i, hi, hbuilt⟩ := Census.mem_services_of_iff.mp hservice
    exact ⟨book, h, i, hi, service, hbuilt, hentry⟩

theorem targets_eq_error (out : String) (ha : a ∈ as) (h : ¬ FilePath.IsInward a.relativePath) :
    ∃ b ∈ as, ∃ component, ¬ FilePath.IsInward b.relativePath ∧
      targets out as = .error ⟨[.confine out], .escape b.relativePath component⟩ := by
  suffices hmapM : ∃ b ∈ as, ∃ component, ¬ FilePath.IsInward b.relativePath ∧
      as.mapM (fun b => do return (b, ← b.target out)) =
        (.error ⟨[], .escape b.relativePath component⟩ : Except Abort (List (Artifact × String))) by
    obtain ⟨b, hb, component, houtward, hmapM⟩ := hmapM
    exact ⟨b, hb, component, houtward, by rw [targets, hmapM]; rfl⟩
  -- the check stops at the first outward path, which need not be the one of `a`
  induction as with
  | nil => cases ha
  | cons first rest ih =>
    rw [List.mapM_cons]
    by_cases hfirst : FilePath.IsInward first.relativePath
    · have hrest : a ∈ rest := by
        rcases List.mem_cons.mp ha with rfl | ha
        · exact absurd hfirst h
        · exact ha
      obtain ⟨b, hb, component, houtward, hmapM⟩ := ih hrest
      refine ⟨b, List.mem_cons_of_mem first hb, component, houtward, ?_⟩
      rw [Artifact.target_eq_ok_iff.mpr ⟨hfirst, rfl⟩, hmapM]
      rfl
    · obtain ⟨component, htarget⟩ := Artifact.target_eq_error_of_not_isInward out hfirst
      refine ⟨first, List.mem_cons_self, component, hfirst, ?_⟩
      rw [htarget]
      rfl

theorem run_of_outward (t : FileTree) (dryRun : Bool) (ha : Makes d c a)
    (h : ¬ FilePath.IsInward a.relativePath) :
    ∃ b, Makes d c b ∧ ¬ FilePath.IsInward b.relativePath ∧ ∃ component,
      runOn (run d c out dryRun) t =
        (.error ⟨[.confine out], .escape b.relativePath component⟩, t) := by
  have hbook := ha
  obtain ⟨book, hbook, -⟩ := hbook
  rw [makes_iff hbook] at ha
  obtain ⟨b, hb, component, houtward, htargets⟩ := targets_eq_error out ha h
  refine ⟨b, (makes_iff hbook).mpr hb, houtward, component, ?_⟩
  rw [run, hbook, runOn_bind]
  simp only [Abort.ofError, runOn_liftM]
  rw [htargets, runOn_bind, runOn_liftM]

theorem makes_of_mem_writes (h : writes d c out = .ok ws) {w : Artifact × String} (hw : w ∈ ws) :
    Makes d c w.1 := by
  obtain ⟨book, hbook, htargets⟩ := bind_eq_ok_iff.mp h
  rw [makes_iff (Abort.ofError_eq_ok_iff.mp hbook)]
  unfold targets Abort.during at htargets
  split at htargets
  · rename_i ws' hmapM
    obtain rfl := Except.ok.inj htargets
    obtain ⟨a, ha, hpair⟩ := exists_of_mem_mapM hmapM hw
    obtain ⟨path, -, hpure⟩ := bind_eq_ok_iff.mp hpair
    obtain rfl := Except.ok.inj hpure
    exact ha
  · cases htargets

theorem exists_entry_of_text?_ne (hs : t.Sound)
    (h : runOn (run d c out dryRun) t = (.ok s, u)) {l : Location} (hl : u.text? l ≠ t.text? l) :
    ∃ e ∈ s.entries, ∃ a, Makes d c a ∧ a.target out = .ok e.path ∧ t.locate e.path = l := by
  obtain ⟨ws, os, hws, hos, hentries⟩ := exists_run_eq_ok_iff.mp ⟨s, h, rfl⟩
  cases dryRun with
  | true =>
    obtain ⟨rfl, -⟩ := runOn_outcomes_true_eq_ok_iff.mp hos
    exact absurd rfl hl
  | false =>
    have htouched := Artifact.persistAll_touches hs hos
    have hpath : ∃ path ∈ ws.map (·.2), t.locate path = l := by
      by_contra hnone
      exact hl (htouched.text?_eq l fun path hpath heq => hnone ⟨path, hpath, heq⟩)
    obtain ⟨path, hpath, hlocate⟩ := hpath
    obtain ⟨w, hw, rfl⟩ := List.mem_map.mp hpath
    have hmem : (w.2, w.1.content.utf8ByteSize) ∈
        s.entries.map (fun e => (e.path, e.bytes)) := by
      rw [hentries, map_entriesOf (length_of_outcomes hos)]
      exact List.mem_map.mpr ⟨w, hw, rfl⟩
    obtain ⟨e, he, heq⟩ := List.mem_map.mp hmem
    obtain ⟨hepath, -⟩ := Prod.mk.inj heq
    rw [← hepath] at hlocate
    exact ⟨e, he, w.1, makes_of_mem_writes hws hw, hepath ▸ target_of_mem_writes hws w hw, hlocate⟩

/-- Targets are confined to the root, an outward path stops a run before it changes anything, and a
run that goes through changes the texts of targets only. -/
theorem run_confined (hs : t.Sound) (d : Declaration) (c : Config) (out : String) (dryRun : Bool) :
    (∀ a : Artifact,
      ((∃ path, a.target out = .ok path) ↔ FilePath.IsInward a.relativePath) ∧
      ∀ path, a.target out = .ok path → FilePath.ownComponents path =
        FilePath.ownComponents out ++
          (FilePath.components a.relativePath).filter FilePath.Component.isNormal) ∧
    (∀ a, Makes d c a → ¬ FilePath.IsInward a.relativePath →
      ∃ b, Makes d c b ∧ ¬ FilePath.IsInward b.relativePath ∧ ∃ component,
        runOn (run d c out dryRun) t =
          (.error ⟨[.confine out], .escape b.relativePath component⟩, t)) ∧
    ∀ s u, runOn (run d c out dryRun) t = (.ok s, u) → ∀ l, u.text? l ≠ t.text? l →
      t.locate out <+: l ∧
        ∃ e ∈ s.entries, ∃ a, Makes d c a ∧ a.target out = .ok e.path ∧ t.locate e.path = l := by
  refine ⟨fun a => ⟨⟨?_, fun h => ⟨_, Artifact.target_eq_ok_iff.mpr ⟨h, rfl⟩⟩⟩, fun path h => ?_⟩,
    fun a ha h => run_of_outward t dryRun ha h, fun s u h l hl => ?_⟩
  · rintro ⟨path, h⟩
    exact (Artifact.target_eq_ok_iff.mp h).1
  · exact Artifact.ownComponents_target h
  · obtain ⟨e, he, a, ha, htarget, rfl⟩ := exists_entry_of_text?_ne hs h hl
    exact ⟨Artifact.isPrefix_locate_target htarget, e, he, a, ha, htarget, rfl⟩

section Notes

def strayNotes : Config where
  artifacts := [
    { name := "first", file := "note", serviceTemplate := some "a" },
    { name := "second", path := packageMark, file := "note", serviceTemplate := some "b" }]

def upwardService : Declaration :=
  { package := "../notes", interfaces := [{ name := "NoteService" }] }

def strayArtifact : Artifact := ⟨⟨"go", "../notes", "note", false, false⟩, "b"⟩

def newNote : Location := ["scratch", "out", "note"]

theorem makes_of_artifacts
    (h : c.book.map (·.generateAll (Census.of c.builder d).services) = .ok ⟨as, []⟩)
    (ha : a ∈ as) : Makes d c a := by
  cases hbook : c.book with
  | error e => simp [hbook, Except.map] at h
  | ok book =>
    rw [hbook, Except.map] at h
    rw [makes_iff hbook, Except.ok.inj h]
    exact ha

theorem run_confined_notes :
    FileTree.scratch.Sound ∧
      (Makes upwardService strayNotes strayArtifact ∧
        ¬ FilePath.IsInward strayArtifact.relativePath ∧
        ∃ b, Makes upwardService strayNotes b ∧ ¬ FilePath.IsInward b.relativePath ∧
          ∃ component, runOn (run upwardService strayNotes "out" false) FileTree.scratch =
            (.error ⟨[.confine "out"], .escape b.relativePath component⟩, FileTree.scratch)) ∧
      runOn (run noteService (twoNotes true true) "out" false) FileTree.scratch =
        (.ok (noteSummary false .created .merged), treeWithNote "ab") ∧
      (treeWithNote "ab").text? newNote ≠ FileTree.scratch.text? newNote ∧
      FileTree.scratch.locate "out" <+: newNote ∧
      ∃ e ∈ (noteSummary false .created .merged).entries, ∃ a,
        Makes noteService (twoNotes true true) a ∧ a.target "out" = .ok e.path ∧
          FileTree.scratch.locate e.path = newNote := by
  have hsound : FileTree.scratch.Sound := by decide
  have hmakes : Makes upwardService strayNotes strayArtifact := by
    have hreport : strayNotes.book.map
        (·.generateAll (Census.of strayNotes.builder upwardService).services) =
        .ok ⟨[⟨⟨"go", "", "note", false, false⟩, "a"⟩, strayArtifact], []⟩ := by decide
    exact makes_of_artifacts hreport (by simp)
  have houtward : ¬ FilePath.IsInward strayArtifact.relativePath := by decide +kernel
  have hchanged : (treeWithNote "ab").text? newNote ≠ FileTree.scratch.text? newNote := by
    decide
  obtain ⟨-, hstray, -⟩ := run_confined hsound upwardService strayNotes "out" false
  obtain ⟨-, -, hwritten⟩ := run_confined hsound noteService (twoNotes true true) "out" false
  exact ⟨hsound, ⟨hmakes, houtward, hstray _ hmakes houtward⟩, run_newNote,
    hchanged, hwritten _ _ run_newNote _ hchanged⟩

end Notes

end ServiceLoom.Generate

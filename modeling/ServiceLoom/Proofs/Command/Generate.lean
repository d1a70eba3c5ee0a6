import ServiceLoom.Command.Generate
import ServiceLoom.Proofs.Artifact.Rerun
import ServiceLoom.Proofs.Command.Census

/-!
# Runs of the generator

A declaration, a configuration and a root determine which artifacts are made and where they go; the
files have no part in it. What is left of a run is one round over the targets, dry or not.
-/

namespace ServiceLoom

theorem Abort.ofError_eq_ok_iff {α : Type} {activity : Activity} {x : Except Error α} {a : α} :
    ofError activity x = .ok a ↔ x = .ok a := by
  cases x <;> simp [ofError]

namespace Generate

/-- The artifacts of a declaration with their targets. -/
def writes (d : Declaration) (c : Config) (out : String) :
    Except Abort (List (Artifact × String)) := do
  let book ← Abort.ofError .prepareArtifacts c.book
  targets out (book.generateAll (Census.of c.builder d).services).artifacts

/-- What is said about every target after one round over them. -/
def outcomes {m : Type → Type} [Monad m] [FileSystem m] (dryRun : Bool)
    (ws : List (Artifact × String)) : ExceptT Abort m (List Outcome) :=
  ws.mapM fun w => if dryRun then w.1.plan w.2 else w.1.persist w.2

def entry (w : Artifact × String) (o : Outcome) : Entry := ⟨w.2, o, w.1.content.utf8ByteSize⟩

def entriesOf (ws : List (Artifact × String)) (os : List Outcome) : List Entry :=
  (ws.zip os).map fun x => entry x.1 x.2

variable {d : Declaration} {c : Config} {out : String} {dryRun : Bool} {t u : FileTree}
  {ws : List (Artifact × String)} {entries : List Entry}

theorem target_of_mem_writes (h : writes d c out = .ok ws) :
    ∀ w ∈ ws, w.1.target out = .ok w.2 := by
  intro w hw
  obtain ⟨book, -, htargets⟩ := bind_eq_ok_iff.mp h
  unfold targets Abort.during at htargets
  split at htargets
  · rename_i ws' hmapM
    obtain rfl := Except.ok.inj htargets
    obtain ⟨a, -, ha⟩ := exists_of_mem_mapM hmapM hw
    obtain ⟨path, hpath, hpure⟩ := bind_eq_ok_iff.mp ha
    obtain rfl := Except.ok.inj hpure
    exact hpath
  · cases htargets

theorem runOn_emit_eq_ok_iff {w : Artifact × String} {e : Entry} :
    runOn (emit dryRun w.1 w.2) t = (.ok e, u) ↔
      ∃ o, runOn (if dryRun then w.1.plan w.2 else w.1.persist w.2) t = (.ok o, u) ∧
        e = entry w o := by
  have hbind : emit dryRun w.1 w.2 =
      ((if dryRun then w.1.plan w.2 else w.1.persist w.2) >>= fun o => pure (entry w o) :
        ExceptT Abort (StateM FileTree) Entry) := by
    cases dryRun <;> rfl
  simp only [hbind, runOn_bind_eq_ok_iff, runOn_pure, Prod.mk.injEq, Except.ok.injEq]
  constructor
  · rintro ⟨o, v, ho, rfl, rfl⟩
    exact ⟨o, ho, rfl⟩
  · rintro ⟨o, ho, rfl⟩
    exact ⟨o, u, ho, rfl, rfl⟩

theorem runOn_emits_eq_ok_iff :
    runOn (ws.mapM fun w => emit dryRun w.1 w.2) t = (.ok entries, u) ↔
      ∃ os, runOn (outcomes dryRun ws) t = (.ok os, u) ∧ entries = entriesOf ws os := by
  unfold outcomes
  induction ws generalizing t entries with
  | nil => simp [entriesOf, and_comm, eq_comm]
  | cons w ws ih =>
    simp only [runOn_mapM_cons_eq_ok_iff, runOn_emit_eq_ok_iff, ih]
    constructor
    · rintro ⟨e, v, rest, ⟨o, ho, rfl⟩, ⟨os, hos, rfl⟩, rfl⟩
      exact ⟨o :: os, ⟨o, v, os, ho, hos, rfl⟩, rfl⟩
    · rintro ⟨os, ⟨o, v, os, ho, hos, rfl⟩, rfl⟩
      exact ⟨entry w o, v, _, ⟨o, ho, rfl⟩, ⟨os, hos, rfl⟩, rfl⟩

theorem runOn_run_eq_ok_iff {s : Summary} :
    runOn (run d c out dryRun) t = (.ok s, u) ↔ ∃ book ws entries, c.book = .ok book ∧
      targets out (book.generateAll (d.models c.builder)).artifacts = .ok ws ∧
      runOn (ws.mapM fun w => emit dryRun w.1 w.2) t = (.ok entries, u) ∧
      s = ⟨(d.models c.builder).map (·.name), entries, d.refusals c.builder,
        (book.generateAll (d.models c.builder)).failures, dryRun⟩ := by
  simp only [run, runOn_bind_eq_ok_iff, runOn_liftM, runOn_pure, Prod.mk.injEq, Except.ok.injEq,
    Abort.ofError_eq_ok_iff, Census.of_eq]
  constructor
  · rintro ⟨book, _, ⟨hbook, rfl⟩, ws, _, ⟨hws, rfl⟩, entries, _, hentries, rfl, rfl⟩
    exact ⟨book, ws, entries, hbook, hws, hentries, rfl⟩
  · rintro ⟨book, ws, entries, hbook, hws, hentries, rfl⟩
    exact ⟨book, t, ⟨hbook, rfl⟩, ws, t, ⟨hws, rfl⟩, entries, u, hentries, rfl, rfl⟩

theorem exists_run_eq_ok_iff :
    (∃ s, runOn (run d c out dryRun) t = (.ok s, u) ∧ s.entries = entries) ↔
      ∃ ws os, writes d c out = .ok ws ∧ runOn (outcomes dryRun ws) t = (.ok os, u) ∧
        entries = entriesOf ws os := by
  simp only [runOn_run_eq_ok_iff, runOn_emits_eq_ok_iff, writes, bind_eq_ok_iff,
    Abort.ofError_eq_ok_iff, Census.of_eq]
  constructor
  · rintro ⟨s, ⟨book, ws, es, hbook, hws, ⟨os, hos, rfl⟩, rfl⟩, rfl⟩
    exact ⟨ws, os, ⟨book, hbook, hws⟩, hos, rfl⟩
  · rintro ⟨ws, os, ⟨book, hbook, hws⟩, hos, rfl⟩
    exact ⟨_, ⟨book, ws, _, hbook, hws, ⟨os, hos, rfl⟩, rfl⟩, rfl⟩

/-- A run that went through can be repeated, and leaves every node as it is. -/
theorem run_again {s : Summary} (hs : t.Sound)
    (h : runOn (run d c out false) t = (.ok s, u)) :
    ∃ s' v, runOn (run d c out false) u = (.ok s', v) ∧ ∀ l, v.node? l = u.node? l := by
  obtain ⟨ws, os, hws, hos, -⟩ := exists_run_eq_ok_iff.mp ⟨s, h, rfl⟩
  obtain ⟨os', v, hpersist, hv⟩ := Artifact.persistAll_again hs (target_of_mem_writes hws) hos
  have hagain : runOn (outcomes false ws) u = (.ok os', v) := hpersist
  obtain ⟨s', hs', -⟩ := exists_run_eq_ok_iff.mpr ⟨ws, os', hws, hagain, rfl⟩
  exact ⟨s', v, hs', hv⟩

section Notes

def noteService : Declaration := { package := "notes", interfaces := [{ name := "NoteService" }] }

def twoNotes (overwrite merge : Bool) : Config where
  artifacts := [
    { name := "first", file := "note", serviceTemplate := some "a", overwrite := overwrite },
    { name := "second", file := "note", serviceTemplate := some "b", merge := merge }]

def noteSummary (dryRun : Bool) (first second : Outcome) : Summary where
  services := ["NoteService"]
  entries := [⟨"out/note", first, 1⟩, ⟨"out/note", second, 1⟩]
  dryRun := dryRun

def treeWithNote (text : String) : FileTree :=
  ⟨[(["scratch"], none), (["scratch", "out"], none), (["scratch", "out", "note"], some text)],
    ["scratch"]⟩

theorem run_newNote :
    runOn (run noteService (twoNotes true true) "out" false) FileTree.scratch =
      (.ok (noteSummary false .created .merged), treeWithNote "ab") := by
  decide +kernel

theorem run_again_notes :
    FileTree.scratch.Sound ∧
      runOn (run noteService (twoNotes true true) "out" false) FileTree.scratch =
        (.ok (noteSummary false .created .merged), treeWithNote "ab") ∧
      ∃ s' v, runOn (run noteService (twoNotes true true) "out" false) (treeWithNote "ab") =
        (.ok s', v) ∧ ∀ l, v.node? l = (treeWithNote "ab").node? l := by
  have hsound : FileTree.scratch.Sound := by decide
  exact ⟨hsound, run_newNote, run_again hsound run_newNote⟩

end Notes

end Generate

end ServiceLoom

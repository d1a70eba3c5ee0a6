import ServiceLoom.Proofs.Command.Census
import ServiceLoom.Proofs.Command.Generate

/-!
# Generating and inspecting agree

Both commands load the same inputs and ask the same builder. A run of the generator that goes
through does with a declaration what it would do without the interfaces that are rejected, and lists
these besides; an inspection shows the services that such a run works from, or ends with the first
interface on the list.
-/

namespace ServiceLoom

variable {t u : FileTree}

theorem Declaration.runOn_load (path : String) (t : FileTree) :
    ∃ x, runOn (Declaration.load path) t = (x, t) := by
  unfold Declaration.load
  rw [runOn_bind, FileTree.runOn_readText]
  cases t.readText? path with
  | none => exact ⟨_, rfl⟩
  | some source =>
    dsimp only
    cases Declaration.parse? source with
    | none => exact ⟨_, rfl⟩
    | some d => exact ⟨_, rfl⟩

theorem Config.runOn_load (path : Option String) (t : FileTree) :
    ∃ x, runOn (Config.load path) t = (x, t) := by
  cases path with
  | none => exact ⟨_, rfl⟩
  | some path =>
    unfold Config.load
    rw [runOn_bind, FileTree.runOn_readText]
    cases t.readText? path with
    | none => exact ⟨_, rfl⟩
    | some source => exact ⟨_, rfl⟩

namespace Generate

variable {d : Declaration} {c : Config} {out : String} {dryRun : Bool} {s : Summary}

theorem runOn_fromFiles_eq_ok_iff {declaration : String} {config : Option String} :
    runOn (fromFiles declaration config out dryRun) t = (.ok s, u) ↔ ∃ d c,
      runOn (Declaration.load declaration) t = (.ok d, t) ∧
        runOn (Config.load config) t = (.ok c, t) ∧ runOn (run d c out dryRun) t = (.ok s, u) := by
  obtain ⟨x, hx⟩ := Declaration.runOn_load declaration t
  obtain ⟨y, hy⟩ := Config.runOn_load config t
  simp only [fromFiles, runOn_bind_eq_ok_iff]
  constructor
  · rintro ⟨d, v, hd, c, w, hc, hrun⟩
    obtain ⟨rfl, rfl⟩ := Prod.mk.inj (hx.symm.trans hd)
    obtain ⟨rfl, rfl⟩ := Prod.mk.inj (hy.symm.trans hc)
    exact ⟨d, c, hx, hy, hrun⟩
  · rintro ⟨d, c, hd, hc, hrun⟩
    exact ⟨d, t, hd, c, t, hc, hrun⟩

theorem run_accepted (h : runOn (run d c out dryRun) t = (.ok s, u)) :
    runOn (run (d.accepted c.builder) c out dryRun) t = (.ok { s with rejections := [] }, u) := by
  obtain ⟨book, ws, entries, hbook, hws, hentries, rfl⟩ := runOn_run_eq_ok_iff.mp h
  rw [← Declaration.models_accepted] at hws
  refine runOn_run_eq_ok_iff.mpr ⟨book, ws, entries, hbook, hws, hentries, ?_⟩
  rw [Declaration.models_accepted, Declaration.refusals_accepted]

theorem exitCode_eq_invalidInput_iff : s.exitCode = .invalidInput ↔ s.rejections ≠ [] := by
  unfold Summary.exitCode
  cases s.rejections <;> cases s.failures <;> simp

theorem exitCode_eq_incomplete_iff :
    s.exitCode = .incomplete ↔ s.rejections = [] ∧ s.failures ≠ [] := by
  unfold Summary.exitCode
  cases s.rejections <;> cases s.failures <;> simp

theorem exitCode_eq_success_iff :
    s.exitCode = .success ↔ s.rejections = [] ∧ s.failures = [] := by
  unfold Summary.exitCode
  cases s.rejections <;> cases s.failures <;> simp

end Generate

namespace Inspect

theorem runOn_fromFiles {declaration : String} {config : Option String} {d : Declaration}
    {c : Config}
    (hd : runOn (Declaration.load declaration) t = (.ok d, t))
    (hc : runOn (Config.load config) t = (.ok c, t)) :
    runOn (fromFiles declaration config) t =
      (match d.refusals c.builder with
        | [] => .ok (d.models c.builder)
        | first :: _ => .error ⟨[.buildServices declaration], .error first.error⟩, t) := by
  simp only [fromFiles, runOn_bind, hd, hc, Builder.buildAll_eq, runOn_liftM]
  cases d.refusals c.builder <;> rfl

end Inspect

namespace Generate

variable {declaration : String} {config : Option String} {out : String} {dryRun : Bool}
  {s : Summary}

/-- What a run that goes through has to do with the other run and with the inspection that can be
made of the same inputs. -/
theorem fromFiles_agrees
    (h : runOn (fromFiles declaration config out dryRun) t = (.ok s, u)) :
    ∃ d c book ws, runOn (Declaration.load declaration) t = (.ok d, t) ∧
      runOn (Config.load config) t = (.ok c, t) ∧ c.book = .ok book ∧
      -- each interface is a service or a rejection
      s.services = (d.accepted c.builder).interfaces.map (·.name) ∧
      s.rejections = d.refusals c.builder ∧
      (s.services ++ s.rejections.map (·.interface)).Perm (d.interfaces.map (·.name)) ∧
      -- the rest is made of the services alone
      s.failures = (book.generateAll (d.models c.builder)).failures ∧
      targets out (book.generateAll (d.models c.builder)).artifacts = .ok ws ∧
      runOn (ws.mapM fun w => emit dryRun w.1 w.2) t = (.ok s.entries, u) ∧
      -- nothing else comes of the declaration without the rejected interfaces, wherever it is
      runOn (run (d.accepted c.builder) c out dryRun) t = (.ok { s with rejections := [] }, u) ∧
      (∀ other, runOn (Declaration.load other) t = (.ok (d.accepted c.builder), t) →
        runOn (fromFiles other config out dryRun) t = (.ok { s with rejections := [] }, u)) ∧
      runOn (Inspect.fromFiles declaration config) t =
        (match s.rejections with
          | [] => .ok (d.models c.builder)
          | first :: _ => .error ⟨[.buildServices declaration], .error first.error⟩, t) ∧
      (s.exitCode = .invalidInput ↔ s.rejections ≠ []) ∧
      (s.exitCode = .incomplete ↔ s.rejections = [] ∧ s.failures ≠ []) ∧
      (s.exitCode = .success ↔ s.rejections = [] ∧ s.failures = []) := by
  obtain ⟨d, c, hd, hc, hrun⟩ := runOn_fromFiles_eq_ok_iff.mp h
  have haccepted := run_accepted hrun
  obtain ⟨book, ws, entries, hbook, hws, hentries, rfl⟩ := runOn_run_eq_ok_iff.mp hrun
  refine ⟨d, c, book, ws, hd, hc, hbook, Declaration.names_models, rfl, Declaration.perm_names, rfl,
    hws, hentries, haccepted, fun other hother => ?_, Inspect.runOn_fromFiles hd hc,
    exitCode_eq_invalidInput_iff, exitCode_eq_incomplete_iff, exitCode_eq_success_iff⟩
  exact runOn_fromFiles_eq_ok_iff.mpr ⟨_, c, hother, hc, haccepted⟩

section Notes

/-- The first interface is not named like a service. -/
def mixedDeclaration : Declaration :=
  { noteService with interfaces := { name := "Pad" } :: noteService.interfaces }

def oneNote : Config where
  artifacts := [{ name := "list", file := "note", serviceTemplate := some "a" }]

def mixedText : String :=
  "\x7b\"package\": \"notes\", \"interfaces\": " ++
    "[\x7b\"name\": \"Pad\"\x7d, \x7b\"name\": \"NoteService\"\x7d]\x7d"

def keptText : String :=
  "\x7b\"package\": \"notes\", \"interfaces\": [\x7b\"name\": \"NoteService\"\x7d]\x7d"

def configText : String :=
  "[[artifacts]]\nname = \"list\"\nfile = \"note\"\nservice_template = \"a\""

/-- The files of the inputs, and more. -/
def treeWith (more : List (Location × Option String)) : FileTree :=
  ⟨[(["scratch"], none), (["scratch", "mixed"], some mixedText),
    (["scratch", "kept"], some keptText), (["scratch", "config"], some configText)] ++ more,
    ["scratch"]⟩

def writtenNote : FileTree :=
  treeWith [(["scratch", "out"], none), (["scratch", "out", "note"], some "a")]

def padRejection : Rejection :=
  ⟨"Pad", .invalidDeclaration "service Pad"
    "name must be an exported identifier ending in 'Service'"⟩

def keptSummary : Summary where
  services := ["NoteService"]
  entries := [⟨"out/note", .created, 1⟩]

theorem fromFiles_agrees_notes :
    runOn (fromFiles "mixed" (some "config") "out" false) (treeWith []) =
        (.ok { keptSummary with rejections := [padRejection] }, writtenNote) ∧
      runOn (Declaration.load "kept") (treeWith []) =
        (.ok (mixedDeclaration.accepted oneNote.builder), treeWith []) ∧
      runOn (fromFiles "kept" (some "config") "out" false) (treeWith []) =
        (.ok keptSummary, writtenNote) ∧
      runOn (Inspect.fromFiles "mixed" (some "config")) (treeWith []) =
        (.error ⟨[.buildServices "mixed"], .error padRejection.error⟩, treeWith []) ∧
      Summary.exitCode { keptSummary with rejections := [padRejection] } = .invalidInput := by
  have hmixed : runOn (Declaration.load "mixed") (treeWith []) =
      (.ok mixedDeclaration, treeWith []) := by decide +kernel
  have hconfig : runOn (Config.load (some "config")) (treeWith []) =
      (.ok oneNote, treeWith []) := by decide +kernel
  have hkept : runOn (Declaration.load "kept") (treeWith []) =
      (.ok (mixedDeclaration.accepted oneNote.builder), treeWith []) := by decide +kernel
  have hrun : runOn (fromFiles "mixed" (some "config") "out" false) (treeWith []) =
      (.ok { keptSummary with rejections := [padRejection] }, writtenNote) :=
    runOn_fromFiles_eq_ok_iff.mpr
      ⟨mixedDeclaration, oneNote, hmixed, hconfig, by decide +kernel⟩
  obtain ⟨d, c, _, _, hd, hc, -, -, -, -, -, -, -, -, hother, hinspect, hinvalid, -⟩ :=
    fromFiles_agrees hrun
  obtain rfl : mixedDeclaration = d := by simpa using hmixed.symm.trans hd
  obtain rfl : oneNote = c := by simpa using hconfig.symm.trans hc
  exact ⟨hrun, hkept, hother "kept" hkept, hinspect, hinvalid.mpr (by simp)⟩

end Notes

end Generate

end ServiceLoom

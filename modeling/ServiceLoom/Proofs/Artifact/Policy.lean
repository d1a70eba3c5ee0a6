import ServiceLoom.Artifact.Write

/-!
# What becomes of a text

The text of a file depends on the artifacts written to it alone, in their order. The last one that
overwrites decides the text, and every merging one after it is added unless it is in the text by
then. A text only grows by merging, so what has been merged stays in it, and a second round over the
same artifacts ends where the first one did.
-/

namespace ServiceLoom.Artifact

def isIn (a : Artifact) (x : String) : Bool := Text.occursIn a.content.toList x.toList

def extendText (x : String) (a : Artifact) : String :=
  if a.descriptor.merge && !a.isIn x then x ++ a.content else x

/-- A text after a round of artifacts that do not overwrite. -/
def extended (x : String) (as : List Artifact) : String := as.foldl extendText x

/-- The text of a file after one artifact; there is none where no file is. -/
def onto (a : Artifact) : Option String → String
  | none => a.content
  | some x => if a.descriptor.overwrite then a.content else extendText x a

def outcomeOn (a : Artifact) (x : String) : Outcome :=
  if a.descriptor.overwrite then .overwritten
  else if a.descriptor.merge then a.mergeOutcome x
  else .skipped

def replay (x : Option String) (as : List Artifact) : Option String :=
  as.foldl (fun x a => some (a.onto x)) x

variable {a : Artifact} {as : List Artifact} {x y : String}

section Extend

theorem isIn_iff : a.isIn x = true ↔ a.content.toList <:+: x.toList := by
  rw [isIn, Text.occursIn_iff]
  exact ⟨fun ⟨before, after, h⟩ => ⟨before, after, h.symm⟩,
    fun ⟨before, after, h⟩ => ⟨before, after, h.symm⟩⟩

theorem isIn_of_isPrefix (h : x.toList <+: y.toList) (ha : a.isIn x = true) : a.isIn y = true :=
  isIn_iff.mpr ((isIn_iff.mp ha).trans h.isInfix)

theorem isIn_content (a : Artifact) : a.isIn a.content = true := isIn_iff.mpr List.infix_rfl

theorem isPrefix_extendText (x : String) (a : Artifact) :
    x.toList <+: (extendText x a).toList := by
  unfold extendText
  split
  · rw [String.toList_append]
    exact List.prefix_append _ _
  · exact List.prefix_rfl

theorem isIn_extendText (h : a.descriptor.merge = true) : a.isIn (extendText x a) = true := by
  unfold extendText
  split
  · rw [isIn_iff, String.toList_append]
    exact (List.suffix_append _ _).isInfix
  · rename_i hin
    simpa [h] using hin

theorem extendText_eq_self (h : a.descriptor.merge = true → a.isIn x = true) :
    extendText x a = x := by
  unfold extendText
  cases hmerge : a.descriptor.merge with
  | false => rfl
  | true => simp [h hmerge]

theorem isPrefix_extended (x : String) (as : List Artifact) :
    x.toList <+: (extended x as).toList := by
  induction as generalizing x with
  | nil => exact List.prefix_rfl
  | cons a as ih => exact (isPrefix_extendText x a).trans (ih (extendText x a))

theorem isIn_extended (ha : a ∈ as) (h : a.descriptor.merge = true) :
    a.isIn (extended x as) = true := by
  induction as generalizing x with
  | nil => cases ha
  | cons b as ih =>
    rcases List.mem_cons.mp ha with rfl | ha
    · exact isIn_of_isPrefix (isPrefix_extended (extendText x a) as) (isIn_extendText h)
    · exact ih ha

theorem extended_eq_self (h : ∀ a ∈ as, a.descriptor.merge = true → a.isIn x = true) :
    extended x as = x := by
  induction as with
  | nil => rfl
  | cons a as ih =>
    obtain ⟨ha, has⟩ := List.forall_mem_cons.mp h
    rw [extended, List.foldl_cons, extendText_eq_self ha]
    exact ih has

end Extend

theorem mergeOutcome_eq (a : Artifact) (x : String) :
    a.mergeOutcome x = if a.isIn x then .unchanged else .merged := rfl

/-- A file is replaced, prolonged or kept, and its outcome says so. -/
theorem outcomeOn_cases (a : Artifact) (x : String) :
    (a.outcomeOn x = .overwritten ∧ a.onto (some x) = a.content ∧ a.descriptor.overwrite = true) ∨
      (a.outcomeOn x = .merged ∧ a.onto (some x) = x ++ a.content) ∨
      ((a.outcomeOn x = .unchanged ∨ a.outcomeOn x = .skipped) ∧ a.onto (some x) = x) := by
  unfold outcomeOn onto extendText
  cases a.descriptor.overwrite with
  | true => simp
  | false =>
    cases a.descriptor.merge with
    | false => simp
    | true =>
      cases hin : a.isIn x with
      | true => simp [mergeOutcome_eq, hin]
      | false => simp [mergeOutcome_eq, hin]

section Replay

theorem replay_append (x : Option String) (as bs : List Artifact) :
    replay x (as ++ bs) = replay (replay x as) bs := List.foldl_append

theorem exists_replay_eq (x : String) (as : List Artifact) : ∃ y, replay (some x) as = some y := by
  induction as generalizing x with
  | nil => exact ⟨x, rfl⟩
  | cons a as ih => exact ih (a.onto (some x))

theorem replay_of_gentle (h : ∀ a ∈ as, a.descriptor.overwrite = false) :
    replay (some x) as = some (extended x as) := by
  induction as generalizing x with
  | nil => rfl
  | cons a as ih =>
    obtain ⟨ha, has⟩ := List.forall_mem_cons.mp h
    calc replay (some x) (a :: as)
        = replay (some (extendText x a)) as := by simp [replay, onto, ha]
      _ = some (extended x (a :: as)) := ih has

theorem replay_of_overwrite (ha : a.descriptor.overwrite = true) (x : Option String)
    (before after : List Artifact) :
    replay x (before ++ a :: after) = replay (some a.content) after := by
  have honto (x : Option String) : a.onto x = a.content := by
    cases x with
    | none => rfl
    | some x => simp [onto, ha]
  rw [replay_append, replay, List.foldl_cons, honto]
  rfl

theorem exists_last_overwrite (h : ∃ a ∈ as, a.descriptor.overwrite = true) :
    ∃ before a after, as = before ++ a :: after ∧ a.descriptor.overwrite = true ∧
      ∀ b ∈ after, b.descriptor.overwrite = false := by
  induction as with
  | nil => simp at h
  | cons b as ih =>
    by_cases hlater : ∃ a ∈ as, a.descriptor.overwrite = true
    · obtain ⟨before, a, after, rfl, ha, hafter⟩ := ih hlater
      exact ⟨b :: before, a, after, rfl, ha, hafter⟩
    · obtain ⟨a, ha, hover⟩ := h
      rcases List.mem_cons.mp ha with rfl | ha
      · refine ⟨[], a, as, rfl, hover, fun c hc => ?_⟩
        exact Bool.eq_false_iff.mpr fun hc' => hlater ⟨c, hc, hc'⟩
      · exact absurd ⟨a, ha, hover⟩ hlater

theorem replay_replay (x : Option String) (as : List Artifact) :
    replay (replay x as) as = replay x as := by
  by_cases hover : ∃ a ∈ as, a.descriptor.overwrite = true
  · obtain ⟨before, a, after, rfl, ha, -⟩ := exists_last_overwrite hover
    rw [replay_of_overwrite ha, replay_of_overwrite ha]
  · have hgentle : ∀ a ∈ as, a.descriptor.overwrite = false := fun a ha =>
      Bool.eq_false_iff.mpr fun h => hover ⟨a, ha, h⟩
    cases x with
    | some x =>
      rw [replay_of_gentle hgentle, replay_of_gentle hgentle]
      exact congrArg some (extended_eq_self fun a ha hmerge => isIn_extended ha hmerge)
    | none =>
      cases as with
      | nil => rfl
      | cons a as =>
        obtain ⟨-, has⟩ := List.forall_mem_cons.mp hgentle
        have hfirst : replay none (a :: as) = some (extended a.content as) := replay_of_gentle has
        rw [hfirst, replay_of_gentle hgentle]
        refine congrArg some (extended_eq_self (List.forall_mem_cons.mpr ⟨fun _ => ?_, ?_⟩))
        · exact isIn_of_isPrefix (isPrefix_extended a.content as) a.isIn_content
        · exact fun b hb hmerge => isIn_extended hb hmerge

end Replay

end ServiceLoom.Artifact

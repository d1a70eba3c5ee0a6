import ServiceLoom.Proofs.Service.PathTemplate

/-!
# Paths put together from pieces

A placeholder that starts at a brace is settled by the text from there to the first closing brace,
so at most one starts there, and the names in a path do not depend on how a search prefers one
match to another: whatever goes from left to right and takes matches that do not overlap finds the
same. What a path was put together from is read back, since no placeholder starts in a literal.
-/

namespace ServiceLoom.PathTemplate

inductive Piece where
  | literal (text : List Char)
  | placeholder (name : List Char) (pattern : Option (List Char))

namespace Piece

def written : Piece → List Char
  | literal text => text
  | placeholder name none => '\x7b' :: (name ++ ['\x7d'])
  | placeholder name (some pattern) => '\x7b' :: (name ++ ':' :: pattern ++ ['\x7d'])

def name? : Piece → Option (List Char)
  | literal _ => none
  | placeholder name _ => some name

def WellFormed : Piece → Prop
  | literal text => '\x7b' ∉ text
  | placeholder name pattern => IsIdentifier name ∧ ∀ p ∈ pattern, '\x7d' ∉ p

instance : DecidablePred WellFormed
  | literal text => inferInstanceAs (Decidable ('\x7b' ∉ text))
  | placeholder name pattern =>
    inferInstanceAs (Decidable (IsIdentifier name ∧ ∀ p ∈ pattern, '\x7d' ∉ p))

end Piece

variable {c : Char} {s name : List Char} {pattern : Option (List Char)}

/-! ## One placeholder -/

theorem IsIdentifier.close_not_mem (h : IsIdentifier name) : '\x7d' ∉ name :=
  fun hmem => absurd (h.chars _ hmem) (by decide)

theorem exists_body_of_wellFormed (h : (Piece.placeholder name pattern).WellFormed) :
    ∃ body, (Piece.placeholder name pattern).written = '\x7b' :: (body ++ ['\x7d']) ∧
      '\x7d' ∉ body ∧ bodyName? body = some name := by
  obtain ⟨hname, hpattern⟩ := h
  cases pattern with
  | none =>
    refine ⟨name, rfl, hname.close_not_mem, ?_⟩
    have := hname.bodyName?_append (Or.inl rfl)
    rwa [List.append_nil] at this
  | some p =>
    refine ⟨name ++ ':' :: p, rfl, ?_, hname.bodyName?_append (Or.inr ⟨p, rfl⟩)⟩
    rw [List.mem_append, List.mem_cons, not_or, not_or]
    exact ⟨hname.close_not_mem, by decide, hpattern p rfl⟩

theorem exists_wellFormed_of_placeholder? {length : Nat}
    (h : placeholder? s = some (name, length)) :
    ∃ pattern rest, (Piece.placeholder name pattern).WellFormed ∧
      '\x7b' :: s = (Piece.placeholder name pattern).written ++ rest := by
  have hname := isIdentifier_of_placeholder? h
  have hsplit : s.takeWhile isNameChar ++ s.dropWhile isNameChar = s :=
    List.takeWhile_append_dropWhile
  unfold placeholder? at h
  dsimp only at h
  split at h
  · cases h
  · split at h
    · split at h
      · rename_i rest hrest
        obtain ⟨rfl, _⟩ := Prod.mk.inj (Option.some.inj h)
        refine ⟨none, rest, ⟨hname, fun p hp => by cases hp⟩, ?_⟩
        rw [hrest] at hsplit
        simp [Piece.written, hsplit]
      · rename_i rest hrest
        split at h
        · rename_i close after hafter
          obtain ⟨rfl, _⟩ := Prod.mk.inj (Option.some.inj h)
          refine ⟨some (rest.takeWhile (· != '\x7d')), after, ⟨hname, ?_⟩, ?_⟩
          · rintro p ⟨rfl⟩ hmem
            simpa using List.all_eq_true.mp List.all_takeWhile '\x7d' hmem
          · rw [hrest, eq_append_cons_of_dropWhile_bne hafter] at hsplit
            simp [Piece.written, hsplit]
        · cases h
      · cases h
    · cases h

theorem namesFrom_written (h : (Piece.placeholder name pattern).WellFormed) (t : List Char) :
    namesFrom 0 ((Piece.placeholder name pattern).written ++ t) = name :: namesFrom 0 t := by
  obtain ⟨body, hwritten, hclose, hname⟩ := exists_body_of_wellFormed h
  rw [hwritten, List.cons_append, List.append_assoc, List.singleton_append,
    namesFrom_placeholder hclose hname]

/-! ## Searching -/

/-- No placeholder starts where `s` does. -/
def NoneStarts (s : List Char) : Prop :=
  ∀ name pattern, (Piece.placeholder name pattern).WellFormed →
    ¬ (Piece.placeholder name pattern).written <+: s

/-- A placeholder is taken where one starts, and any other character is passed. -/
inductive Search : List Char → List (List Char) → Prop
  | done : Search [] []
  | found {name : List Char} {pattern : Option (List Char)} {s : List Char}
    {names : List (List Char)} (h : (Piece.placeholder name pattern).WellFormed)
    (hs : Search s names) : Search ((Piece.placeholder name pattern).written ++ s) (name :: names)
  | passed {c : Char} {s : List Char} {names : List (List Char)} (h : NoneStarts (c :: s))
    (hs : Search s names) : Search (c :: s) names

theorem namesFrom_passed (h : NoneStarts (c :: s)) : namesFrom 0 (c :: s) = namesFrom 0 s := by
  rw [namesFrom]
  split
  · rename_i hc
    subst hc
    cases hplaceholder : placeholder? s with
    | none => rfl
    | some found =>
      obtain ⟨pattern, rest, hpiece, hs⟩ := exists_wellFormed_of_placeholder? hplaceholder
      exact absurd ⟨rest, hs.symm⟩ (h _ _ hpiece)
  · rfl

theorem search_namesFrom (s : List Char) : Search s (namesFrom 0 s) := by
  -- not along the characters: behind a placeholder the search goes on with the rest of the text
  induction s using (measure List.length).wf.induction with
  | h s ih =>
    by_cases hnone : NoneStarts s
    · cases s with
      | nil => exact .done
      | cons c s =>
        rw [namesFrom_passed hnone]
        exact .passed hnone (ih s (Nat.lt_succ_self s.length))
    · unfold NoneStarts at hnone
      push Not at hnone
      obtain ⟨name, pattern, hpiece, rest, rfl⟩ := hnone
      rw [namesFrom_written hpiece]
      apply Search.found hpiece
      apply ih
      obtain ⟨body, hwritten, _⟩ := exists_body_of_wellFormed hpiece
      change rest.length < ((Piece.placeholder name pattern).written ++ rest).length
      rw [hwritten, List.length_append, List.length_cons]
      omega

/-- All searches from left to right end with the same names. -/
theorem search_iff {names : List (List Char)} : Search s names ↔ names = namesFrom 0 s := by
  constructor
  · intro h
    induction h with
    | done => rfl
    | found hpiece _ ih => rw [namesFrom_written hpiece, ih]
    | passed hpassed _ ih => rw [namesFrom_passed hpassed, ih]
  · rintro rfl
    exact search_namesFrom s

/-! ## All pieces -/

theorem namesFrom_flatMap_written {pieces : List Piece}
    (h : ∀ piece ∈ pieces, piece.WellFormed) :
    namesFrom 0 (pieces.flatMap Piece.written) = pieces.filterMap Piece.name? := by
  induction pieces with
  | nil => rfl
  | cons piece pieces ih =>
    rw [List.forall_mem_cons] at h
    rw [List.flatMap_cons]
    cases piece with
    | literal text => exact (namesFrom_literal h.1 _).trans (ih h.2)
    | placeholder name pattern =>
      exact (namesFrom_written h.1 _).trans (congrArg (name :: ·) (ih h.2))

theorem placeholders_flatMap_written {pieces : List Piece}
    (h : ∀ piece ∈ pieces, piece.WellFormed) :
    placeholders (String.ofList (pieces.flatMap Piece.written)) =
        (pieces.filterMap Piece.name?).map String.ofList ∧
      ∀ names, Search (pieces.flatMap Piece.written) names ↔
        names = pieces.filterMap Piece.name? := by
  have hnames := namesFrom_flatMap_written h
  refine ⟨?_, fun names => ?_⟩
  · rw [placeholders, String.toList_ofList, hnames]
  · rw [search_iff, hnames]

/-- Loose closing braces, braces in a pattern, and placeholders side by side. -/
def shelfPieces : List Piece :=
  [.literal "/ä\x7d:".toList, .placeholder "id".toList (some "\x7b[0-9]\x7b2".toList),
    .placeholder "id".toList none, .literal "\x7d".toList, .placeholder "_b2".toList (some [])]

theorem placeholders_flatMap_written_shelf :
    (∀ piece ∈ shelfPieces, piece.WellFormed) ∧
      shelfPieces.flatMap Piece.written =
        "/ä\x7d:\x7bid:\x7b[0-9]\x7b2\x7d\x7bid\x7d\x7d\x7b_b2:\x7d".toList ∧
      placeholders (String.ofList (shelfPieces.flatMap Piece.written)) = ["id", "id", "_b2"] ∧
      ∀ names, Search (shelfPieces.flatMap Piece.written) names ↔
        names = ["id".toList, "id".toList, "_b2".toList] := by
  have hpieces : ∀ piece ∈ shelfPieces, piece.WellFormed := by decide
  obtain ⟨hnames, hsearch⟩ := placeholders_flatMap_written hpieces
  have hlisted : shelfPieces.filterMap Piece.name? = ["id".toList, "id".toList, "_b2".toList] := rfl
  refine ⟨hpieces, by decide, ?_, ?_⟩
  · rw [hnames, hlisted]
    rfl
  · rw [← hlisted]
    exact hsearch

end ServiceLoom.PathTemplate

import Mathlib.Data.List.Infix
import ServiceLoom.Proofs.Brackets
import ServiceLoom.Proofs.Text.Words
import ServiceLoom.Service.PathTemplate

/-!
# Braces of paths

The first closing brace after an opening one decides alone whether the two are a placeholder,
whatever comes after. So where no braces stand inside of others, the search for placeholders takes
the pairs of braces one by one, and none of them can hide the next one.
-/

namespace ServiceLoom.PathTemplate

structure IsIdentifier (name : List Char) : Prop where
  start : ∃ first, name.head? = some first ∧ isNameStart first = true
  chars : ∀ c ∈ name, isNameChar c = true

instance (name : List Char) : Decidable (IsIdentifier name) :=
  decidable_of_iff (name.head?.any isNameStart = true ∧ name.all isNameChar = true) (by
    rw [Option.any_eq_true, List.all_eq_true]
    exact ⟨fun h => ⟨h.1, h.2⟩, fun h => ⟨h.start, h.chars⟩⟩)

/-- The name that a pair of braces around `body` gives, if it is a placeholder. -/
def bodyName? (body : List Char) : Option (List Char) :=
  if (body.head?.any isNameStart && ((body.dropWhile isNameChar).head?.all (· == ':'))) = true then
    some (body.takeWhile isNameChar)
  else none

section Cut

variable {α : Type} {p : α → Bool} {a : α}

theorem takeWhile_append_cons (h : p a = false) (s t : List α) :
    (s ++ a :: t).takeWhile p = s.takeWhile p := by
  induction s with
  | nil => simp [h]
  | cons c s ih => simp [List.takeWhile_cons, ih]

theorem dropWhile_append_cons (h : p a = false) (s t : List α) :
    (s ++ a :: t).dropWhile p = s.dropWhile p ++ a :: t := by
  induction s with
  | nil => simp [h]
  | cons c s ih =>
    rw [List.cons_append, List.dropWhile_cons, List.dropWhile_cons, ih]
    split <;> rfl

theorem takeWhile_bne_append_cons [BEq α] [LawfulBEq α] {s : List α} (h : a ∉ s) (t : List α) :
    (s ++ a :: t).takeWhile (· != a) = s := by
  have hs : ∀ c ∈ s, (c != a) = true := by
    intro c hc
    rw [bne_iff_ne]
    rintro rfl
    exact h hc
  rw [List.takeWhile_append_of_pos hs, List.takeWhile_cons_of_neg (by simp), List.append_nil]

theorem eq_append_cons_of_dropWhile_bne [BEq α] [LawfulBEq α] {s t : List α} {c : α}
    (h : s.dropWhile (· != a) = c :: t) : s = s.takeWhile (· != a) ++ a :: t := by
  have hc : c = a := by
    have := List.head_dropWhile_not (· != a) (l := s) (by rw [h]; exact List.cons_ne_nil c t)
    simpa [h] using this
  subst hc
  rw [← h, List.takeWhile_append_dropWhile]

end Cut

theorem isNameChar_of_isNameStart {c : Char} (h : isNameStart c = true) : isNameChar c = true := by
  simp only [isNameStart, isNameChar, Text.isAsciiWord, Bool.or_eq_true] at h ⊢
  rcases h with h | h
  · exact Or.inl (Or.inl h)
  · exact Or.inr h

/-! ## Pairs of braces -/

theorem placeholder?_closed {body : List Char} (h : '\x7d' ∉ body) (rest : List Char) :
    placeholder? (body ++ '\x7d' :: rest) =
      (bodyName? body).map fun name => (name, body.length + 1) := by
  have hbrace : isNameChar '\x7d' = false := by decide
  unfold placeholder? bodyName?
  rw [takeWhile_append_cons hbrace, dropWhile_append_cons hbrace]
  cases body with
  | nil => rfl
  | cons first tail =>
    cases hstart : isNameStart first with
    | false =>
      cases hfirst : isNameChar first <;> simp [hfirst, hstart]
    | true =>
      have hfirst := isNameChar_of_isNameStart hstart
      have hbody := List.takeWhile_append_dropWhile (p := isNameChar) (l := first :: tail)
      have hname : (first :: tail).takeWhile isNameChar = first :: tail.takeWhile isNameChar :=
        List.takeWhile_cons_of_pos hfirst
      dsimp only
      rw [hname]
      dsimp only
      rw [if_pos hstart]
      cases hsuffix : (first :: tail).dropWhile isNameChar with
      | nil =>
        rw [hsuffix, List.append_nil, hname] at hbody
        simp [hstart, hbody]
      | cons c suffix =>
        rw [hsuffix, hname] at hbody
        have hclose : '\x7d' ∉ c :: suffix := fun hmem =>
          h (hbody ▸ List.mem_append_right _ hmem)
        rw [List.mem_cons, not_or] at hclose
        have hlength := congrArg List.length hbody
        simp only [List.length_append, List.length_cons] at hlength
        rw [List.cons_append]
        by_cases hcolon : c = ':'
        · subst hcolon
          have hpattern : ∀ d ∈ suffix, (d != '\x7d') = true := by
            intro d hd
            rw [bne_iff_ne]
            rintro rfl
            exact hclose.2 hd
          have htake := takeWhile_bne_append_cons hclose.2 rest
          have hdrop : (suffix ++ '\x7d' :: rest).dropWhile (· != '\x7d') = '\x7d' :: rest :=
            List.dropWhile_append_of_pos hpattern
          simp [htake, hdrop, hstart]
          omega
        · split
          · rename_i heq
            exact absurd (List.cons.inj heq).1 (Ne.symm hclose.1)
          · rename_i heq
            exact absurd (List.cons.inj heq).1 hcolon
          · simp [hcolon]

theorem namesFrom_eq_drop (skip : Nat) (s : List Char) :
    namesFrom skip s = namesFrom 0 (s.drop skip) := by
  induction s generalizing skip with
  | nil => cases skip <;> rfl
  | cons c s ih =>
    cases skip with
    | zero => rfl
    | succ skip => rw [namesFrom, ih, List.drop_succ_cons]

theorem namesFrom_literal {s : List Char} (h : '\x7b' ∉ s) (t : List Char) :
    namesFrom 0 (s ++ t) = namesFrom 0 t := by
  induction s with
  | nil => rfl
  | cons c s ih =>
    rw [List.mem_cons, not_or] at h
    rw [List.cons_append, namesFrom, if_neg (Ne.symm h.1), ih h.2]

theorem namesFrom_placeholder {body name : List Char} (h : '\x7d' ∉ body)
    (hname : bodyName? body = some name) (t : List Char) :
    namesFrom 0 ('\x7b' :: (body ++ '\x7d' :: t)) = name :: namesFrom 0 t := by
  rw [namesFrom, if_pos rfl, placeholder?_closed h, hname, Option.map_some]
  dsimp only
  rw [namesFrom_eq_drop]
  simp

theorem namesFrom_group {body : List Char} (hopen : '\x7b' ∉ body) (hclose : '\x7d' ∉ body)
    (t : List Char) : namesFrom 0 ('\x7b' :: (body ++ '\x7d' :: t)) =
      (bodyName? body).toList ++ namesFrom 0 t := by
  cases hname : bodyName? body with
  | some name => exact namesFrom_placeholder hclose hname t
  | none =>
    rw [namesFrom, if_pos rfl, placeholder?_closed hclose, hname, Option.map_none]
    dsimp only
    have hliteral : '\x7b' ∉ body ++ ['\x7d'] := by simp [hopen]
    have := namesFrom_literal hliteral t
    simpa using this

/-- Braces come in pairs, and there are none inside a pair. -/
inductive Flat : List Char → Prop
  | nil : Flat []
  | literal {c : Char} {s : List Char} (hc : c ≠ '\x7b') (hs : Flat s) : Flat (c :: s)
  | group {body s : List Char} (hopen : '\x7b' ∉ body) (hclose : '\x7d' ∉ body) (hs : Flat s) :
    Flat ('\x7b' :: (body ++ '\x7d' :: s))

theorem Flat.namesFrom_append {s : List Char} (h : Flat s) (t : List Char) :
    namesFrom 0 (s ++ t) = namesFrom 0 s ++ namesFrom 0 t := by
  induction h with
  | nil => rfl
  | literal hc _ ih => rw [List.cons_append, namesFrom, if_neg hc, ih, namesFrom, if_neg hc]
  | group hopen hclose _ ih =>
    rw [List.cons_append, List.append_assoc, List.cons_append, namesFrom_group hopen hclose, ih,
      namesFrom_group hopen hclose, List.append_assoc]

/-- At every place at most one brace is open, and none at the end. -/
structure Paired (s : List Char) : Prop where
  open_le_one : ∀ lead, lead <+: s → lead.count '\x7d' ≤ lead.count '\x7b' ∧
    lead.count '\x7b' ≤ lead.count '\x7d' + 1
  even : s.count '\x7d' = s.count '\x7b'

instance (s : List Char) : Decidable (Paired s) :=
  decidable_of_iff ((∀ lead ∈ s.inits, lead.count '\x7d' ≤ lead.count '\x7b' ∧
      lead.count '\x7b' ≤ lead.count '\x7d' + 1) ∧ s.count '\x7d' = s.count '\x7b') (by
    simp only [List.mem_inits]
    exact ⟨fun h => ⟨h.1, h.2⟩, fun h => ⟨h.open_le_one, h.even⟩⟩)

theorem Paired.of_append (lead : List Char) {s : List Char} (h : Paired (lead ++ s))
    (heven : lead.count '\x7d' = lead.count '\x7b') : Paired s := by
  constructor
  · intro part hpart
    have := h.open_le_one (lead ++ part) ((List.prefix_append_right_inj lead).mpr hpart)
    rw [List.count_append, List.count_append] at this
    omega
  · have := h.even
    rw [List.count_append, List.count_append] at this
    omega

theorem Paired.induction {P : List Char → Prop} (nil : P [])
    (literal : ∀ c s, c ≠ '\x7b' → c ≠ '\x7d' → P s → P (c :: s))
    (group : ∀ body s, '\x7b' ∉ body → '\x7d' ∉ body → P s → P ('\x7b' :: (body ++ '\x7d' :: s)))
    {s : List Char} (h : Paired s) : P s := by
  -- a pair ends at the first closing brace, and what comes after it is paired again
  induction s using (measure List.length).wf.induction with
  | h s ih =>
    cases s with
    | nil => exact nil
    | cons c tail =>
      by_cases hc : c = '\x7b'
      · subst hc
        have hclosed : '\x7d' ∈ tail := by
          have := h.even
          rw [List.count_cons_of_ne (by decide), List.count_cons_self] at this
          exact List.count_pos_iff.mp (by omega)
        obtain ⟨body, rest, rfl, hclose⟩ := List.eq_append_cons_of_mem hclosed
        have hopen : '\x7b' ∉ body := by
          have := (h.open_le_one ('\x7b' :: body) (by simp)).2
          rw [List.count_cons_self, List.count_cons_of_ne (by decide),
            List.count_eq_zero.mpr hclose] at this
          exact List.count_eq_zero.mp (by omega)
        have hrest : Paired rest := by
          refine Paired.of_append ('\x7b' :: (body ++ ['\x7d'])) (by simpa using h) ?_
          simp [List.count_eq_zero.mpr hclose, List.count_eq_zero.mpr hopen]
        have hshorter : rest.length < ('\x7b' :: (body ++ '\x7d' :: rest)).length := by
          simp only [List.length_cons, List.length_append]
          omega
        exact group body rest hopen hclose (ih rest hshorter hrest)
      · have hclose : c ≠ '\x7d' := by
          rintro rfl
          have := (h.open_le_one ['\x7d'] (by simp)).1
          simp at this
        have htail : Paired tail := by
          refine Paired.of_append [c] h ?_
          simp [hc, hclose]
        exact literal c tail hc hclose (ih tail (Nat.lt_succ_self tail.length) htail)

theorem Paired.flat {s : List Char} (h : Paired s) : Flat s :=
  h.induction .nil (fun _ _ hc _ hs => .literal hc hs)
    fun _ _ hopen hclose hs => .group hopen hclose hs

/-- A placeholder behind paired braces is found, whatever stands after it. -/
theorem mem_namesFrom_of_placeholder {lead body name : List Char} (hlead : Paired lead)
    (h : '\x7d' ∉ body) (hname : bodyName? body = some name) (rest : List Char) :
    name ∈ namesFrom 0 (lead ++ '\x7b' :: (body ++ '\x7d' :: rest)) := by
  rw [hlead.flat.namesFrom_append, namesFrom_placeholder h hname]
  exact List.mem_append_right _ List.mem_cons_self

/-! ## Identifiers -/

theorem IsIdentifier.bodyName?_append {name rest : List Char} (h : IsIdentifier name)
    (hrest : rest = [] ∨ ∃ pattern, rest = ':' :: pattern) :
    bodyName? (name ++ rest) = some name := by
  obtain ⟨first, hfirst, hstart⟩ := h.start
  have htake : rest.takeWhile isNameChar = [] := by
    rcases hrest with rfl | ⟨pattern, rfl⟩ <;> rfl
  have hdrop : (rest.dropWhile isNameChar).head?.all (· == ':') = true := by
    rcases hrest with rfl | ⟨pattern, rfl⟩ <;> rfl
  have hhead : (name ++ rest).head? = some first := by
    rw [List.head?_append, hfirst, Option.some_or]
  rw [bodyName?, hhead, List.takeWhile_append_of_pos h.chars, List.dropWhile_append_of_pos h.chars,
    hdrop, htake, List.append_nil]
  simp [hstart]

theorem isIdentifier_of_placeholder? {s name : List Char} {length : Nat}
    (h : placeholder? s = some (name, length)) : IsIdentifier name := by
  have hchars : ∀ c ∈ s.takeWhile isNameChar, isNameChar c = true :=
    List.all_eq_true.mp List.all_takeWhile
  unfold placeholder? at h
  dsimp only at h
  split at h
  · cases h
  · rename_i first tail hname
    have hidentifier : isNameStart first = true → IsIdentifier (s.takeWhile isNameChar) :=
      fun hstart => ⟨⟨first, by rw [hname]; rfl, hstart⟩, hchars⟩
    split at h
    · rename_i hstart
      split at h
      · obtain ⟨rfl, _⟩ := Prod.mk.inj (Option.some.inj h)
        exact hidentifier hstart
      · split at h
        · obtain ⟨rfl, _⟩ := Prod.mk.inj (Option.some.inj h)
          exact hidentifier hstart
        · cases h
      · cases h
    · cases h

theorem isIdentifier_of_mem_namesFrom {skip : Nat} {s name : List Char}
    (h : name ∈ namesFrom skip s) : IsIdentifier name := by
  induction s generalizing skip with
  | nil => cases skip <;> cases h
  | cons c s ih =>
    cases skip with
    | succ skip => exact ih h
    | zero =>
      unfold namesFrom at h
      split at h
      · split at h
        · rename_i found length hfound
          rcases List.mem_cons.mp h with rfl | h
          · exact isIdentifier_of_placeholder? hfound
          · exact ih h
        · exact ih h
      · exact ih h

/-! ## Segments -/

/-- No brace is opened inside of braces. -/
def Unnested (path : List Char) : Prop :=
  ∀ lead, lead <+: path → lead.count '\x7b' ≤ lead.count '\x7d' + 1

instance (path : List Char) : Decidable (Unnested path) :=
  decidable_of_iff (∀ lead ∈ path.inits, lead.count '\x7b' ≤ lead.count '\x7d' + 1)
    (by simp only [List.mem_inits, Unnested])

/-- A whole segment of the path is the name in braces, or the name and a pattern. -/
def IsSegment (path name : String) : Prop :=
  ∃ rest, (rest = [] ∨ ∃ pattern, rest = ':' :: pattern) ∧
    '\x7b' :: (name.toList ++ rest ++ ['\x7d']) ∈ Text.cutWhere (· == '/') path.toList

theorem isIdentifier_of_mem_placeholders {path name : String} (h : name ∈ placeholders path) :
    IsIdentifier name.toList := by
  obtain ⟨chars, hchars, rfl⟩ := List.mem_map.mp h
  rw [String.toList_ofList]
  exact isIdentifier_of_mem_namesFrom hchars

theorem paired_of_unnested {lead rest : List Char}
    (hbalanced : Brackets.Balanced (lead ++ '\x7b' :: rest))
    (hunnested : Unnested (lead ++ '\x7b' :: rest)) : Paired lead := by
  have hextends : ∀ part, part <+: lead → part <+: lead ++ '\x7b' :: rest := fun part hpart =>
    hpart.trans (List.prefix_append _ _)
  constructor
  · intro part hpart
    exact ⟨hbalanced.covered part (hextends part hpart) .curly,
      hunnested part (hextends part hpart)⟩
  · have hcovered : lead.count '\x7d' ≤ lead.count '\x7b' :=
      hbalanced.covered lead (hextends lead List.prefix_rfl) .curly
    have hopened := hunnested (lead ++ ['\x7b']) ⟨rest, by simp⟩
    rw [List.count_append, List.count_append, List.count_singleton_self,
      List.count_eq_zero.mpr (by decide : '\x7d' ∉ ['\x7b'])] at hopened
    omega

theorem mem_placeholders_of_isSegment {path name : String}
    (hbalanced : Brackets.Balanced path.toList) (hunnested : Unnested path.toList)
    (hname : IsIdentifier name.toList) (h : IsSegment path name) : name ∈ placeholders path := by
  obtain ⟨rest, hrest, hsegment⟩ := h
  obtain ⟨lead, after, hpath⟩ := Text.isInfix_of_mem_cutWhere hsegment
  -- a pattern may have a closing brace in it, and then the placeholder ends there
  have hclosed : '\x7d' ∈ rest ++ '\x7d' :: after := by simp
  obtain ⟨cut, more, hcut, hclose⟩ := List.eq_append_cons_of_mem hclosed
  have hcutRest : cut = [] ∨ ∃ pattern, cut = ':' :: pattern := by
    cases cut with
    | nil => exact Or.inl rfl
    | cons c cut =>
      rcases hrest with rfl | ⟨pattern, rfl⟩
      · rw [List.nil_append] at hcut
        rw [(List.cons.inj hcut).1] at hclose
        exact absurd List.mem_cons_self hclose
      · exact Or.inr ⟨cut, by rw [(List.cons.inj hcut).1]⟩
  have hbody : '\x7d' ∉ name.toList ++ cut := by
    rw [List.mem_append, not_or]
    exact ⟨fun hmem => absurd (hname.chars _ hmem) (by decide), hclose⟩
  have hshape : path.toList = lead ++ '\x7b' :: (name.toList ++ cut ++ '\x7d' :: more) := by
    rw [← hpath, List.append_assoc name.toList cut, ← hcut]
    simp
  rw [hshape] at hbalanced hunnested
  have hmem := mem_namesFrom_of_placeholder (paired_of_unnested hbalanced hunnested) hbody
    (hname.bodyName?_append hcutRest) more
  rw [← hshape] at hmem
  exact List.mem_map.mpr ⟨name.toList, hmem, String.ofList_toList⟩

end ServiceLoom.PathTemplate

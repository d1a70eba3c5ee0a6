import Mathlib.Data.List.Basic
import Mathlib.Data.List.Induction
import ServiceLoom.Text.Blank

/-!
# Pieces and words

A text cut at every character of a class falls into pieces, those of its parts one after the other.
The words of a text are its pieces between blanks, so words written with blanks before them are read
back, however many blanks stand there.
-/

namespace ServiceLoom.Text

variable {p : Char → Bool} {c : Char}

theorem cutWhere_append (hc : p c = true) (x y : List Char) :
    cutWhere p (x ++ c :: y) = cutWhere p x ++ cutWhere p y := by
  induction x with
  | nil => simp [cutWhere, hc]
  | cons d x ih =>
    simp only [List.cons_append, cutWhere, ih]
    split
    · rfl
    · cases hx : cutWhere p x with
      | nil => exact absurd hx (cutWhere_ne_nil p x)
      | cons piece pieces => rfl

theorem cutWhere_eq_singleton {x : List Char} (hx : ∀ d ∈ x, p d = false) : cutWhere p x = [x] := by
  induction x with
  | nil => rfl
  | cons d x ih =>
    rw [List.forall_mem_cons] at hx
    simp [cutWhere, hx.1, ih hx.2]

theorem exists_mem_cutWhere {x : List Char} (hx : c ∈ x) (hc : p c = false) :
    ∃ piece ∈ cutWhere p x, c ∈ piece := by
  induction x with
  | nil => cases hx
  | cons d x ih =>
    rcases List.mem_cons.mp hx with rfl | hx
    · cases hcut : cutWhere p x with
      | nil => exact absurd hcut (cutWhere_ne_nil p x)
      | cons piece pieces => exact ⟨c :: piece, by simp [cutWhere, hc, hcut], by simp⟩
    · obtain ⟨piece, hpiece, hmem⟩ := ih hx
      cases hcut : cutWhere p x with
      | nil => exact absurd hcut (cutWhere_ne_nil p x)
      | cons first pieces =>
        rw [hcut] at hpiece
        cases hd : p d with
        | true => exact ⟨piece, by simp [cutWhere, hd, hcut, List.mem_cons.mp hpiece], hmem⟩
        | false =>
          rcases List.mem_cons.mp hpiece with rfl | hpiece
          · exact ⟨d :: piece, by simp [cutWhere, hd, hcut], List.mem_cons_of_mem d hmem⟩
          · exact ⟨piece, by simp [cutWhere, hd, hcut, hpiece], hmem⟩

theorem isPrefix_of_cutWhere {x first : List Char} {pieces : List (List Char)}
    (h : cutWhere p x = first :: pieces) : first <+: x := by
  induction x generalizing first pieces with
  | nil =>
    obtain ⟨rfl, _⟩ := List.cons.inj h
    exact List.nil_prefix
  | cons d x ih =>
    unfold cutWhere at h
    split at h
    · obtain ⟨rfl, _⟩ := List.cons.inj h
      exact List.nil_prefix
    · split at h
      · rename_i hnil
        exact absurd hnil (cutWhere_ne_nil p x)
      · rename_i hcut
        obtain ⟨rfl, _⟩ := List.cons.inj h
        exact List.cons_prefix_cons.mpr ⟨rfl, ih hcut⟩

theorem isInfix_of_mem_cutWhere {x piece : List Char} (h : piece ∈ cutWhere p x) :
    piece <:+: x := by
  induction x with
  | nil =>
    obtain rfl := List.mem_singleton.mp h
    exact List.infix_rfl
  | cons d x ih =>
    cases hcut : cutWhere p (d :: x) with
    | nil => exact absurd hcut (cutWhere_ne_nil p (d :: x))
    | cons first pieces =>
      rw [hcut] at h
      rcases List.mem_cons.mp h with rfl | h
      · exact (isPrefix_of_cutWhere hcut).isInfix
      · -- all pieces but the first are pieces of the rest of the text
        refine List.infix_cons (ih ?_)
        unfold cutWhere at hcut
        split at hcut
        · obtain ⟨_, rfl⟩ := List.cons.inj hcut
          exact h
        · split at hcut
          · obtain ⟨_, rfl⟩ := List.cons.inj hcut
            cases h
          · rename_i hrest
            obtain ⟨_, rfl⟩ := List.cons.inj hcut
            rw [hrest]
            exact List.mem_cons_of_mem _ h

theorem eq_false_of_mem_cutWhere {x piece : List Char} (h : piece ∈ cutWhere p x)
    (hc : c ∈ piece) : p c = false := by
  induction x generalizing piece with
  | nil =>
    obtain rfl := List.mem_singleton.mp h
    cases hc
  | cons d x ih =>
    unfold cutWhere at h
    split at h
    · rcases List.mem_cons.mp h with rfl | h
      · cases hc
      · exact ih h hc
    · rename_i hd
      split at h
      · rename_i hcut
        exact absurd hcut (cutWhere_ne_nil p x)
      · rename_i first pieces hcut
        rw [hcut] at ih
        rcases List.mem_cons.mp h with rfl | h
        · rcases List.mem_cons.mp hc with rfl | hc
          · exact eq_false_of_ne_true hd
          · exact ih List.mem_cons_self hc
        · exact ih (List.mem_cons_of_mem _ h) hc

/-! ## Words -/

structure IsWord (w : List Char) : Prop where
  ne_nil : w ≠ []
  noBlank : ∀ c ∈ w, isBlank c = false

instance (w : List Char) : Decidable (IsWord w) :=
  decidable_of_iff (w ≠ [] ∧ w.all (!isBlank ·) = true)
    ⟨fun h => ⟨h.1, by simpa using h.2⟩, fun h => ⟨h.ne_nil, by simpa using h.noBlank⟩⟩

theorem words_append_blank (hc : isBlank c = true) (x y : List Char) :
    words (x ++ c :: y) = words x ++ words y := by
  rw [words, cutWhere_append hc, List.filter_append]
  rfl

theorem IsWord.words_eq {w : List Char} (h : IsWord w) : words w = [w] := by
  rw [words, cutWhere_eq_singleton h.noBlank]
  simp [h.ne_nil]

theorem IsWord.exists_concat {w : List Char} (h : IsWord w) :
    ∃ u c, w = u ++ [c] ∧ isBlank c = false :=
  ⟨_, _, (List.dropLast_concat_getLast h.ne_nil).symm, h.noBlank _ (List.getLast_mem h.ne_nil)⟩

theorem isWord_of_mem_words {s w : List Char} (h : w ∈ words s) : IsWord w where
  ne_nil := ne_nil_of_mem_words h
  noBlank _ hc := eq_false_of_mem_cutWhere (List.mem_filter.mp h).1 hc

theorem mem_of_mem_words {s w : List Char} (h : w ∈ words s) (hc : c ∈ w) : c ∈ s :=
  (isInfix_of_mem_cutWhere (List.mem_filter.mp h).1).subset hc

/-- Every word with a space before it. -/
def spaced (ws : List (List Char)) : List Char := ws.flatMap (' ' :: ·)

theorem words_spaced {ws : List (List Char)} (h : ∀ w ∈ ws, IsWord w) : words (spaced ws) = ws := by
  induction ws using List.reverseRecOn with
  | nil => rfl
  | append_singleton ws w ih =>
    have hw : IsWord w := h w (by simp)
    have hws : ∀ w ∈ ws, IsWord w := fun w hw => h w (List.mem_append_left _ hw)
    have hspaced : spaced (ws ++ [w]) = spaced ws ++ ' ' :: w := by simp [spaced]
    rw [hspaced, words_append_blank (by decide), ih hws, hw.words_eq]

theorem cons_joinWith {ws : List (List Char)} (h : ws ≠ []) :
    ' ' :: joinWith [' '] ws = spaced ws := by
  induction ws with
  | nil => exact absurd rfl h
  | cons w ws ih =>
    cases ws with
    | nil => simp [joinWith, spaced]
    | cons v ws =>
      have hrest := ih (List.cons_ne_nil v ws)
      rw [spaced, List.flatMap_cons, ← spaced, ← hrest]
      simp [joinWith]

theorem joinWith_concat {ws : List (List Char)} (h : ws ≠ []) (w : List Char) :
    joinWith [' '] (ws ++ [w]) = joinWith [' '] ws ++ ' ' :: w := by
  have hne : ws ++ [w] ≠ [] := by simp
  have hlong := cons_joinWith hne
  have hshort := cons_joinWith h
  rw [spaced, List.flatMap_append, ← spaced, ← hshort] at hlong
  simpa using hlong

theorem words_cons_blank (hc : isBlank c = true) (s : List Char) : words (c :: s) = words s :=
  words_append_blank hc [] s

theorem words_joinWith {ws : List (List Char)} (h : ∀ w ∈ ws, IsWord w) :
    words (joinWith [' '] ws) = ws := by
  cases ws with
  | nil => rfl
  | cons w ws =>
    have hspaced := words_spaced h
    rwa [← cons_joinWith (by simp), words_cons_blank (by decide)] at hspaced

theorem mem_joinWith {sep : List Char} {ws : List (List Char)} (h : c ∈ joinWith sep ws) :
    c ∈ sep ∨ ∃ w ∈ ws, c ∈ w := by
  induction ws with
  | nil => cases h
  | cons w ws ih =>
    cases ws with
    | nil => exact Or.inr ⟨w, by simp, h⟩
    | cons v ws =>
      rw [joinWith, List.mem_append, List.mem_append] at h
      · rcases h with (h | h) | h
        · exact Or.inr ⟨w, by simp, h⟩
        · exact Or.inl h
        · rcases ih h with hsep | ⟨u, hu, hc⟩
          · exact Or.inl hsep
          · exact Or.inr ⟨u, List.mem_cons_of_mem w hu, hc⟩
      · simp

theorem joinWith_flatMap {α : Type} {f : α → List (List Char)} {as : List α}
    (h : ∀ a ∈ as, f a ≠ []) :
    joinWith [' '] (as.map fun a => joinWith [' '] (f a)) = joinWith [' '] (as.flatMap f) := by
  have hspaced : spaced (as.map fun a => joinWith [' '] (f a)) = spaced (as.flatMap f) := by
    induction as with
    | nil => rfl
    | cons a as ih =>
      rw [List.forall_mem_cons] at h
      rw [List.map_cons, spaced, List.flatMap_cons, ← spaced, ih h.2, List.flatMap_cons, spaced,
        spaced, List.flatMap_append, cons_joinWith h.1, spaced]
  cases as with
  | nil => rfl
  | cons a as =>
    have hne : (a :: as).flatMap f ≠ [] := by simp [h a]
    rw [← cons_joinWith (by simp), ← cons_joinWith hne] at hspaced
    exact (List.cons.inj hspaced).2

/-! ## Trimming -/

theorem isBlank_of_graphic (hlow : 0x20 < c.toNat) (hhigh : c.toNat < 0x85) :
    isBlank c = false := by
  simp only [isBlank, Bool.or_eq_false_iff, Bool.and_eq_false_iff, decide_eq_false_iff_not,
    beq_eq_false_iff_ne]
  omega

theorem trimStart_cons (hc : isBlank c = false) (s : List Char) :
    trimStart (c :: s) = c :: s := by
  simp [trimStart, hc]

theorem trim_cons_blank (hc : isBlank c = true) (s : List Char) : trim (c :: s) = trim s := by
  simp [trim, trimStart, hc]

theorem trimEnd_concat (hc : isBlank c = false) (s : List Char) :
    trimEnd (s ++ [c]) = s ++ [c] := by
  simp [trimEnd, hc]

theorem trimStart_append {t : List Char} (ht : trimStart t = t) (s : List Char) :
    trimStart (s ++ t) = trimStart s ++ t := by
  unfold trimStart at ht ⊢
  rw [List.dropWhile_append, ht]
  split
  · rename_i hnil
    rw [List.isEmpty_iff.mp hnil, List.nil_append]
  · rfl

theorem trimEnd_append {s : List Char} (hs : trimEnd s = s) (t : List Char) :
    trimEnd (s ++ t) = s ++ trimEnd t := by
  have hstart : trimStart s.reverse = s.reverse := List.reverse_eq_iff.mp hs
  change (trimStart (s ++ t).reverse).reverse = s ++ (trimStart t.reverse).reverse
  rw [List.reverse_append, trimStart_append hstart, List.reverse_append, List.reverse_reverse]

theorem words_trimStart (s : List Char) : words (trimStart s) = words s := by
  induction s with
  | nil => rfl
  | cons c s ih =>
    cases hc : isBlank c with
    | false => rw [trimStart_cons hc]
    | true =>
      have htrim : trimStart (c :: s) = trimStart s := by simp [trimStart, hc]
      rw [htrim, ih, words_cons_blank hc]

theorem words_trimEnd (s : List Char) : words (trimEnd s) = words s := by
  induction s using List.reverseRecOn with
  | nil => rfl
  | append_singleton s c ih =>
    cases hc : isBlank c with
    | false => rw [trimEnd_concat hc]
    | true =>
      have htrim : trimEnd (s ++ [c]) = trimEnd s := by simp [trimEnd, hc]
      rw [htrim, ih, words_append_blank hc]
      exact (List.append_nil _).symm

theorem trimStart_subset (s : List Char) : trimStart s ⊆ s := (List.dropWhile_suffix _).subset

theorem trimEnd_subset (s : List Char) : trimEnd s ⊆ s := by
  intro c hc
  exact List.mem_reverse.mp (trimStart_subset s.reverse (List.mem_reverse.mp hc))

theorem trimStart_eq_self_iff {s : List Char} :
    trimStart s = s ↔ ∀ c ∈ s.head?, isBlank c = false := by
  cases s with
  | nil => simp [trimStart]
  | cons c s =>
    cases hc : isBlank c with
    | false => simp [trimStart, hc]
    | true =>
      have hshort : (trimStart (c :: s)).length ≤ s.length := by
        rw [trimStart, List.dropWhile_cons_of_pos hc]
        exact (List.dropWhile_suffix _).length_le
      constructor
      · intro h
        rw [h, List.length_cons] at hshort
        omega
      · simp [hc]

theorem trimEnd_eq_self_iff {s : List Char} :
    trimEnd s = s ↔ ∀ c ∈ s.getLast?, isBlank c = false := by
  rw [← List.head?_reverse, ← trimStart_eq_self_iff, trimEnd, ← trimStart, List.reverse_eq_iff]

theorem trim_eq_self_iff {s : List Char} :
    trim s = s ↔ (∀ c ∈ s.head?, isBlank c = false) ∧ ∀ c ∈ s.getLast?, isBlank c = false := by
  rw [← trimStart_eq_self_iff, ← trimEnd_eq_self_iff]
  constructor
  · intro h
    -- trimming both ends takes nothing away, so neither does trimming the first
    have hsuffix : trimStart s <:+ s := List.dropWhile_suffix _
    have hlength : s.length ≤ (trimStart s).length := by
      have hprefix : trimEnd (trimStart s) <+: trimStart s := by
        rw [← List.reverse_suffix, trimEnd, List.reverse_reverse]
        exact List.dropWhile_suffix _
      have := hprefix.length_le
      rwa [show trimEnd (trimStart s) = s from h] at this
    have hstart := hsuffix.eq_of_length_le hlength
    rw [trim, hstart] at h
    exact ⟨hstart, h⟩
  · rintro ⟨hstart, hend⟩
    rw [trim, hstart, hend]

/-- What stands between two trimmed texts is not touched. -/
theorem trim_append_append {s t : List Char} (hs : trim s = s) (ht : trim t = t) (hsne : s ≠ [])
    (htne : t ≠ []) (u : List Char) : trim (s ++ u ++ t) = s ++ u ++ t := by
  refine trim_eq_self_iff.mpr ⟨?_, ?_⟩
  · rw [List.append_assoc, List.head?_append_of_ne_nil s hsne]
    exact (trim_eq_self_iff.mp hs).1
  · rw [List.getLast?_append_of_ne_nil _ htne]
    exact (trim_eq_self_iff.mp ht).2

theorem trim_of_noBlank {s : List Char} (h : ∀ c ∈ s, isBlank c = false) : trim s = s :=
  trim_eq_self_iff.mpr ⟨fun c hc => h c (List.mem_of_head? hc),
    fun c hc => h c (List.mem_of_getLast? hc)⟩

end ServiceLoom.Text

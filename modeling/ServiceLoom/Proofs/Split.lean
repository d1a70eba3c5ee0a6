import ServiceLoom.Proofs.Split.Segmentation

/-!
# Splitting undoes joining

A piece is a balanced text in which the separator stands only inside brackets. Pieces with the
separator between them are cut where they were joined, whatever brackets and separators they hold,
and blanks around a piece are trimmed off again.
-/

namespace ServiceLoom.Split

open Brackets

variable {c : Char} {s t : List Char}

/-- A text that the separator `c` does not cut. -/
structure Piece (c : Char) (s : List Char) : Prop where
  balanced : Balanced s
  whole : ∀ lead rest, s = lead ++ c :: rest → ¬ Balanced lead

theorem piece_iff : Piece c s ↔ Balanced s ∧
    ∀ n < s.length, s[n]? = some c → ¬ Balanced (s.take n) := by
  constructor
  · rintro ⟨hbalanced, hwhole⟩
    refine ⟨hbalanced, fun n hn hc => hwhole (s.take n) (s.drop (n + 1)) ?_⟩
    obtain ⟨_, rfl⟩ := List.getElem?_eq_some_iff.mp hc
    rw [← List.drop_eq_getElem_cons, List.take_append_drop]
  · rintro ⟨hbalanced, hwhole⟩
    refine ⟨hbalanced, ?_⟩
    rintro lead rest rfl
    simpa using hwhole lead.length (by simp) (by simp)

instance (c : Char) (s : List Char) : Decidable (Piece c s) := decidable_of_iff' _ piece_iff

theorem piece_of_plain (h : ∀ d ∈ s, Plain d ∧ d ≠ c) : Piece c s where
  balanced := balanced_of_plain fun d hd => (h d hd).1
  whole := by
    rintro lead rest rfl
    exact absurd rfl (h c (by simp)).2

theorem Piece.append (hs : Piece c s) (ht : Piece c t) : Piece c (s ++ t) where
  balanced := hs.balanced.append ht.balanced
  whole := by
    intro lead rest heq
    rcases List.append_eq_append_iff.mp heq with ⟨more, rfl, hrest⟩ | ⟨more, rfl, hrest⟩
    · rw [hs.balanced.append_iff]
      exact ht.whole more rest hrest
    · cases more with
      | nil => exact absurd balanced_nil (ht.whole [] rest hrest.symm)
      | cons d more =>
        obtain ⟨rfl, rfl⟩ := List.cons.inj hrest
        exact hs.whole lead more rfl

theorem piece_enclose (h : Balanced s) (b : Bracket) (hc : Plain c) :
    Piece c (b.opening :: (s ++ [b.closing])) where
  balanced := h.enclose b
  whole := by
    intro lead rest heq
    cases lead with
    | nil => exact absurd (List.cons.inj heq).1.symm (hc b).1
    | cons d lead =>
      obtain ⟨rfl, hrest⟩ := List.cons.inj heq
      have hprefix : lead <+: s ++ [b.closing] := ⟨_, hrest.symm⟩
      rcases List.prefix_concat_iff.mp hprefix with rfl | hlead
      · simp at hrest
      · exact h.not_balanced_cons b hlead

theorem Piece.uncut (h : Piece c s) (rest : List Char) : Uncut [c] s rest := by
  intro lead more hs hmore hprefix
  cases more with
  | nil => exact absurd rfl hmore
  | cons x more =>
    obtain ⟨rfl, _⟩ := List.cons_prefix_cons.mp hprefix
    exact h.whole lead more hs

theorem Piece.segments_append (h : Piece c s) (rest : List Char) :
    segments [c] (s ++ c :: rest) = s :: segments [c] rest :=
  (h.uncut _).segments_append (List.cons_ne_nil c []) h.balanced

/-- A piece that trimming leaves as it is, and that is not dropped. -/
structure Part (c : Char) (s : List Char) : Prop extends Piece c s where
  ne_nil : s ≠ []
  trimmed : Text.trim s = s

/-! ## Blanks around the parts -/

theorem Piece.split_append (h : Piece c t) (htrim : Text.trim t = s) (hs : s ≠ [])
    (rest : List Char) : split [c] t = [s] ∧ split [c] (t ++ c :: rest) = s :: split [c] rest := by
  have hsep : [c] ≠ [] := List.cons_ne_nil c []
  have hkept : ∀ pieces : List (List Char),
      (s :: pieces).filter (!·.isEmpty) = s :: pieces.filter (!·.isEmpty) :=
    fun pieces => List.filter_cons_of_pos (by simpa using hs)
  rw [split_eq hsep, split_eq hsep, split_eq hsep, (h.uncut []).segments_eq, h.segments_append,
    List.map_cons, List.map_cons, htrim, hkept, hkept]
  exact ⟨rfl, rfl⟩

theorem split_cons_blank {x : Char} (hx : Text.isBlank x = true) (s : List Char) :
    split [c] (x :: s) = split [c] s := by
  rw [split_eq (List.cons_ne_nil c []), split_eq (List.cons_ne_nil c [])]
  by_cases hxc : x = c
  · -- the blank is the separator itself and cuts off an empty segment
    have hnil : Piece x [] := piece_of_plain (by simp)
    have hcut : segments [x] (x :: s) = [] :: segments [x] s := hnil.segments_append s
    subst hxc
    rw [hcut]
    rfl
  · have hpiece : Piece c [x] :=
      piece_of_plain (List.forall_mem_singleton.mpr ⟨plain_of_isBlank hx, hxc⟩)
    have hpass : segments [c] (x :: s) = consHead x (segments [c] s) :=
      (hpiece.uncut s).segments_foldr hpiece.balanced
    cases hs : segments [c] s with
    | nil => exact absurd hs (segmentsFrom_ne_nil [c] 0 (some {}) s)
    | cons first pieces =>
      rw [hpass, hs, consHead, List.map_cons, List.map_cons, Text.trim_cons_blank hx]

theorem split_blank_append (h : Text.AllBlank s) (t : List Char) :
    split [c] (s ++ t) = split [c] t := by
  induction s with
  | nil => rfl
  | cons x s ih =>
    rw [Text.AllBlank, List.forall_mem_cons] at h
    rw [List.cons_append, split_cons_blank h.1, ih h.2]

theorem Part.split_append_blank (h : Part c s) (ht : Text.AllBlank t) (hc : c ∉ t)
    (rest : List Char) :
    split [c] (s ++ t) = [s] ∧ split [c] (s ++ t ++ c :: rest) = s :: split [c] rest := by
  have hpiece : Piece c (s ++ t) := by
    refine h.toPiece.append (piece_of_plain fun d hd => ⟨plain_of_isBlank (ht d hd), ?_⟩)
    rintro rfl
    exact hc hd
  have hpadded : Text.Padded s (s ++ t) := ⟨[], t, by simp [Text.AllBlank], ht, rfl⟩
  exact hpiece.split_append (hpadded.trim_eq.trans h.trimmed) h.ne_nil rest

theorem Part.split_padded (h : Part c s) (ht : Text.Padded s t) (rest : List Char) :
    split [c] t = [s] ∧ split [c] (t ++ c :: rest) = s :: split [c] rest := by
  obtain ⟨before, after, hbefore, hafter, rfl⟩ := ht
  rw [List.append_assoc, List.append_assoc, split_blank_append hbefore,
    split_blank_append hbefore]
  by_cases hc : c ∈ after
  · -- the first blank that is the separator ends the part, and the others are passed over
    obtain ⟨first, more, rfl, hfirst⟩ := List.eq_append_cons_of_mem hc
    have hmore : Text.AllBlank more := fun d hd => hafter d (by simp [hd])
    have hcut := h.split_append_blank (fun d hd => hafter d (by simp [hd])) hfirst
    constructor
    · rw [← List.append_assoc, (hcut more).2, ← List.append_nil more, split_blank_append hmore]
      rfl
    · have hrest : s ++ (first ++ c :: more) ++ c :: rest =
          s ++ first ++ c :: (more ++ c :: rest) := by simp
      rw [hrest, (hcut _).2, split_blank_append hmore, split_cons_blank (hafter c hc)]
  · exact h.split_append_blank hafter hc rest

/-- Whatever blanks are written around the parts, the joined text is split into them again. -/
theorem split_intercalate_padded {parts texts : List (List Char)} (h : ∀ s ∈ parts, Part c s)
    (htexts : List.Forall₂ Text.Padded parts texts) :
    split [c] ([c].intercalate texts) = parts := by
  induction htexts with
  | nil => rfl
  | @cons s t parts texts ht htexts ih =>
    rw [List.forall_mem_cons] at h
    cases htexts with
    | nil => simpa using (h.1.split_padded ht []).1
    | cons hu htexts =>
      rw [List.intercalate_cons_cons, List.append_assoc, List.singleton_append,
        (h.1.split_padded ht _).2, ih h.2]

/-- Brackets that interleave, with the separator inside, blanks around, and a part after them. -/
theorem split_intercalate_padded_interleaved :
    (∀ s ∈ ["(a[,)b]".toList, "c".toList], Part ',' s) ∧
      List.Forall₂ Text.Padded ["(a[,)b]".toList, "c".toList] [" (a[,)b] ".toList, "c\n".toList] ∧
      split [','] " (a[,)b] ,c\n".toList = ["(a[,)b]".toList, "c".toList] := by
  have hparts : ∀ s ∈ ["(a[,)b]".toList, "c".toList], Part ',' s := by
    rw [List.forall_mem_cons, List.forall_mem_singleton]
    exact ⟨⟨by decide, by decide, by decide⟩,
      ⟨by decide, by decide, by decide⟩⟩
  have htexts : List.Forall₂ Text.Padded ["(a[,)b]".toList, "c".toList]
      [" (a[,)b] ".toList, "c\n".toList] :=
    .cons ⟨[' '], [' '], by decide, by decide, rfl⟩
      (.cons ⟨[], ['\n'], by decide, by decide, rfl⟩ .nil)
  exact ⟨hparts, htexts, split_intercalate_padded hparts htexts⟩

/-! ## Lists with commas -/

theorem part_enclose (h : Balanced s) (b : Bracket) :
    Part ',' (b.opening :: (s ++ [b.closing])) where
  toPiece := piece_enclose h b (by decide)
  ne_nil := List.cons_ne_nil _ _
  trimmed := by
    have hopen : Text.isBlank b.opening = false := by cases b <;> decide
    have hclose : Text.isBlank b.closing = false := by cases b <;> decide
    refine Text.trim_eq_self_iff.mpr ⟨by simpa using hopen, ?_⟩
    simpa [List.getLast?_cons] using hclose

theorem split_intercalate_comma_blank {parts : List (List Char)} (h : ∀ s ∈ parts, Part ',' s) :
    split [','] ([',', ' '].intercalate parts) = parts := by
  induction parts with
  | nil => rfl
  | cons s parts ih =>
    rw [List.forall_mem_cons] at h
    have hcut := h.1.toPiece.split_append h.1.trimmed h.1.ne_nil
    cases parts with
    | nil => simpa using (hcut []).1
    | cons t parts =>
      have hjoin : [',', ' '].intercalate (s :: t :: parts) =
          s ++ ',' :: ' ' :: [',', ' '].intercalate (t :: parts) := by
        rw [List.intercalate_cons_cons, List.append_assoc]
        rfl
      rw [hjoin, (hcut _).2, split_cons_blank (by decide), ih h.2]

theorem balanced_commaList {parts : List String} (h : ∀ part ∈ parts, Balanced part.toList) :
    Balanced (String.intercalate ", " parts).toList := by
  have hsep : Balanced ", ".toList := depth?_eq_iff.mp (by decide)
  rw [String.toList_intercalate]
  exact balanced_intercalate hsep (List.forall_mem_map.mpr h)

/-- A list in brackets is a part of a longer list. -/
theorem part_of_enclosed {b : Bracket} {text : String} {parts : List String}
    (htext : text.toList = b.opening :: ((String.intercalate ", " parts).toList ++ [b.closing]))
    (h : ∀ part ∈ parts, Balanced part.toList) : Part ',' text.toList := by
  rw [htext]
  exact part_enclose (balanced_commaList h) b

theorem onCommas_intercalate {parts : List String} (h : ∀ part ∈ parts, Part ',' part.toList) :
    onCommas (String.intercalate ", " parts) = parts := by
  have hparts : ∀ s ∈ parts.map String.toList, Part ',' s := by
    simpa using h
  have hsep : ", ".toList = [',', ' '] := rfl
  rw [onCommas, String.toList_intercalate, hsep, split_intercalate_comma_blank hparts]
  simp

end ServiceLoom.Split

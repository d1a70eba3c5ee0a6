import ServiceLoom.Proofs.Brackets
import ServiceLoom.Proofs.Text.Padding
import ServiceLoom.Split

/-!
# The segments of a text

A separator cuts where what the segment has before it is balanced, and a segment goes on until the
first such place. This leaves one way to cut a text. Blanks are no brackets, so a trimmed segment is
not cut either.
-/

namespace ServiceLoom.Split

open Brackets

variable {sep s t rest raw u : List Char} {segs : List (List Char)}

/-- Where `rest` follows, no separator starts in `s` at a place up to which `s` is balanced. -/
def Uncut (sep s rest : List Char) : Prop :=
  ∀ lead more, s = lead ++ more → more ≠ [] → sep <+: more ++ rest → ¬ Balanced lead

theorem not_uncut_iff : ¬ Uncut sep s rest ↔
    ∃ lead more, s = lead ++ more ∧ more ≠ [] ∧ sep <+: more ++ rest ∧ Balanced lead := by
  unfold Uncut
  push Not
  exact Iff.rfl

structure Segmentation (sep raw : List Char) (segs : List (List Char)) : Prop where
  ne_nil : segs ≠ []
  joined : raw = sep.intercalate segs
  accepted : ∀ s ∈ segs.dropLast, check s = .ok ()
  /-- Every segment is followed by the later ones, each with the separator before it. -/
  uncut : ∀ before s after, segs = before ++ s :: after → Uncut sep s (after.flatMap (sep ++ ·))

/-! ## One segment after the other -/

theorem foldr_consHead (s t : List Char) (segs : List (List Char)) :
    s.foldr consHead (t :: segs) = (s ++ t) :: segs := by
  induction s with
  | nil => rfl
  | cons c s ih => rw [List.foldr_cons, ih, consHead, List.cons_append]

theorem segmentsFrom_skip (sep : List Char) (depth : Option Depth) (t rest : List Char) :
    segmentsFrom sep t.length depth (t ++ rest) = segmentsFrom sep 0 depth rest := by
  induction t with
  | nil => rfl
  | cons c t ih =>
    rw [List.length_cons, List.cons_append, segmentsFrom]
    exact ih

/-- Behind `u` the scan passes over a text that is not cut. -/
theorem segmentsFrom_append
    (h : ∀ lead more, s = lead ++ more → more ≠ [] → sep <+: more ++ rest →
      ¬ Balanced (u ++ lead)) :
    segmentsFrom sep 0 (depth? u) (s ++ rest) =
      s.foldr consHead (segmentsFrom sep 0 (depth? (u ++ s)) rest) := by
  -- along the text, whose characters join those that the scan has behind it
  induction s generalizing u with
  | nil => rw [List.append_nil, List.nil_append, List.foldr_nil]
  | cons c s ih =>
    have hpass : ¬ (depth? u = some {} ∧ sep.isPrefixOf (c :: (s ++ rest)) = true) := by
      rintro ⟨hdepth, hprefix⟩
      refine h [] (c :: s) rfl (List.cons_ne_nil c s) (List.isPrefixOf_iff_prefix.mp hprefix) ?_
      rw [List.append_nil]
      exact depth?_eq_iff.mp hdepth
    have hrest := ih (u := u ++ [c]) fun lead more hs hmore hprefix => by
      rw [List.append_assoc]
      exact h (c :: lead) more (by rw [hs]; rfl) hmore hprefix
    rw [List.append_assoc, List.singleton_append] at hrest
    rw [List.cons_append, segmentsFrom, if_neg hpass, ← depth?_concat, hrest, List.foldr_cons]

theorem segments_separator (hsep : sep ≠ []) (rest : List Char) :
    segments sep (sep ++ rest) = [] :: segments sep rest := by
  cases sep with
  | nil => exact absurd rfl hsep
  | cons c sep =>
    have hprefix : (c :: sep).isPrefixOf (c :: (sep ++ rest)) = true :=
      List.isPrefixOf_iff_prefix.mpr (List.prefix_append (c :: sep) rest)
    rw [segments, List.cons_append, segmentsFrom, if_pos ⟨rfl, hprefix⟩, List.length_cons,
      Nat.add_sub_cancel, segmentsFrom_skip, segments]

theorem Uncut.segments_eq (h : Uncut sep s []) : segments sep s = [s] := by
  have hscan := segmentsFrom_append (u := []) h
  rw [List.append_nil, List.nil_append, segmentsFrom, foldr_consHead, List.append_nil] at hscan
  exact hscan

/-- Behind a balanced text the scan goes on as at the start. -/
theorem Uncut.segments_foldr (h : Uncut sep s rest) (hs : Balanced s) :
    segments sep (s ++ rest) = s.foldr consHead (segments sep rest) := by
  have hscan := segmentsFrom_append (u := []) h
  rw [List.nil_append, depth?_eq_iff.mpr hs] at hscan
  exact hscan

theorem Uncut.segments_append (h : Uncut sep s (sep ++ rest)) (hsep : sep ≠ [])
    (hs : Balanced s) : segments sep (s ++ (sep ++ rest)) = s :: segments sep rest := by
  rw [h.segments_foldr hs, segments_separator hsep, foldr_consHead, List.append_nil]

/-! ## The only segmentation -/

theorem flatMap_separator (sep t : List Char) (segs : List (List Char)) :
    (t :: segs).flatMap (sep ++ ·) = sep ++ sep.intercalate (t :: segs) := by
  induction segs generalizing t with
  | nil => simp
  | cons v segs ih =>
    rw [List.flatMap_cons, ih, List.intercalate_cons_cons, List.append_assoc, List.append_assoc]

theorem Uncut.segmentation (h : Uncut sep s []) : Segmentation sep s [s] where
  ne_nil := List.cons_ne_nil s []
  joined := by simp
  accepted := by simp
  uncut := by
    intro before t after hsplit
    obtain ⟨rfl, rfl, rfl⟩ : before = [] ∧ t = s ∧ after = [] := by
      simpa [List.singleton_eq_append_iff] using hsplit
    exact h

theorem Segmentation.cons (h : Segmentation sep rest segs) (hs : Balanced s)
    (hcut : Uncut sep s (sep ++ rest)) : Segmentation sep (s ++ (sep ++ rest)) (s :: segs) := by
  obtain ⟨hne, rfl, haccepted, huncut⟩ := h
  cases segs with
  | nil => exact absurd rfl hne
  | cons t segs =>
    refine ⟨List.cons_ne_nil s _, ?_, ?_, ?_⟩
    · rw [List.intercalate_cons_cons, List.append_assoc]
    · rw [List.dropLast_cons_cons, List.forall_mem_cons]
      exact ⟨check_eq_ok_iff.mpr hs, haccepted⟩
    · intro before v after hsplit
      cases before with
      | nil =>
        obtain ⟨rfl, rfl⟩ := List.cons.inj hsplit
        rw [flatMap_separator]
        exact hcut
      | cons w before => exact huncut before v after (List.cons.inj hsplit).2

theorem Segmentation.of_cons (h : Segmentation sep raw (s :: t :: segs)) :
    ∃ rest, raw = s ++ (sep ++ rest) ∧ Balanced s ∧ Uncut sep s (sep ++ rest) ∧
      Segmentation sep rest (t :: segs) := by
  obtain ⟨_, rfl, haccepted, huncut⟩ := h
  rw [List.dropLast_cons_cons, List.forall_mem_cons] at haccepted
  refine ⟨sep.intercalate (t :: segs), ?_, check_eq_ok_iff.mp haccepted.1, ?_, ?_⟩
  · rw [List.intercalate_cons_cons, List.append_assoc]
  · rw [← flatMap_separator]
    exact huncut [] s (t :: segs) rfl
  · refine ⟨List.cons_ne_nil t segs, rfl, haccepted.2, ?_⟩
    intro before v after hsplit
    exact huncut (s :: before) v after (by rw [hsplit, List.cons_append])

theorem Segmentation.segments_eq (h : Segmentation sep raw segs) (hsep : sep ≠ []) :
    segments sep raw = segs := by
  induction segs generalizing raw with
  | nil => exact absurd rfl h.ne_nil
  | cons s segs ih =>
    cases segs with
    | nil =>
      have hs : raw = s := by simpa using h.joined
      subst hs
      exact Uncut.segments_eq (h.uncut [] raw [] rfl)
    | cons t segs =>
      obtain ⟨rest, rfl, hs, hcut, hrest⟩ := h.of_cons
      rw [hcut.segments_append hsep hs, ih hrest]

theorem exists_first_cut (lead more : List Char) (hmore : sep <+: more) (hlead : Balanced lead) :
    ∃ first rest, lead ++ more = first ++ (sep ++ rest) ∧ Balanced first ∧
      Uncut sep first (sep ++ rest) := by
  induction lead using (measure List.length).wf.induction generalizing more with
  | h lead ih =>
    by_cases hcut : Uncut sep lead more
    · obtain ⟨rest, rfl⟩ := hmore
      exact ⟨lead, rest, rfl, hlead, hcut⟩
    · obtain ⟨shorter, between, rfl, hne, hprefix, hshorter⟩ := not_uncut_iff.mp hcut
      rw [List.append_assoc]
      refine ih shorter ?_ (between ++ more) hprefix hshorter
      change shorter.length < (shorter ++ between).length
      have := List.length_pos_iff.mpr hne
      rw [List.length_append]
      omega

theorem exists_segmentation (hsep : sep ≠ []) (raw : List Char) :
    ∃ segs, Segmentation sep raw segs := by
  induction raw using (measure List.length).wf.induction with
  | h raw ih =>
    by_cases hcut : Uncut sep raw []
    · exact ⟨[raw], hcut.segmentation⟩
    · obtain ⟨lead, more, rfl, _, hprefix, hlead⟩ := not_uncut_iff.mp hcut
      rw [List.append_nil] at hprefix
      obtain ⟨first, rest, heq, hfirst, huncut⟩ := exists_first_cut lead more hprefix hlead
      rw [heq] at ih ⊢
      obtain ⟨segs, hsegs⟩ := ih rest (by
        change rest.length < (first ++ (sep ++ rest)).length
        have := List.length_pos_iff.mpr hsep
        rw [List.length_append, List.length_append]
        omega)
      exact ⟨first :: segs, hsegs.cons hfirst huncut⟩

/-! ## Parts -/

theorem plain_of_isBlank {c : Char} (h : Text.isBlank c = true) : Plain c := by
  intro b
  constructor
  · rintro rfl
    cases b <;> exact absurd h (by decide)
  · rintro rfl
    cases b <;> exact absurd h (by decide)

theorem Uncut.trim (h : Uncut sep s rest) : Uncut sep (Text.trim s) [] := by
  obtain ⟨before, after, hbefore, _, hs⟩ := Text.padded_trim s
  intro lead more htrim hmore hprefix hlead
  rw [List.append_nil] at hprefix
  refine h (before ++ lead) (more ++ after) ?_ (by simp [hmore]) ?_
    ((balanced_of_plain fun c hc => plain_of_isBlank (hbefore c hc)).append hlead)
  · rw [hs, htrim]
    simp
  · rw [List.append_assoc]
    exact hprefix.trans (List.prefix_append more _)

theorem split_eq (hsep : sep ≠ []) (s : List Char) :
    split sep s = ((segments sep s).map Text.trim).filter (!·.isEmpty) := by
  rw [split, if_neg (by simpa using hsep)]

/-- A text has one segmentation, and its parts are what trimming leaves of the segments. A part is
not split any further. -/
theorem split_segmentation (hsep : sep ≠ []) (raw : List Char) :
    (∃ segs, Segmentation sep raw segs ∧ (∀ other, Segmentation sep raw other → other = segs) ∧
      split sep raw = (segs.map Text.trim).filter (!·.isEmpty)) ∧
    ∀ part ∈ split sep raw, split sep part = [part] := by
  obtain ⟨segs, hsegs⟩ := exists_segmentation hsep raw
  have hcut := hsegs.segments_eq hsep
  refine ⟨⟨segs, hsegs, ?_, ?_⟩, ?_⟩
  · intro other hother
    rw [← hother.segments_eq hsep, hcut]
  · rw [split_eq hsep, hcut]
  · intro part hpart
    rw [split_eq hsep, hcut, List.mem_filter, List.mem_map] at hpart
    obtain ⟨⟨s, hs, rfl⟩, hne⟩ := hpart
    obtain ⟨before, after, hbetween⟩ := List.append_of_mem hs
    have huncut := (hsegs.uncut before s after hbetween).trim
    rw [split_eq hsep, huncut.segments_eq, List.map_singleton, Text.trim_trim]
    simp [hne]

/-- Two colons cut where they are met first, and not between brackets. -/
theorem split_segmentation_colons :
    [':', ':'] ≠ [] ∧
      ∃ segs, Segmentation [':', ':'] "f(x::y) :::z".toList segs ∧
        (∀ other, Segmentation [':', ':'] "f(x::y) :::z".toList other → other = segs) ∧
        segs = ["f(x::y) ".toList, ":z".toList] ∧
        split [':', ':'] "f(x::y) :::z".toList = ["f(x::y)".toList, ":z".toList] ∧
        split [':', ':'] ":z".toList = [":z".toList] := by
  have hsep : [':', ':'] ≠ [] := by decide
  obtain ⟨⟨segs, hsegs, hunique, hsplit⟩, hparts⟩ :=
    split_segmentation hsep "f(x::y) :::z".toList
  have hcut : segs = ["f(x::y) ".toList, ":z".toList] := by
    rw [← hsegs.segments_eq hsep]
    decide
  have htrim : (segs.map Text.trim).filter (!·.isEmpty) = ["f(x::y)".toList, ":z".toList] := by
    rw [hcut]
    decide
  refine ⟨hsep, segs, hsegs, hunique, hcut, hsplit.trans htrim, hparts _ ?_⟩
  rw [hsplit, htrim]
  exact List.mem_cons_of_mem _ List.mem_cons_self

end ServiceLoom.Split

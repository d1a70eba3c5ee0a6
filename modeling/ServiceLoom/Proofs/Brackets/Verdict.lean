import Mathlib.Data.List.Induction
import ServiceLoom.Proofs.Brackets
import ServiceLoom.Proofs.Text.Utf8

/-!
# The first imbalance

A text is covered if it closes no kind of brackets more often than it opens it. The check ends at
the first character that makes a first part of the text uncovered. Where all first parts are
covered, it names the first kind that stays open, and then closing brackets at the end would balance
the text.
-/

namespace ServiceLoom.Brackets

variable {s t : List Char} {c : Char} {b : Bracket} {d : Depth}

def Covered (s : List Char) : Prop := ∀ b : Bracket, s.count b.closing ≤ s.count b.opening

/-- The shortest first part of `s` that is not covered is `lead` and then `found`. -/
structure Breaks (s lead : List Char) (found : Char) : Prop where
  isPrefix : lead ++ [found] <+: s
  not_covered : ¬ Covered (lead ++ [found])
  shortest : ∀ p, p <+: s → ¬ Covered p → (lead ++ [found]).length ≤ p.length

/-- Nothing is closed too often, and `b` is the first kind that is opened more often. -/
structure LeavesOpen (s : List Char) (b : Bracket) : Prop where
  covered : ∀ p, p <+: s → Covered p
  uneven : s.count b.closing ≠ s.count b.opening
  first : ∃ earlier later, Bracket.all = earlier ++ b :: later ∧
    ∀ a ∈ earlier, s.count a.closing = s.count a.opening

/-! ## Depths and counts -/

theorem count_of_depth? (h : depth? s = some d) (b : Bracket) :
    s.count b.closing + d.get b = s.count b.opening := by
  induction s using List.reverseRecOn generalizing d with
  | nil =>
    obtain rfl := Option.some.inj h
    simp
  | append_singleton s c ih =>
    rw [depth?_concat] at h
    obtain ⟨e, he, hd⟩ := Option.bind_eq_some_iff.mp h
    have hbefore := ih he
    have hlast := Depth.get_of_feed? hd b
    rw [List.count_append, List.count_append]
    omega

theorem covered_of_depth? (h : depth? s = some d) : Covered s := by
  intro b
  have := count_of_depth? h b
  omega

theorem feed?_eq_none_iff_not_covered (h : depth? s = some d) :
    d.feed? c = none ↔ ¬ Covered (s ++ [c]) := by
  constructor
  · intro hnone hcovered
    obtain ⟨b, rfl, hzero⟩ := Depth.feed?_eq_none_iff.mp hnone
    have hbefore := count_of_depth? h b
    have hlast := hcovered b
    simp [Ne.symm (Bracket.opening_ne_closing b b)] at hlast
    omega
  · intro huncovered
    cases hfeed : d.feed? c with
    | none => rfl
    | some e =>
      refine absurd (covered_of_depth? (d := e) ?_) huncovered
      rw [depth?_concat, h, Option.bind_some, hfeed]

theorem exists_depth?_iff : (∃ d, depth? s = some d) ↔ ∀ p, p <+: s → Covered p := by
  induction s using List.reverseRecOn with
  | nil =>
    refine ⟨fun _ p hp => ?_, fun _ => ⟨{}, rfl⟩⟩
    obtain rfl := List.prefix_nil.mp hp
    exact covered_of_depth? (s := []) rfl
  | append_singleton s c ih =>
    constructor
    · rintro ⟨e, he⟩ p hp
      rcases List.prefix_concat_iff.mp hp with rfl | hp
      · exact covered_of_depth? he
      · rw [depth?_concat] at he
        obtain ⟨d, hd, _⟩ := Option.bind_eq_some_iff.mp he
        exact ih.mp ⟨d, hd⟩ p hp
    · intro hcovered
      obtain ⟨d, hd⟩ := ih.mpr fun p hp => hcovered p (hp.trans (List.prefix_append s [c]))
      rw [depth?_concat, hd, Option.bind_some]
      refine Option.ne_none_iff_exists'.mp fun hnone => ?_
      exact (feed?_eq_none_iff_not_covered hd).mp hnone (hcovered _ List.prefix_rfl)

/-! ## The verdict and the depths -/

theorem checkFrom_eq_unclosed_iff {offset : Nat} : checkFrom offset d s = .error (.unclosed b) ↔
    ∃ e, s.foldlM Depth.feed? d = some e ∧ e.firstOpen? = some b := by
  induction s generalizing offset d with
  | nil =>
    unfold checkFrom
    cases hopen : d.firstOpen? with
    | none => simp [hopen]
    | some a => simp [hopen]
  | cons c s ih =>
    unfold checkFrom
    rw [List.foldlM_cons]
    cases hfeed : d.feed? c with
    | none => simp
    | some e => exact ih

theorem checkFrom_of_refused {offset : Nat} {lead : List Char} {found : Char} {e : Depth}
    (hlead : lead.foldlM Depth.feed? d = some e) (hfound : e.feed? found = none)
    (rest : List Char) : checkFrom offset d (lead ++ found :: rest) =
      .error (.unexpectedClose found (offset + (String.ofList lead).utf8ByteSize)) := by
  induction lead generalizing offset d with
  | nil =>
    obtain rfl := Option.some.inj hlead
    rw [List.nil_append, checkFrom, hfound]
    simp
  | cons c lead ih =>
    rw [List.foldlM_cons] at hlead
    obtain ⟨next, hnext, hlead⟩ := Option.bind_eq_some_iff.mp hlead
    rw [List.cons_append, checkFrom, hnext, Text.utf8ByteSize_ofList_cons, ← Nat.add_assoc]
    exact ih hlead

theorem exists_refused_of_checkFrom {offset place : Nat} {found : Char}
    (h : checkFrom offset d s = .error (.unexpectedClose found place)) :
    ∃ lead rest e, s = lead ++ found :: rest ∧ lead.foldlM Depth.feed? d = some e ∧
      e.feed? found = none ∧ place = offset + (String.ofList lead).utf8ByteSize := by
  induction s generalizing offset d with
  | nil =>
    unfold checkFrom at h
    split at h <;> simp at h
  | cons c s ih =>
    unfold checkFrom at h
    cases hfeed : d.feed? c with
    | none =>
      simp only [hfeed] at h
      obtain ⟨rfl, rfl⟩ := Imbalance.unexpectedClose.inj (Except.error.inj h)
      exact ⟨[], s, d, rfl, rfl, hfeed, by simp⟩
    | some next =>
      simp only [hfeed] at h
      obtain ⟨lead, rest, e, rfl, hlead, hfound, rfl⟩ := ih h
      refine ⟨c :: lead, rest, e, rfl, ?_, hfound, ?_⟩
      · rw [List.foldlM_cons, hfeed]
        exact hlead
      · rw [Text.utf8ByteSize_ofList_cons, Nat.add_assoc]

theorem breaks_iff {lead : List Char} {found : Char} : Breaks s lead found ↔
    ∃ rest d, s = lead ++ found :: rest ∧ depth? lead = some d ∧ d.feed? found = none := by
  constructor
  · rintro ⟨⟨rest, rfl⟩, hbroken, hshortest⟩
    have hcovered : ∀ p, p <+: lead → Covered p := by
      intro p hp
      by_contra hp'
      have hlong := hshortest p ((hp.trans (List.prefix_append lead [found])).trans
        (List.prefix_append _ rest)) hp'
      have hshort := hp.length_le
      simp only [List.length_append, List.length_singleton] at hlong
      omega
    obtain ⟨d, hd⟩ := exists_depth?_iff.mpr hcovered
    exact ⟨rest, d, by simp, hd, (feed?_eq_none_iff_not_covered hd).mpr hbroken⟩
  · rintro ⟨rest, d, rfl, hd, hnone⟩
    refine ⟨⟨rest, by simp⟩, (feed?_eq_none_iff_not_covered hd).mp hnone, ?_⟩
    intro p hp hbroken
    by_contra hshort
    simp only [List.length_append, List.length_singleton] at hshort
    have hlead : p <+: lead :=
      List.prefix_of_prefix_length_le hp (List.prefix_append lead _) (by omega)
    exact hbroken (exists_depth?_iff.mp ⟨d, hd⟩ p hlead)

theorem check_eq_unexpectedClose_iff {found : Char} {offset : Nat} :
    check s = .error (.unexpectedClose found offset) ↔
      ∃ lead, Breaks s lead found ∧ offset = (String.ofList lead).utf8ByteSize := by
  constructor
  · intro h
    obtain ⟨lead, rest, d, hs, hd, hfound, hoffset⟩ := exists_refused_of_checkFrom h
    exact ⟨lead, breaks_iff.mpr ⟨rest, d, hs, hd, hfound⟩, by rw [hoffset, Nat.zero_add]⟩
  · rintro ⟨lead, hbreaks, rfl⟩
    obtain ⟨rest, d, rfl, hd, hfound⟩ := breaks_iff.mp hbreaks
    rw [check, checkFrom_of_refused hd hfound, Nat.zero_add]

theorem firstOpen?_eq_some_iff (h : depth? s = some d) :
    d.firstOpen? = some b ↔ LeavesOpen s b := by
  have heven : ∀ a, d.get a = 0 ↔ s.count a.closing = s.count a.opening := by
    intro a
    have := count_of_depth? h a
    omega
  rw [Depth.firstOpen?, List.find?_eq_some_iff_append]
  simp only [bne_iff_ne, ne_eq, Bool.not_eq_true', bne_eq_false_iff_eq, heven]
  constructor
  · rintro ⟨huneven, hfirst⟩
    exact ⟨exists_depth?_iff.mp ⟨d, h⟩, huneven, hfirst⟩
  · rintro ⟨_, huneven, hfirst⟩
    exact ⟨huneven, hfirst⟩

theorem check_eq_unclosed_iff : check s = .error (.unclosed b) ↔ LeavesOpen s b := by
  rw [check, checkFrom_eq_unclosed_iff]
  constructor
  · rintro ⟨d, hd, hopen⟩
    exact (firstOpen?_eq_some_iff hd).mp hopen
  · intro hleaves
    obtain ⟨d, hd⟩ := exists_depth?_iff.mpr hleaves.covered
    exact ⟨d, hd, (firstOpen?_eq_some_iff hd).mpr hleaves⟩

theorem exists_unexpectedClose_iff :
    (∃ found offset, check s = .error (.unexpectedClose found offset)) ↔
      ∃ p, p <+: s ∧ ¬ Covered p := by
  constructor
  · rintro ⟨found, offset, h⟩
    obtain ⟨lead, hbreaks, _⟩ := check_eq_unexpectedClose_iff.mp h
    exact ⟨_, hbreaks.isPrefix, hbreaks.not_covered⟩
  · rintro ⟨p, hp, hbroken⟩
    cases h : check s with
    | ok _ => exact absurd ((check_eq_ok_iff.mp h).covered p hp) hbroken
    | error imbalance =>
      cases imbalance with
      | unexpectedClose found offset => exact ⟨found, offset, rfl⟩
      | unclosed b => exact absurd ((check_eq_unclosed_iff.mp h).covered p hp) hbroken

/-! ## Longer texts -/

/-- A bracket for every one that is open. -/
def Depth.closers (d : Depth) : List Char :=
  Bracket.all.flatMap fun b => List.replicate (d.get b) b.closing

theorem Depth.count_closing_closers (d : Depth) (b : Bracket) :
    d.closers.count b.closing = d.get b := by
  cases b <;> simp [closers, Bracket.all, Bracket.closing, List.count_replicate]

theorem Depth.count_opening_closers (d : Depth) (b : Bracket) :
    d.closers.count b.opening = 0 := by
  rw [List.count_eq_zero, closers, List.mem_flatMap]
  rintro ⟨a, _, ha⟩
  exact Bracket.opening_ne_closing b a (List.eq_of_mem_replicate ha)

theorem balanced_append_closers (h : depth? s = some d) : Balanced (s ++ d.closers) where
  covered := by
    intro p hp b
    rcases List.prefix_or_prefix_of_prefix hp (List.prefix_append s d.closers) with hp | ⟨q, rfl⟩
    · exact exists_depth?_iff.mp ⟨d, h⟩ p hp b
    · have hq : q <+: d.closers := (List.prefix_append_right_inj s).mp hp
      have hcount := count_of_depth? h b
      have hclosers := hq.sublist.count_le b.closing
      rw [d.count_closing_closers] at hclosers
      rw [List.count_append, List.count_append]
      omega
  even := by
    intro b
    rw [List.count_append, List.count_append, d.count_closing_closers, d.count_opening_closers,
      count_of_depth? h, Nat.add_zero]

theorem exists_append_balanced_iff :
    (∃ t, Balanced (s ++ t)) ↔ ∀ p, p <+: s → Covered p := by
  constructor
  · rintro ⟨t, ht⟩ p hp
    exact ht.covered p (hp.trans (List.prefix_append s t))
  · intro hcovered
    obtain ⟨d, hd⟩ := exists_depth?_iff.mpr hcovered
    exact ⟨d.closers, balanced_append_closers hd⟩

/-- The verdict on every text, and what becomes of it when more is written. -/
theorem check_verdict (s : List Char) :
    (check s = .ok () ↔ Balanced s) ∧
    (∀ found offset, check s = .error (.unexpectedClose found offset) ↔
      ∃ lead, Breaks s lead found ∧ offset = (String.ofList lead).utf8ByteSize) ∧
    ((∃ found offset, check s = .error (.unexpectedClose found offset)) ↔
      ∃ p, p <+: s ∧ ¬ Covered p) ∧
    (∀ b, check s = .error (.unclosed b) ↔ LeavesOpen s b) ∧
    (check s = .ok () → ∀ t, check (s ++ t) = .ok () ↔ check t = .ok ()) ∧
    (∀ b, check s = .error (.unclosed b) → ∃ t, check (s ++ t) = .ok ()) ∧
    ∀ found offset, check s = .error (.unexpectedClose found offset) →
      ∀ t, check (s ++ t) ≠ .ok () := by
  refine ⟨check_eq_ok_iff, fun _ _ => check_eq_unexpectedClose_iff,
    exists_unexpectedClose_iff, fun _ => check_eq_unclosed_iff, ?_, ?_, ?_⟩
  · intro h t
    rw [check_eq_ok_iff, check_eq_ok_iff, (check_eq_ok_iff.mp h).append_iff]
  · intro b h
    simp only [check_eq_ok_iff]
    exact exists_append_balanced_iff.mpr (check_eq_unclosed_iff.mp h).covered
  · intro found offset h t ht
    obtain ⟨p, hp, hbroken⟩ := exists_unexpectedClose_iff.mp ⟨found, offset, h⟩
    exact hbroken (exists_append_balanced_iff.mp ⟨t, check_eq_ok_iff.mp ht⟩ p hp)

example : check "(д]".toList = .error (.unexpectedClose ']' 3) := by decide

end ServiceLoom.Brackets

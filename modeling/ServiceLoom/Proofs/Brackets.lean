import ServiceLoom.Brackets

/-!
# Balanced texts

The check keeps one number for each kind of brackets. It accepts a text exactly if no first part
closes more brackets of a kind than it opens, and the whole text closes as many as it opens.
-/

namespace ServiceLoom

namespace Bracket

@[simp] theorem opening_inj {a b : Bracket} : a.opening = b.opening ↔ a = b := by
  cases a <;> cases b <;> decide

@[simp] theorem closing_inj {a b : Bracket} : a.closing = b.closing ↔ a = b := by
  cases a <;> cases b <;> decide

@[simp] theorem opening_ne_closing (a b : Bracket) : a.opening ≠ b.closing := by
  cases a <;> cases b <;> decide

end Bracket

namespace Brackets

theorem forall_isPrefix_cons_iff {P : List Char → Prop} {c : Char} {cs : List Char} :
    (∀ lead, lead <+: c :: cs → P lead) ↔ P [] ∧ ∀ lead, lead <+: cs → P (c :: lead) := by
  constructor
  · intro h
    refine ⟨h [] List.nil_prefix, ?_⟩
    intro lead hlead
    exact h (c :: lead) (List.cons_prefix_cons.mpr ⟨rfl, hlead⟩)
  · rintro ⟨hnil, hcons⟩ lead hlead
    rcases List.prefix_cons_iff.mp hlead with rfl | ⟨rest, rfl, hrest⟩
    · exact hnil
    · exact hcons rest hrest

namespace Depth

theorem feed?_opening (d : Depth) (b : Bracket) :
    d.feed? b.opening = some (d.set (d.get b + 1) b) := by
  cases b <;> rfl

theorem feed?_closing (d : Depth) (b : Bracket) : d.feed? b.closing = d.close? b := by
  cases b <;> rfl

theorem feed?_of_not_bracket (d : Depth) {c : Char} (hopen : ∀ b : Bracket, b.opening ≠ c)
    (hclose : ∀ b : Bracket, b.closing ≠ c) : d.feed? c = some d := by
  simp [feed?, Bracket.all, hopen, hclose]

@[simp] theorem get_zero (b : Bracket) : Depth.get {} b = 0 := by
  cases b <;> rfl

theorem firstOpen?_eq_none_iff {d : Depth} : d.firstOpen? = none ↔ ∀ b, d.get b = 0 := by
  simp only [firstOpen?, List.find?_eq_none, bne_iff_ne, ne_eq, Decidable.not_not]
  constructor
  · intro h b
    exact h b (by cases b <;> decide)
  · intro h b _
    exact h b

/-- One character moves the count of its own kind and no other. -/
theorem get_of_feed? {d e : Depth} {c : Char} (h : d.feed? c = some e) (b : Bracket) :
    e.get b + [c].count b.closing = d.get b + [c].count b.opening := by
  by_cases hopen : ∃ a : Bracket, a.opening = c
  · obtain ⟨a, rfl⟩ := hopen
    rw [feed?_opening] at h
    obtain rfl := Option.some.inj h
    by_cases hab : b = a
    · subst b
      simp
    · simp [get_set_of_ne d _ hab, Ne.symm hab]
  · by_cases hclose : ∃ a : Bracket, a.closing = c
    · obtain ⟨a, rfl⟩ := hclose
      rw [feed?_closing, close?] at h
      split at h
      · cases h
      · rename_i n hn
        obtain rfl := Option.some.inj h
        by_cases hab : b = a
        · subst b
          simp [hn, Ne.symm (Bracket.opening_ne_closing _ _)]
        · simp [get_set_of_ne d _ hab, Ne.symm hab, Ne.symm (Bracket.opening_ne_closing _ _)]
    · have hopen := not_exists.mp hopen
      have hclose := not_exists.mp hclose
      rw [feed?_of_not_bracket d hopen hclose] at h
      obtain rfl := Option.some.inj h
      simp [Ne.symm (hopen b), Ne.symm (hclose b)]

theorem feed?_eq_none_iff {d : Depth} {c : Char} :
    d.feed? c = none ↔ ∃ b : Bracket, b.closing = c ∧ d.get b = 0 := by
  constructor
  · intro h
    by_cases hclose : ∃ b : Bracket, b.closing = c
    · obtain ⟨b, rfl⟩ := hclose
      rw [feed?_closing, close?] at h
      split at h
      · exact ⟨b, rfl, ‹_›⟩
      · cases h
    · by_cases hopen : ∃ b : Bracket, b.opening = c
      · obtain ⟨b, rfl⟩ := hopen
        rw [feed?_opening] at h
        cases h
      · rw [feed?_of_not_bracket d (not_exists.mp hopen) (not_exists.mp hclose)] at h
        cases h
  · rintro ⟨b, rfl, hzero⟩
    rw [feed?_closing, close?, hzero]

end Depth

/-- From the depths `d` on, no bracket is closed that is not open, and none is left open. -/
structure BalancedFrom (d : Depth) (s : List Char) : Prop where
  covered : ∀ lead, lead <+: s → ∀ b : Bracket,
    lead.count b.closing ≤ d.get b + lead.count b.opening
  even : ∀ b : Bracket, s.count b.closing = d.get b + s.count b.opening

theorem BalancedFrom.cons_iff {d e : Depth} {c : Char} {cs : List Char}
    (h : d.feed? c = some e) : BalancedFrom d (c :: cs) ↔ BalancedFrom e cs := by
  have hstep : ∀ (lead : List Char) (b : Bracket),
      (c :: lead).count b.closing + e.get b + lead.count b.opening =
        lead.count b.closing + d.get b + (c :: lead).count b.opening := by
    intro lead b
    have hc := Depth.get_of_feed? h b
    rw [← List.singleton_append, List.count_append, List.count_append]
    omega
  constructor
  · rintro ⟨hcovered, heven⟩
    constructor
    · intro lead hlead b
      have := (forall_isPrefix_cons_iff.mp hcovered).2 lead hlead b
      have := hstep lead b
      omega
    · intro b
      have := heven b
      have := hstep cs b
      omega
  · rintro ⟨hcovered, heven⟩
    constructor
    · refine forall_isPrefix_cons_iff.mpr ⟨by simp, ?_⟩
      intro lead hlead b
      have := hcovered lead hlead b
      have := hstep lead b
      omega
    · intro b
      have := heven b
      have := hstep cs b
      omega

theorem not_balancedFrom_of_feed? {d : Depth} {c : Char} (h : d.feed? c = none) (cs : List Char) :
    ¬ BalancedFrom d (c :: cs) := by
  obtain ⟨b, rfl, hzero⟩ := Depth.feed?_eq_none_iff.mp h
  rintro ⟨hcovered, _⟩
  have := hcovered [b.closing] (by simp) b
  simp [hzero, Ne.symm (Bracket.opening_ne_closing b b)] at this

theorem checkFrom_eq_ok_iff {offset : Nat} {d : Depth} {s : List Char} :
    checkFrom offset d s = .ok () ↔ BalancedFrom d s := by
  -- along the text, with the depths that the characters before have left
  induction s generalizing offset d with
  | nil =>
    unfold checkFrom
    cases hopen : d.firstOpen? with
    | some b =>
      simp only [reduceCtorEq, false_iff]
      rintro ⟨_, heven⟩
      have hnone : d.firstOpen? = none :=
        Depth.firstOpen?_eq_none_iff.mpr fun b => by simpa using (heven b).symm
      rw [hopen] at hnone
      cases hnone
    | none =>
      have hzero := Depth.firstOpen?_eq_none_iff.mp hopen
      simp only [true_iff]
      refine ⟨?_, fun b => by simp [hzero b]⟩
      intro lead hlead b
      obtain rfl := List.prefix_nil.mp hlead
      simp
  | cons c cs ih =>
    unfold checkFrom
    cases hfeed : d.feed? c with
    | some e => exact ih.trans (BalancedFrom.cons_iff hfeed).symm
    | none => simp [not_balancedFrom_of_feed? hfeed]

/-- Kind by kind, no first part closes more than it opens, and the whole closes all. -/
structure Balanced (s : List Char) : Prop where
  covered : ∀ lead, lead <+: s → ∀ b : Bracket, lead.count b.closing ≤ lead.count b.opening
  even : ∀ b : Bracket, s.count b.closing = s.count b.opening

theorem balancedFrom_zero_iff {s : List Char} : BalancedFrom {} s ↔ Balanced s := by
  constructor
  · rintro ⟨hcovered, heven⟩
    simp only [Depth.get_zero, Nat.zero_add] at hcovered heven
    exact ⟨hcovered, heven⟩
  · rintro ⟨hcovered, heven⟩
    constructor
    · intro lead hlead b
      rw [Depth.get_zero, Nat.zero_add]
      exact hcovered lead hlead b
    · intro b
      rw [Depth.get_zero, Nat.zero_add]
      exact heven b

theorem check_eq_ok_iff {s : List Char} : check s = .ok () ↔ Balanced s := by
  rw [check, checkFrom_eq_ok_iff, balancedFrom_zero_iff]

theorem foldlM_feed?_eq_iff {d : Depth} {s : List Char} :
    s.foldlM Depth.feed? d = some {} ↔ BalancedFrom d s := by
  induction s generalizing d with
  | nil =>
    rw [List.foldlM_nil]
    constructor
    · intro h
      obtain rfl := Option.some.inj h
      exact balancedFrom_zero_iff.mpr ⟨by simp, by simp⟩
    · rintro ⟨_, heven⟩
      refine congrArg some (Depth.ext_get fun b => ?_)
      rw [Depth.get_zero]
      simpa using (heven b).symm
  | cons c cs ih =>
    rw [List.foldlM_cons]
    cases hfeed : d.feed? c with
    | some e => exact ih.trans (BalancedFrom.cons_iff hfeed).symm
    | none => simp [not_balancedFrom_of_feed? hfeed]

theorem depth?_concat (s : List Char) (c : Char) :
    depth? (s ++ [c]) = (depth? s).bind (·.feed? c) := by
  simp [depth?_append]

theorem depth?_eq_iff {s : List Char} : depth? s = some {} ↔ Balanced s := by
  rw [depth?, foldlM_feed?_eq_iff, balancedFrom_zero_iff]

/-! ## Balanced texts put together -/

theorem balanced_nil : Balanced [] := ⟨by simp, by simp⟩

/-- What stands after a balanced text is balanced by itself or not at all. -/
theorem Balanced.append_iff {s t : List Char} (h : Balanced s) :
    Balanced (s ++ t) ↔ Balanced t := by
  rw [← depth?_eq_iff, ← depth?_eq_iff, depth?_append, depth?_eq_iff.mpr h]
  rfl

theorem Balanced.append {s t : List Char} (hs : Balanced s) (ht : Balanced t) :
    Balanced (s ++ t) := hs.append_iff.mpr ht

theorem balanced_intercalate {sep : List Char} {parts : List (List Char)} (hsep : Balanced sep)
    (h : ∀ s ∈ parts, Balanced s) : Balanced (sep.intercalate parts) := by
  induction parts with
  | nil => exact balanced_nil
  | cons s parts ih =>
    rw [List.forall_mem_cons] at h
    cases parts with
    | nil => simpa using h.1
    | cons t parts =>
      rw [List.intercalate_cons_cons]
      exact (h.1.append hsep).append (ih h.2)

/-- A character that neither opens nor closes. -/
def Plain (c : Char) : Prop := ∀ b : Bracket, c ≠ b.opening ∧ c ≠ b.closing

instance (c : Char) : Decidable (Plain c) :=
  decidable_of_iff (∀ b ∈ Bracket.all, c ≠ b.opening ∧ c ≠ b.closing)
    ⟨fun h b => h b (by cases b <;> decide), fun h b _ => h b⟩

theorem balanced_of_plain {s : List Char} (h : ∀ c ∈ s, Plain c) : Balanced s := by
  have hzero : ∀ lead, lead <+: s → ∀ b : Bracket,
      lead.count b.closing = 0 ∧ lead.count b.opening = 0 := by
    intro lead hlead b
    exact ⟨List.count_eq_zero.mpr fun hmem => (h _ (hlead.subset hmem) b).2 rfl,
      List.count_eq_zero.mpr fun hmem => (h _ (hlead.subset hmem) b).1 rfl⟩
  constructor
  · intro lead hlead b
    rw [(hzero lead hlead b).1]
    exact Nat.zero_le _
  · intro b
    rw [(hzero s List.prefix_rfl b).1, (hzero s List.prefix_rfl b).2]

/-- Inside a pair of brackets there is always one more open. -/
theorem Balanced.not_balanced_cons {s lead : List Char} (h : Balanced s) (b : Bracket)
    (hlead : lead <+: s) : ¬ Balanced (b.opening :: lead) := by
  intro hcons
  have hcovered := h.covered lead hlead b
  have heven := hcons.even b
  rw [List.count_cons_self, List.count_cons_of_ne (by simp)] at heven
  omega

theorem Balanced.enclose {s : List Char} (h : Balanced s) (b : Bracket) :
    Balanced (b.opening :: (s ++ [b.closing])) := by
  have heven : ∀ a : Bracket, (b.opening :: (s ++ [b.closing])).count a.closing =
      (b.opening :: (s ++ [b.closing])).count a.opening := by
    intro a
    have := h.even a
    by_cases hab : b = a
    · simp [hab, Ne.symm (Bracket.opening_ne_closing a a)]
      omega
    · simp [hab, Ne.symm (Bracket.opening_ne_closing a b)]
      omega
  refine ⟨forall_isPrefix_cons_iff.mpr ⟨by simp, ?_⟩, heven⟩
  intro lead hlead a
  rcases List.prefix_concat_iff.mp hlead with rfl | hlead
  · exact Nat.le_of_eq (heven a)
  · rw [List.count_cons_of_ne (by simp)]
    exact Nat.le_trans (h.covered lead hlead a) List.count_le_count_cons

instance (s : List Char) : Decidable (Balanced s) :=
  match h : check s with
  | .ok () => .isTrue (check_eq_ok_iff.mp h)
  | .error _ => .isFalse fun hs => by
    rw [check_eq_ok_iff.mpr hs] at h
    cases h

end Brackets

end ServiceLoom

import ServiceLoom.Proofs.Brackets
import ServiceLoom.Tag.Resolve

/-!
# Groups in parentheses

What may follow the name of a tag is one group: a balanced text whose first parenthesis is closed by
its last character. Round brackets are counted twice, once among all brackets and once alone: the
first count accepts `(a)(b)` and only the second one sees that the text goes on after the payload.
-/

namespace ServiceLoom.Tag

/-- A balanced text whose first parenthesis is closed by its last character. -/
structure Group (inner : List Char) : Prop where
  balanced : Brackets.Balanced ('(' :: (inner ++ [')']))
  closesLast : ∀ lead, lead <+: '(' :: (inner ++ [')']) → lead ≠ [] →
    lead.count '(' = lead.count ')' → lead = '(' :: (inner ++ [')'])

/-- With `depth` parentheses open before the text, the first character that closes the outermost of
them is the one right after it. -/
structure Enclosed (depth : Nat) (inner : List Char) : Prop where
  even : inner.count ')' + 1 = depth + inner.count '('
  inside : ∀ lead, lead <+: inner → lead.count ')' < depth + lead.count '('

theorem enclosed_nil_iff {depth : Nat} : Enclosed depth [] ↔ depth = 1 := by
  constructor
  · rintro ⟨heven, _⟩
    simpa using heven.symm
  · rintro rfl
    refine ⟨rfl, ?_⟩
    intro lead hlead
    obtain rfl := List.prefix_nil.mp hlead
    exact Nat.one_pos

theorem Enclosed.cons_iff {depth level : Nat} {c : Char} {inner : List Char} (hdepth : 0 < depth)
    (hlevel : level + [c].count ')' = depth + [c].count '(') :
    Enclosed depth (c :: inner) ↔ Enclosed level inner := by
  have hstep : ∀ lead : List Char,
      (c :: lead).count ')' + level + lead.count '(' =
        lead.count ')' + depth + (c :: lead).count '(' := by
    intro lead
    rw [← List.singleton_append, List.count_append, List.count_append]
    omega
  constructor
  · rintro ⟨heven, hinside⟩
    have := hstep inner
    refine ⟨by omega, ?_⟩
    intro lead hlead
    have := (Brackets.forall_isPrefix_cons_iff.mp hinside).2 lead hlead
    have := hstep lead
    omega
  · rintro ⟨heven, hinside⟩
    have := hstep inner
    refine ⟨by omega, Brackets.forall_isPrefix_cons_iff.mpr ⟨by simpa using hdepth, ?_⟩⟩
    intro lead hlead
    have := hinside lead hlead
    have := hstep lead
    omega

theorem map_cons_closeParen_iff {depth level : Nat} {c : Char} {cs inner after : List Char}
    (hdepth : 0 < depth) (hlevel : level + [c].count ')' = depth + [c].count '(')
    (hclose : ¬ (c = ')' ∧ depth = 1))
    (ih : ∀ {inner}, closeParen level cs = some (inner, after) ↔
      cs = inner ++ ')' :: after ∧ Enclosed level inner) :
    (closeParen level cs).map (fun (inner, rest) => (c :: inner, rest)) = some (inner, after) ↔
      c :: cs = inner ++ ')' :: after ∧ Enclosed depth inner := by
  cases inner with
  | nil =>
    rw [enclosed_nil_iff]
    constructor
    · simp
    · rintro ⟨hcs, hone⟩
      exact absurd ⟨(List.cons.inj hcs).1, hone⟩ hclose
  | cons d inner =>
    simp only [Option.map_eq_some_iff, Prod.exists, Prod.mk.injEq, List.cons.injEq,
      List.cons_append]
    constructor
    · rintro ⟨rest, _, hrest, ⟨rfl, rfl⟩, rfl⟩
      obtain ⟨rfl, henclosed⟩ := ih.mp hrest
      exact ⟨⟨rfl, rfl⟩, (Enclosed.cons_iff hdepth hlevel).mpr henclosed⟩
    · rintro ⟨⟨rfl, rfl⟩, henclosed⟩
      exact ⟨inner, after, ih.mpr ⟨rfl, (Enclosed.cons_iff hdepth hlevel).mp henclosed⟩,
        ⟨rfl, rfl⟩, rfl⟩

theorem closeParen_eq_some_iff {depth : Nat} (hdepth : 0 < depth) {cs inner after : List Char} :
    closeParen depth cs = some (inner, after) ↔
      cs = inner ++ ')' :: after ∧ Enclosed depth inner := by
  -- along the scan: every character but the one that closes moves the level and is passed over
  fun_induction closeParen depth cs generalizing inner with
  | case1 => simp
  | case2 depth cs ih =>
    exact map_cons_closeParen_iff hdepth (by simp) (by simp) (ih (Nat.succ_pos depth))
  | case3 depth cs hle =>
    have hone : depth = 1 := by omega
    subst depth
    cases inner with
    | nil => simp [enclosed_nil_iff, eq_comm]
    | cons d inner =>
      simp only [Option.some.injEq, Prod.mk.injEq, List.cons_append, List.cons.injEq]
      constructor
      · rintro ⟨h, _⟩
        cases h
      · rintro ⟨⟨rfl, _⟩, henclosed⟩
        exact absurd (henclosed.inside [')'] (by simp)) (by decide)
  | case4 depth cs hle ih =>
    exact map_cons_closeParen_iff hdepth (by simp; omega) (by omega) (ih (by omega))
  | case5 depth c cs hopen hclose ih =>
    have hlevel : depth + [c].count ')' = depth + [c].count '(' := by
      rw [List.count_singleton, List.count_singleton, if_neg (by simpa using hclose),
        if_neg (by simpa using hopen)]
    exact map_cons_closeParen_iff hdepth hlevel (fun h => hclose h.1) (ih hdepth)

/-- In a balanced text, a group is what encloses its inner text. -/
theorem group_iff {inner : List Char} :
    Group inner ↔ Brackets.Balanced ('(' :: (inner ++ [')'])) ∧ Enclosed 1 inner := by
  have hopen : ∀ lead : List Char, ('(' :: lead).count '(' = lead.count '(' + 1 := by simp
  have hclose : ∀ lead : List Char, ('(' :: lead).count ')' = lead.count ')' := by simp
  have hend : (inner ++ [')']).count '(' = inner.count '(' := by simp
  have hends : (inner ++ [')']).count ')' = inner.count ')' + 1 := by simp
  constructor
  · rintro ⟨hbalanced, hlast⟩
    refine ⟨hbalanced, ?_, ?_⟩
    · have heven : ('(' :: (inner ++ [')'])).count ')' = ('(' :: (inner ++ [')'])).count '(' :=
        hbalanced.even .round
      rw [hopen, hclose, hend, hends] at heven
      omega
    · intro lead hlead
      have hlong : '(' :: lead <+: '(' :: (inner ++ [')']) :=
        List.cons_prefix_cons.mpr ⟨rfl, hlead.trans (List.prefix_append _ _)⟩
      have hcovered : ('(' :: lead).count ')' ≤ ('(' :: lead).count '(' :=
        hbalanced.covered _ hlong .round
      -- equal counts would make this part the whole text, which is longer
      have hne : ('(' :: lead).count '(' ≠ ('(' :: lead).count ')' := by
        intro heq
        have hwhole := congrArg List.length (hlast _ hlong (List.cons_ne_nil _ _) heq)
        have hlength := hlead.length_le
        rw [List.length_cons, List.length_cons, List.length_append, List.length_singleton] at hwhole
        omega
      rw [hopen, hclose] at hcovered hne
      omega
  · rintro ⟨hbalanced, henclosed⟩
    refine ⟨hbalanced, ?_⟩
    intro lead hlead hne heq
    rcases List.prefix_cons_iff.mp hlead with rfl | ⟨part, rfl, hpart⟩
    · exact absurd rfl hne
    · rcases List.prefix_concat_iff.mp hpart with rfl | hpart
      · rfl
      · have := henclosed.inside part hpart
        rw [hopen, hclose] at heq
        omega

/-- The parentheses close each other exactly if nothing between them closes one of the two. -/
theorem group_iff_balanced {inner : List Char} : Group inner ↔ Brackets.Balanced inner := by
  have hother : ∀ {b : Bracket}, b ≠ .round → ∀ t : List Char,
      ('(' :: t).count b.opening = t.count b.opening ∧
      ('(' :: t).count b.closing = t.count b.closing ∧
      (t ++ [')']).count b.opening = t.count b.opening ∧
      (t ++ [')']).count b.closing = t.count b.closing := by
    intro b hb t
    cases b with
    | round => exact absurd rfl hb
    | square | curly | angle => simp [Bracket.opening, Bracket.closing]
  rw [group_iff]
  constructor
  · rintro ⟨hbalanced, henclosed⟩
    constructor
    · intro lead hlead b
      by_cases hb : b = .round
      · subst b
        have := henclosed.inside lead hlead
        show lead.count ')' ≤ lead.count '('
        omega
      · have hlong : '(' :: lead <+: '(' :: (inner ++ [')']) :=
          List.cons_prefix_cons.mpr ⟨rfl, hlead.trans (List.prefix_append _ _)⟩
        have hcovered := hbalanced.covered _ hlong b
        rwa [(hother hb lead).1, (hother hb lead).2.1] at hcovered
    · intro b
      by_cases hb : b = .round
      · subst b
        have := henclosed.even
        show inner.count ')' = inner.count '('
        omega
      · have heven := hbalanced.even b
        rwa [(hother hb _).1, (hother hb _).2.1, (hother hb inner).2.2.1,
          (hother hb inner).2.2.2] at heven
  · intro h
    have heven : inner.count ')' = inner.count '(' := h.even .round
    refine ⟨h.enclose .round, by omega, ?_⟩
    intro lead hlead
    have : lead.count ')' ≤ lead.count '(' := h.covered lead hlead .round
    omega

theorem payload_paren_eq_ok_iff {cs : List Char} {text : Option String} :
    payload ('(' :: cs) = .ok text ↔
      ∃ inner, cs = inner ++ [')'] ∧ Group inner ∧
        text = some (String.ofList (Text.trim inner)) := by
  constructor
  · intro h
    unfold payload at h
    cases hcheck : Brackets.check ('(' :: cs) with
    | error imbalance =>
      simp only [hcheck] at h
      cases h
    | ok _ =>
      simp only [hcheck] at h
      split at h
      · cases h
      · rename_i inner hclose
        obtain ⟨rfl, henclosed⟩ := (closeParen_eq_some_iff Nat.one_pos).mp hclose
        have hbalanced := Brackets.check_eq_ok_iff.mp hcheck
        exact ⟨inner, rfl, group_iff.mpr ⟨hbalanced, henclosed⟩, (Except.ok.inj h).symm⟩
      · cases h
  · rintro ⟨inner, rfl, hgroup, rfl⟩
    have hcheck := Brackets.check_eq_ok_iff.mpr hgroup.balanced
    have hclose : closeParen 1 (inner ++ [')']) = some (inner, []) :=
      (closeParen_eq_some_iff Nat.one_pos).mpr ⟨rfl, (group_iff.mp hgroup).2⟩
    simp only [payload, hcheck, hclose]

theorem payload_eq_ok_iff {rest : List Char} {text : Option String} :
    payload rest = .ok text ↔ (rest = [] ∧ text = none) ∨
      ∃ inner, rest = '(' :: (inner ++ [')']) ∧ Group inner ∧
        text = some (String.ofList (Text.trim inner)) := by
  cases rest with
  | nil =>
    constructor
    · intro h
      exact Or.inl ⟨rfl, (Except.ok.inj h).symm⟩
    · rintro (⟨_, rfl⟩ | ⟨inner, hnil, _⟩)
      · rfl
      · cases hnil
  | cons c cs =>
    by_cases hc : c = '('
    · subst c
      rw [payload_paren_eq_ok_iff]
      simp
    · have herror : payload (c :: cs) = .error (.textAfterName (String.ofList (c :: cs))) := by
        unfold payload
        split
        · contradiction
        · rename_i heq
          exact absurd (List.cons.inj heq).1 hc
        · rfl
      rw [herror]
      simp [hc]

end ServiceLoom.Tag

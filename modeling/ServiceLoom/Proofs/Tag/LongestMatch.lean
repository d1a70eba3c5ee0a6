import ServiceLoom.Tag.Resolve

/-!
# The longest match

A name is spelled at the start of a token up to ASCII case. The name that resolution takes is one
of the spelled names and none of them is longer; names that are spelled shorter than the chosen one
never change the choice, wherever they stand in the lists.
-/

namespace ServiceLoom.Tag

/-- The text after `@` starts with a spelling of the name. -/
def Spelled (name : String) (token : List Char) : Prop :=
  name ≠ "" ∧ ∃ body, token = '@' :: body ∧ Text.startsWithFold name.toList body = true

/-- The names that a token could belong to, in the order of the list. -/
def matching (token : List Char) (names : List String) : List String :=
  match token with
  | '@' :: body => candidates body names
  | _ => []

theorem longestMatch?_eq (token : List Char) (names : List String) :
    longestMatch? token names = longest? (matching token names) := by
  fun_cases longestMatch? token names with
  | case1 body => rfl
  | case2 _ hne => simp [matching, longest?]

theorem mem_matching_iff {token : List Char} {names : List String} {name : String} :
    name ∈ matching token names ↔ name ∈ names ∧ Spelled name token := by
  unfold matching Spelled
  split
  · rename_i body
    simp [candidates]
  · rename_i hne
    constructor
    · intro h
      cases h
    · rintro ⟨_, _, body, rfl, _⟩
      exact absurd rfl (hne body)

theorem matching_append (token : List Char) (old new : List String) :
    matching token (old ++ new) = matching token old ++ matching token new := by
  unfold matching
  split
  · simp [candidates]
  · rfl

def longer (best : Option String) (name : String) : Option String :=
  match best with
  | none => some name
  | some b => if b.length ≤ name.length then some name else some b

theorem longest?_eq_foldl (names : List String) : longest? names = names.foldl longer none := rfl

theorem foldl_longer_some (start : String) (names : List String) :
    ∃ n, names.foldl longer (some start) = some n ∧ (n = start ∨ n ∈ names) ∧
      start.length ≤ n.length ∧ ∀ x ∈ names, x.length ≤ n.length := by
  induction names generalizing start with
  | nil => exact ⟨start, rfl, Or.inl rfl, Nat.le_refl _, by simp⟩
  | cons name names ih =>
    by_cases h : start.length ≤ name.length
    · obtain ⟨n, hn, hmem, hstart, hall⟩ := ih name
      refine ⟨n, by simpa [longer, h] using hn, ?_, Nat.le_trans h hstart, ?_⟩
      · rcases hmem with rfl | hmem
        · exact Or.inr List.mem_cons_self
        · exact Or.inr (List.mem_cons_of_mem _ hmem)
      · intro x hx
        rcases List.mem_cons.mp hx with rfl | hx
        · exact hstart
        · exact hall x hx
    · obtain ⟨n, hn, hmem, hstart, hall⟩ := ih start
      refine ⟨n, by simpa [longer, h] using hn, ?_, hstart, ?_⟩
      · rcases hmem with rfl | hmem
        · exact Or.inl rfl
        · exact Or.inr (List.mem_cons_of_mem _ hmem)
      · intro x hx
        rcases List.mem_cons.mp hx with rfl | hx
        · omega
        · exact hall x hx

theorem longest?_eq_none_iff {names : List String} : longest? names = none ↔ names = [] := by
  cases names with
  | nil => simp [longest?]
  | cons name names =>
    obtain ⟨n, hn, _⟩ := foldl_longer_some name names
    have h : longest? (name :: names) = some n := hn
    simp [h]

theorem mem_and_le_of_longest? {names : List String} {n : String} (h : longest? names = some n) :
    n ∈ names ∧ ∀ x ∈ names, x.length ≤ n.length := by
  cases names with
  | nil => cases h
  | cons name names =>
    obtain ⟨m, hm, hmem, hstart, hall⟩ := foldl_longer_some name names
    have hnm : n = m := Option.some.inj (h.symm.trans hm)
    subst n
    constructor
    · rcases hmem with rfl | hmem
      · exact List.mem_cons_self
      · exact List.mem_cons_of_mem _ hmem
    · intro x hx
      rcases List.mem_cons.mp hx with rfl | hx
      · exact hstart
      · exact hall x hx

theorem longest?_append_of_shorter {old new : List String} {n : String}
    (h : longest? old = some n) (hnew : ∀ x ∈ new, x.length < n.length) :
    longest? (old ++ new) = some n := by
  rw [longest?_eq_foldl, List.foldl_append, ← longest?_eq_foldl, h]
  induction new with
  | nil => rfl
  | cons x new ih =>
    have hx : ¬ n.length ≤ x.length := by
      have := hnew x List.mem_cons_self
      omega
    rw [List.foldl_cons, longer, if_neg hx]
    exact ih (fun y hy => hnew y (List.mem_cons_of_mem _ hy))

/-- What a choice rests on: the name is the longest of its own pool and longer than every name of
the token in the other pool. -/
theorem choose_eq_ok_iff {token : List Char} {builtin custom : List String} {pool : Pool}
    {n : String} :
    choose token builtin custom = .ok (pool, n) ↔
      match pool with
      | .builtin => longestMatch? token builtin = some n ∧
          ∀ x ∈ matching token custom, x.length < n.length
      | .custom => longestMatch? token custom = some n ∧
          ∀ x ∈ matching token builtin, x.length < n.length := by
  have hlt : ∀ {names : List String} {c : String}, longestMatch? token names = some c →
      ((∀ x ∈ matching token names, x.length < n.length) ↔ c.length < n.length) := by
    intro names c hc
    rw [longestMatch?_eq] at hc
    obtain ⟨hmem, hall⟩ := mem_and_le_of_longest? hc
    exact ⟨fun h => h c hmem, fun h x hx => Nat.lt_of_le_of_lt (hall x hx) h⟩
  have hnil : ∀ {names : List String}, longestMatch? token names = none →
      ∀ x ∈ matching token names, x.length < n.length := by
    intro names hn x hx
    rw [longestMatch?_eq, longest?_eq_none_iff] at hn
    rw [hn] at hx
    cases hx
  unfold choose
  cases hb : longestMatch? token builtin with
  | none =>
    cases hc : longestMatch? token custom with
    | none => cases pool <;> simp
    | some c =>
      have := hnil hb
      cases pool <;> simp_all
  | some b =>
    cases hc : longestMatch? token custom with
    | none =>
      have := hnil hc
      cases pool <;> simp_all
    | some c =>
      cases pool <;> simp only [hlt hb, hlt hc] <;> grind

end ServiceLoom.Tag

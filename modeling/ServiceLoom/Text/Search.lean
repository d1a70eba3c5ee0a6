/-!
# Occurrences inside a text

`replaceAll` substitutes the leftmost occurrences that do not overlap, in one pass over the text.
-/

namespace ServiceLoom.Text

def occursIn (part : List Char) : List Char → Bool
  | [] => part.isEmpty
  | c :: cs => part.isPrefixOf (c :: cs) || occursIn part cs

private def replaceFrom (old new : List Char) : Nat → List Char → List Char
  | _, [] => []
  | skip + 1, _ :: cs => replaceFrom old new skip cs
  | 0, c :: cs =>
    if old.isPrefixOf (c :: cs) then new ++ replaceFrom old new (old.length - 1) cs
    else c :: replaceFrom old new 0 cs

/-- Every occurrence of `old`, which is not empty, replaced by `new`. -/
def replaceAll (old new s : List Char) : List Char :=
  if old.isEmpty then s else replaceFrom old new 0 s

theorem occursIn_iff {part s : List Char} :
    occursIn part s = true ↔ ∃ before after, s = before ++ part ++ after := by
  induction s with
  | nil => simp [occursIn]
  | cons c cs ih =>
    simp only [occursIn, Bool.or_eq_true, List.isPrefixOf_iff_prefix, ih]
    constructor
    · rintro (⟨after, h⟩ | ⟨before, after, h⟩)
      · exact ⟨[], after, by simpa using h.symm⟩
      · exact ⟨c :: before, after, by simp [h]⟩
    · rintro ⟨before, after, h⟩
      cases before with
      | nil => exact Or.inl ⟨after, by simpa using h.symm⟩
      | cons b before =>
        simp only [List.cons_append, List.cons.injEq] at h
        exact Or.inr ⟨before, after, h.2⟩

private theorem replaceFrom_eq_drop (old new : List Char) (skip : Nat) (s : List Char) :
    replaceFrom old new skip s = replaceFrom old new 0 (s.drop skip) := by
  induction s generalizing skip with
  | nil => cases skip <;> rfl
  | cons c s ih =>
    cases skip with
    | zero => rfl
    | succ skip => rw [replaceFrom, ih, List.drop_succ_cons]

@[simp] theorem replaceAll_nil (old new : List Char) : replaceAll old new [] = [] := by
  cases old <;> rfl

theorem replaceAll_append {old : List Char} (h : old ≠ []) (new t : List Char) :
    replaceAll old new (old ++ t) = new ++ replaceAll old new t := by
  cases old with
  | nil => exact absurd rfl h
  | cons c old =>
    have hprefix : (c :: old).isPrefixOf (c :: (old ++ t)) = true :=
      List.isPrefixOf_iff_prefix.mpr (List.prefix_append (c :: old) t)
    simp only [replaceAll, List.isEmpty_cons, Bool.false_eq_true, if_false, List.cons_append]
    rw [replaceFrom, if_pos hprefix, replaceFrom_eq_drop, List.length_cons, Nat.add_sub_cancel,
      List.drop_left]

theorem replaceAll_cons {old s : List Char} {c : Char} (h : ¬ old <+: c :: s) (new : List Char) :
    replaceAll old new (c :: s) = c :: replaceAll old new s := by
  cases old with
  | nil => exact absurd List.nil_prefix h
  | cons d old =>
    rw [← List.isPrefixOf_iff_prefix] at h
    simp only [replaceAll, List.isEmpty_cons, Bool.false_eq_true, if_false]
    rw [replaceFrom, if_neg h]

end ServiceLoom.Text

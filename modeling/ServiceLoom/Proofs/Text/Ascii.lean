import ServiceLoom.Text.Ascii

/-!
# Folding ASCII letters

Lower case is reached in one step and only letters move, so a character that is not a letter is met
by itself alone. A text starts with a spelling of a name exactly if some first part of it has the
name's lower-case form.
-/

namespace ServiceLoom.Text

theorem isAsciiUpper_iff {c : Char} : isAsciiUpper c = true ↔ 65 ≤ c.toNat ∧ c.toNat ≤ 90 := by
  simp only [isAsciiUpper, Bool.and_eq_true, decide_eq_true_eq]
  exact Iff.rfl

theorem isAsciiLower_iff {c : Char} : isAsciiLower c = true ↔ 97 ≤ c.toNat ∧ c.toNat ≤ 122 := by
  simp only [isAsciiLower, Bool.and_eq_true, decide_eq_true_eq]
  exact Iff.rfl

theorem isAsciiDigit_iff {c : Char} : isAsciiDigit c = true ↔ 48 ≤ c.toNat ∧ c.toNat ≤ 57 := by
  simp only [isAsciiDigit, Bool.and_eq_true, decide_eq_true_eq]
  exact Iff.rfl

theorem toNat_toLower_of_upper {c : Char} (h : isAsciiUpper c = true) :
    c.toLower.toNat = c.toNat + 32 := by
  obtain ⟨hlow, hhigh⟩ := isAsciiUpper_iff.mp h
  have hrange : c.val ≥ 'A'.val ∧ c.val ≤ 'Z'.val := ⟨hlow, hhigh⟩
  have hadd : (c.val + ('a'.val - 'A'.val)).toNat = (c.val.toNat + 32) % 2 ^ 32 := rfl
  unfold Char.toLower
  rw [dif_pos hrange, Char.toNat_mk, hadd, Char.toNat_val]
  omega

theorem toLower_of_not_upper {c : Char} (h : isAsciiUpper c = false) : c.toLower = c := by
  have hrange : ¬ (c.val ≥ 'A'.val ∧ c.val ≤ 'Z'.val) := by
    rintro ⟨hlow, hhigh⟩
    rw [isAsciiUpper_iff.mpr ⟨hlow, hhigh⟩] at h
    cases h
  unfold Char.toLower
  rw [dif_neg hrange]

/-- What lower case makes of a character: itself, or a small letter out of a capital one. -/
theorem toLower_cases (c : Char) :
    c.toLower = c ∨ (isAsciiUpper c = true ∧ isAsciiLower c.toLower = true) := by
  cases h : isAsciiUpper c with
  | false => exact Or.inl (toLower_of_not_upper h)
  | true =>
    have hnat := toNat_toLower_of_upper h
    obtain ⟨hlow, hhigh⟩ := isAsciiUpper_iff.mp h
    exact Or.inr ⟨rfl, isAsciiLower_iff.mpr (by omega)⟩

theorem isAsciiUpper_of_isAsciiLower {c : Char} (h : isAsciiLower c = true) :
    isAsciiUpper c = false := by
  obtain ⟨hlow, _⟩ := isAsciiLower_iff.mp h
  cases hu : isAsciiUpper c with
  | false => rfl
  | true =>
    obtain ⟨_, hhigh⟩ := isAsciiUpper_iff.mp hu
    omega

@[simp] theorem toLower_toLower (c : Char) : c.toLower.toLower = c.toLower := by
  rcases toLower_cases c with h | ⟨_, hlower⟩
  · rw [h, h]
  · exact toLower_of_not_upper (isAsciiUpper_of_isAsciiLower hlower)

theorem isAsciiUpper_toLower (c : Char) : isAsciiUpper c.toLower = false := by
  cases h : isAsciiUpper c.toLower with
  | false => rfl
  | true =>
    have hnat := toNat_toLower_of_upper h
    rw [toLower_toLower] at hnat
    omega

theorem isAsciiWord_toLower {c : Char} (h : isAsciiWord c = true) :
    isAsciiWord c.toLower = true := by
  rcases toLower_cases c with hc | ⟨_, hlower⟩
  · rw [hc]
    exact h
  · simp [isAsciiWord, isAsciiLetter, hlower]

theorem isAsciiWord_of_toLower {c : Char} (h : isAsciiWord c.toLower = true) :
    isAsciiWord c = true := by
  rcases toLower_cases c with hc | ⟨hupper, _⟩
  · rwa [hc] at h
  · simp [isAsciiWord, isAsciiLetter, hupper]

/-- Lower case meets a character that is no small letter only by itself. -/
theorem eq_of_toLower_eq {c d : Char} (hd : isAsciiLower d = false) (h : c.toLower = d) :
    c = d := by
  rcases toLower_cases c with hc | ⟨_, hlower⟩
  · exact hc.symm.trans h
  · rw [h, hd] at hlower
    cases hlower

@[simp] theorem toList_lowerAscii (s : String) :
    (lowerAscii s).toList = s.toList.map Char.toLower := by
  simp [lowerAscii]

@[simp] theorem lowerAscii_lowerAscii (s : String) : lowerAscii (lowerAscii s) = lowerAscii s := by
  simp [lowerAscii, Function.comp_def]

theorem lowerAscii_eq_empty_iff {s : String} : lowerAscii s = "" ↔ s = "" := by
  rw [← String.toList_inj, toList_lowerAscii, String.toList_empty, List.map_eq_nil_iff,
    String.toList_eq_nil_iff]

theorem startsWithFold_iff {name s : List Char} :
    startsWithFold name s = true ↔
      ∃ spelling rest, s = spelling ++ rest ∧
        spelling.map Char.toLower = name.map Char.toLower := by
  induction name generalizing s with
  | nil => simp [startsWithFold]
  | cons n name ih =>
    cases s with
    | nil => simp [startsWithFold]
    | cons c s =>
      simp only [startsWithFold, sameUpToCase, Bool.and_eq_true, beq_iff_eq, ih]
      constructor
      · rintro ⟨hc, spelling, rest, rfl, hspelling⟩
        exact ⟨c :: spelling, rest, rfl, by simp [hc, hspelling]⟩
      · rintro ⟨spelling, rest, hs, hspelling⟩
        cases spelling with
        | nil => simp at hspelling
        | cons d spelling =>
          obtain ⟨rfl, rfl⟩ := List.cons.inj hs
          simp only [List.map_cons, List.cons.injEq] at hspelling
          exact ⟨hspelling.1.symm, spelling, rest, rfl, hspelling.2⟩

end ServiceLoom.Text

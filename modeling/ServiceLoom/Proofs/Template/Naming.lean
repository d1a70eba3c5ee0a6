import Mathlib.Data.List.Infix
import ServiceLoom.Proofs.Text.Ascii
import ServiceLoom.Template.Naming

/-!
# Snake case of ASCII text

Snake case writes every character in a spelling of its own, and before some capital letters it puts
an underscore. That happens only behind a character that is no separator, so separators stand at the
ends of the result and next to each other just where they did in the text. No spelling is respelled:
a text that is in snake case stays as it is.
-/

namespace ServiceLoom.Naming

def isSeparator (c : Char) : Bool := c == '_' || c == '-' || c == ' '

/-- How an ASCII character is written in snake case. -/
def spelling (c : Char) : Char := if isSeparator c then '_' else c.toLower

/-- A character that snake case leaves alone. -/
def Settled (c : Char) : Prop := Text.isUpperLetter c = false ∧ c ≠ '-' ∧ c ≠ ' '

/-- Two characters of the class stand next to each other. -/
def Doubled (p : Char → Bool) (s : List Char) : Prop :=
  ∃ c d, [c, d] <:+: s ∧ p c = true ∧ p d = true

/-- What a text and its snake case have in common. -/
structure Respelled (s t : List Char) : Prop where
  settled : ∀ c ∈ t, Settled c
  letters : t.filter (· != '_') = (s.map Char.toLower).filter (!isSeparator ·)
  /-- Underscores are added, and nothing is left out. -/
  spelled : (s.map spelling).Sublist t
  first : t.head? = some '_' ↔ ∃ c, s.head? = some c ∧ isSeparator c = true
  last : t.getLast? = some '_' ↔ ∃ c, s.getLast? = some c ∧ isSeparator c = true
  doubled : Doubled (· == '_') t ↔ Doubled isSeparator s

variable {c : Char} {s : List Char} {previous : Option Char}

/-! ## One character -/

theorem isSeparator_iff : isSeparator c = true ↔ c = '_' ∨ c = '-' ∨ c = ' ' := by
  simp [isSeparator, or_assoc]

theorem isSeparator_of_isAsciiLetter (h : Text.isAsciiLetter c = true) : isSeparator c = false := by
  rw [Bool.eq_false_iff]
  intro hseparator
  rcases isSeparator_iff.mp hseparator with rfl | rfl | rfl <;> exact absurd h (by decide)

theorem isUpperLetter_of_ascii (h : c.toNat < 128) :
    Text.isUpperLetter c = Text.isAsciiUpper c := by
  have hrange : c.isUpper = true ↔ 'A' ≤ c ∧ c ≤ 'Z' := decide_eq_true_iff
  rw [Text.isUpperLetter, if_pos h, Bool.eq_iff_iff, Text.isAsciiUpper_iff, hrange]
  exact Iff.rfl

theorem isSeparator_toLower (c : Char) : isSeparator c.toLower = isSeparator c := by
  rcases Text.toLower_cases c with h | ⟨hupper, hlower⟩
  · rw [h]
  · rw [isSeparator_of_isAsciiLetter (by simp [Text.isAsciiLetter, hlower]),
      isSeparator_of_isAsciiLetter (by simp [Text.isAsciiLetter, hupper])]

theorem spelling_of_isSeparator (h : isSeparator c = true) : spelling c = '_' :=
  if_pos h

theorem spelling_of_not_isSeparator (h : isSeparator c = false) : spelling c = c.toLower :=
  if_neg (by simp [h])

theorem spelling_eq_underscore_iff : spelling c = '_' ↔ isSeparator c = true := by
  refine ⟨fun h => ?_, spelling_of_isSeparator⟩
  cases hc : isSeparator c with
  | true => rfl
  | false =>
    rw [spelling_of_not_isSeparator hc] at h
    rw [← isSeparator_toLower, h] at hc
    cases hc

theorem settled_underscore : Settled '_' := ⟨by decide, by decide, by decide⟩

theorem settled_spelling (h : c.toNat < 128) : Settled (spelling c) := by
  cases hc : isSeparator c with
  | true =>
    rw [spelling_of_isSeparator hc]
    exact settled_underscore
  | false =>
    rw [spelling_of_not_isSeparator hc]
    have hascii : c.toLower.toNat < 128 := by
      rcases Text.toLower_cases c with hsame | ⟨-, hlower⟩
      · rwa [hsame]
      · have := (Text.isAsciiLower_iff.mp hlower).2
        omega
    have hseparator : ¬ isSeparator c.toLower = true := by rw [isSeparator_toLower, hc]; decide
    rw [isSeparator_iff, not_or, not_or] at hseparator
    exact ⟨by rw [isUpperLetter_of_ascii hascii, Text.isAsciiUpper_toLower], hseparator.2⟩

theorem startsWord_of_isSeparator (h : isSeparator c = true) (next : Option Char) :
    startsWord (some c) next = false := by
  have hplain : Text.isLowerLetter c = false ∧ Text.isAsciiDigit c = false ∧
      Text.isUpperLetter c = false := by
    rcases isSeparator_iff.mp h with rfl | rfl | rfl <;> decide
  simp [startsWord, hplain]

/-- The character in its spelling, behind an underscore if it is a capital that starts a word. -/
theorem snakeFrom_cons (h : c.toNat < 128) (previous : Option Char) (s : List Char) :
    snakeFrom previous (c :: s) = spelling c :: snakeFrom (some c) s ∨
      (isSeparator c = false ∧ startsWord previous s.head? = true ∧
        snakeFrom previous (c :: s) = '_' :: spelling c :: snakeFrom (some c) s) := by
  rw [snakeFrom, isUpperLetter_of_ascii h, Text.toLowerLetters, if_pos h]
  cases hupper : Text.isAsciiUpper c with
  | true =>
    have hletter : isSeparator c = false :=
      isSeparator_of_isAsciiLetter (by simp [Text.isAsciiLetter, hupper])
    rw [spelling_of_not_isSeparator hletter]
    cases hword : startsWord previous s.head? with
    | true => exact Or.inr ⟨hletter, rfl, rfl⟩
    | false => exact Or.inl rfl
  | false =>
    refine Or.inl ?_
    by_cases hc : c = '-' ∨ c = ' '
    · have hspelling := spelling_of_isSeparator (isSeparator_iff.mpr (Or.inr hc))
      simp [hc, hspelling]
    · have hspelling : spelling c = c := by
        cases hseparator : isSeparator c with
        | true =>
          rw [(isSeparator_iff.mp hseparator).resolve_right hc]
          rfl
        | false => rw [spelling_of_not_isSeparator hseparator, Text.toLower_of_not_upper hupper]
      simp [hc, hspelling]

/-! ## Doubled characters -/

theorem not_doubled_nil {p : Char → Bool} : ¬ Doubled p [] := by
  rintro ⟨c, d, hinfix, -⟩
  cases List.eq_nil_of_infix_nil hinfix

theorem doubled_cons {p : Char → Bool} : Doubled p (c :: s) ↔
    (p c = true ∧ ∃ d, s.head? = some d ∧ p d = true) ∨ Doubled p s := by
  constructor
  · rintro ⟨c', d, hinfix, hc, hd⟩
    rcases List.infix_cons_iff.mp hinfix with ⟨rest, hrest⟩ | hinfix
    · obtain ⟨rfl, rfl⟩ := List.cons.inj hrest
      exact Or.inl ⟨hc, d, rfl, hd⟩
    · exact Or.inr ⟨c', d, hinfix, hc, hd⟩
  · rintro (⟨hc, d, hhead, hd⟩ | ⟨c', d, hinfix, hc, hd⟩)
    · obtain ⟨rest, rfl⟩ := List.head?_eq_some_iff.mp hhead
      exact ⟨c, d, (List.prefix_append [c, d] rest).isInfix, hc, hd⟩
    · exact ⟨c', d, List.infix_cons hinfix, hc, hd⟩

/-! ## All characters -/

theorem settled_snakeFrom (h : ∀ c ∈ s, c.toNat < 128) (previous : Option Char) :
    ∀ c ∈ snakeFrom previous s, Settled c := by
  induction s generalizing previous with
  | nil => simp [snakeFrom]
  | cons c s ih =>
    rw [List.forall_mem_cons] at h
    rcases snakeFrom_cons h.1 previous s with heq | ⟨-, -, heq⟩
    · rw [heq, List.forall_mem_cons]
      exact ⟨settled_spelling h.1, ih h.2 _⟩
    · rw [heq, List.forall_mem_cons, List.forall_mem_cons]
      exact ⟨settled_underscore, settled_spelling h.1, ih h.2 _⟩

theorem filter_snakeFrom (h : ∀ c ∈ s, c.toNat < 128) (previous : Option Char) :
    (snakeFrom previous s).filter (· != '_') =
      (s.map Char.toLower).filter (!isSeparator ·) := by
  induction s generalizing previous with
  | nil => rfl
  | cons c s ih =>
    rw [List.forall_mem_cons] at h
    have hcut : (snakeFrom previous (c :: s)).filter (· != '_') =
        (spelling c :: snakeFrom (some c) s).filter (· != '_') := by
      rcases snakeFrom_cons h.1 previous s with heq | ⟨-, -, heq⟩
      · rw [heq]
      · rw [heq]
        rfl
    rw [hcut, List.map_cons, List.filter_cons, List.filter_cons, ih h.2, isSeparator_toLower]
    cases hc : isSeparator c with
    | true => simp [spelling_of_isSeparator hc]
    | false =>
      have hletter : (spelling c != '_') = true := by
        rw [bne_iff_ne, ne_eq, spelling_eq_underscore_iff, hc]
        exact Bool.false_ne_true
      rw [if_pos hletter, spelling_of_not_isSeparator hc]
      rfl

theorem sublist_snakeFrom (h : ∀ c ∈ s, c.toNat < 128) (previous : Option Char) :
    (s.map spelling).Sublist (snakeFrom previous s) := by
  induction s generalizing previous with
  | nil => exact List.nil_sublist _
  | cons c s ih =>
    rw [List.forall_mem_cons] at h
    have hkept := (ih h.2 (some c)).cons_cons (spelling c)
    rcases snakeFrom_cons h.1 previous s with heq | ⟨-, -, heq⟩
    · rw [heq]
      exact hkept
    · rw [heq]
      exact hkept.cons '_'

theorem head?_snakeFrom (h : ∀ c ∈ s, c.toNat < 128)
    (hprevious : ∀ next, startsWord previous next = false) :
    (snakeFrom previous s).head? = s.head?.map spelling := by
  cases s with
  | nil => rfl
  | cons c s =>
    rw [List.forall_mem_cons] at h
    rcases snakeFrom_cons h.1 previous s with heq | ⟨-, hword, -⟩
    · rw [heq]
      rfl
    · rw [hprevious] at hword
      cases hword

theorem getLast?_snakeFrom (h : ∀ c ∈ s, c.toNat < 128) (previous : Option Char) :
    (snakeFrom previous s).getLast? = s.getLast?.map spelling := by
  induction s generalizing previous with
  | nil => rfl
  | cons c s ih =>
    rw [List.forall_mem_cons] at h
    have hlast : (snakeFrom previous (c :: s)).getLast? =
        (spelling c :: snakeFrom (some c) s).getLast? := by
      rcases snakeFrom_cons h.1 previous s with heq | ⟨-, -, heq⟩
      · rw [heq]
      · rw [heq, List.getLast?_cons_cons]
    rw [hlast, List.getLast?_cons, List.getLast?_cons, ih h.2, Option.getD_map, Option.map_some]

theorem doubled_snakeFrom_iff (h : ∀ c ∈ s, c.toNat < 128) (previous : Option Char) :
    Doubled (· == '_') (snakeFrom previous s) ↔ Doubled isSeparator s := by
  induction s generalizing previous with
  | nil => exact iff_of_false not_doubled_nil not_doubled_nil
  | cons c s ih =>
    rw [List.forall_mem_cons] at h
    have hcut : Doubled (· == '_') (snakeFrom previous (c :: s)) ↔
        Doubled (· == '_') (spelling c :: snakeFrom (some c) s) := by
      rcases snakeFrom_cons h.1 previous s with heq | ⟨hletter, -, heq⟩
      · rw [heq]
      · rw [heq, doubled_cons]
        refine or_iff_right ?_
        rintro ⟨-, d, ⟨rfl⟩, hd⟩
        rw [beq_iff_eq, spelling_eq_underscore_iff, hletter] at hd
        cases hd
    rw [hcut, doubled_cons, doubled_cons, ih h.2, beq_iff_eq, spelling_eq_underscore_iff]
    refine or_congr (and_congr_right fun hc => ?_) Iff.rfl
    rw [head?_snakeFrom h.2 (startsWord_of_isSeparator hc)]
    cases s <;> simp [spelling_eq_underscore_iff]

theorem snakeFrom_eq_self (h : ∀ c ∈ s, Settled c) (previous : Option Char) :
    snakeFrom previous s = s := by
  induction s generalizing previous with
  | nil => rfl
  | cons c s ih =>
    rw [List.forall_mem_cons] at h
    obtain ⟨⟨hupper, hhyphen, hblank⟩, hs⟩ := h
    rw [snakeFrom, if_neg (by simp [hupper]), if_neg (by simp [hhyphen, hblank]), ih hs]
    rfl

/-- Snake case respells a text, and what it made is in snake case already. -/
theorem snakeCase_respells {s : String} (h : ∀ c ∈ s.toList, c.toNat < 128) :
    Respelled s.toList (snakeCase s).toList ∧ snakeCase (snakeCase s) = snakeCase s := by
  have hends : ∀ last : Option Char, last.map spelling = some '_' ↔
      ∃ c, last = some c ∧ isSeparator c = true := by
    intro last
    simp only [Option.map_eq_some_iff, spelling_eq_underscore_iff]
  have hsettled := settled_snakeFrom h none
  simp only [snakeCase, String.toList_ofList]
  refine ⟨⟨hsettled, filter_snakeFrom h none, sublist_snakeFrom h none, ?_, ?_,
    doubled_snakeFrom_iff h none⟩, ?_⟩
  · rw [head?_snakeFrom h fun _ => rfl, hends]
  · rw [getLast?_snakeFrom h, hends]
  · rw [snakeFrom_eq_self hsettled]

theorem snakeCase_respells_acronym :
    (∀ c ∈ "-HTTPServer  v2Api_".toList, c.toNat < 128) ∧
      snakeCase "-HTTPServer  v2Api_" = "_http_server__v2_api_" ∧
      Respelled "-HTTPServer  v2Api_".toList "_http_server__v2_api_".toList ∧
      snakeCase "_http_server__v2_api_" = "_http_server__v2_api_" := by
  have hall : "-HTTPServer  v2Api_".toList.all (·.toNat < 128) = true := by decide
  have hascii : ∀ c ∈ "-HTTPServer  v2Api_".toList, c.toNat < 128 := fun c hc =>
    of_decide_eq_true (List.all_eq_true.mp hall c hc)
  have hsnake : snakeCase "-HTTPServer  v2Api_" = "_http_server__v2_api_" := by decide
  have h := snakeCase_respells hascii
  rw [hsnake] at h
  exact ⟨hascii, hsnake, h⟩

end ServiceLoom.Naming

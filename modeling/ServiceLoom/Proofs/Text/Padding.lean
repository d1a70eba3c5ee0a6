import Mathlib.Data.List.TakeWhile
import ServiceLoom.Proofs.Text.Ascii
import ServiceLoom.Proofs.Text.Words

/-!
# Blanks around a text

Trimming takes away the blanks around a text and nothing else, so texts that differ only in such
blanks are trimmed to the same text. Lower case leaves blanks where they are.
-/

namespace ServiceLoom.Text

variable {s t : List Char} {c : Char}

def AllBlank (s : List Char) : Prop := ∀ c ∈ s, isBlank c = true

instance (s : List Char) : Decidable (AllBlank s) :=
  decidable_of_iff (s.all isBlank = true) List.all_eq_true

/-- `t` is `s` with any number of blanks before and after it. -/
def Padded (s t : List Char) : Prop :=
  ∃ before after, AllBlank before ∧ AllBlank after ∧ t = before ++ s ++ after

theorem AllBlank.reverse (h : AllBlank s) : AllBlank s.reverse :=
  fun c hc => h c (List.mem_reverse.mp hc)

theorem AllBlank.trimStart_append (h : AllBlank s) (t : List Char) :
    trimStart (s ++ t) = trimStart t := List.dropWhile_append_of_pos h

theorem AllBlank.trimEnd_append (h : AllBlank t) (s : List Char) :
    trimEnd (s ++ t) = trimEnd s := by
  change (trimStart (s ++ t).reverse).reverse = (trimStart s.reverse).reverse
  rw [List.reverse_append, h.reverse.trimStart_append]

theorem exists_trimStart (s : List Char) : ∃ before, AllBlank before ∧ s = before ++ trimStart s :=
  ⟨s.takeWhile isBlank, fun _ hc => List.mem_takeWhile_imp hc, List.takeWhile_append_dropWhile.symm⟩

theorem exists_trimEnd (s : List Char) : ∃ after, AllBlank after ∧ s = trimEnd s ++ after := by
  obtain ⟨before, hbefore, hs⟩ := exists_trimStart s.reverse
  refine ⟨before.reverse, hbefore.reverse, ?_⟩
  have hreverse := congrArg List.reverse hs
  rwa [List.reverse_reverse, List.reverse_append] at hreverse

theorem padded_trim (s : List Char) : Padded (trim s) s := by
  obtain ⟨before, hbefore, hstart⟩ := exists_trimStart s
  obtain ⟨after, hafter, hend⟩ := exists_trimEnd (trimStart s)
  refine ⟨before, after, hbefore, hafter, ?_⟩
  rw [trim, List.append_assoc, ← hend, ← hstart]

theorem AllBlank.trimStart_eq (h : AllBlank s) : trimStart s = [] := List.dropWhile_eq_nil_iff.mpr h

theorem Padded.trim_eq (h : Padded s t) : trim t = trim s := by
  obtain ⟨before, after, hbefore, hafter, rfl⟩ := h
  rw [trim, trim, List.append_assoc, hbefore.trimStart_append]
  by_cases hnil : trimStart s = []
  · -- the text is blank itself, so nothing is left of it and of what follows
    have hs : AllBlank s := List.dropWhile_eq_nil_iff.mp hnil
    rw [hs.trimStart_append, hafter.trimStart_eq, hnil]
  · have hstart : trimStart (s ++ after) = trimStart s ++ after := by
      rw [trimStart, List.dropWhile_append, ← trimStart, if_neg]
      rwa [List.isEmpty_iff]
    rw [hstart, hafter.trimEnd_append]

theorem trim_trim (s : List Char) : trim (trim s) = trim s := (padded_trim s).trim_eq.symm

theorem isBlank_toLower (c : Char) : isBlank c.toLower = isBlank c := by
  rcases toLower_cases c with hc | ⟨hupper, hlower⟩
  · rw [hc]
  · obtain ⟨hupperLow, hupperHigh⟩ := isAsciiUpper_iff.mp hupper
    obtain ⟨hlow, hhigh⟩ := isAsciiLower_iff.mp hlower
    rw [isBlank_of_graphic (by omega) (by omega), isBlank_of_graphic (by omega) (by omega)]

theorem map_toLower_trimStart (s : List Char) :
    (trimStart s).map Char.toLower = trimStart (s.map Char.toLower) := by
  have hblank : isBlank ∘ Char.toLower = isBlank := funext isBlank_toLower
  rw [trimStart, trimStart, List.dropWhile_map, hblank]

theorem map_toLower_trim (s : List Char) :
    (trim s).map Char.toLower = trim (s.map Char.toLower) := by
  change ((trimStart (trimStart s).reverse).reverse).map Char.toLower =
    (trimStart (trimStart (s.map Char.toLower)).reverse).reverse
  rw [List.map_reverse, map_toLower_trimStart, List.map_reverse, map_toLower_trimStart]

end ServiceLoom.Text

import ServiceLoom.Tag.Options

/-!
# The options of an entity

Bags are merged under the names of custom tags. Merging adds at most its own name, so the names stay
distinct and registered, and as an empty bag changes nothing, no bag is empty.
-/

namespace ServiceLoom

theorem mem_putEntry {α : Type} {key : String} {f : Option α → α} {entries : List (String × α)}
    {entry : String × α} (h : entry ∈ putEntry key f entries) :
    entry ∈ entries ∨ entry = (key, f none) ∨
      ∃ old, (key, old) ∈ entries ∧ entry = (key, f (some old)) := by
  induction entries with
  | nil => exact Or.inr (Or.inl (List.mem_singleton.mp h))
  | cons first rest ih =>
    obtain ⟨k, v⟩ := first
    unfold putEntry at h
    split at h
    · rename_i hk
      subst hk
      rcases List.mem_cons.mp h with rfl | h
      · exact Or.inr (Or.inr ⟨v, List.mem_cons_self, rfl⟩)
      · exact Or.inl (List.mem_cons_of_mem _ h)
    · rcases List.mem_cons.mp h with rfl | h
      · exact Or.inl List.mem_cons_self
      · rcases ih h with h | h | ⟨old, hold, h⟩
        · exact Or.inl (List.mem_cons_of_mem _ h)
        · exact Or.inr (Or.inl h)
        · exact Or.inr (Or.inr ⟨old, List.mem_cons_of_mem _ hold, h⟩)

namespace OptionBag

theorem isEmpty_set (bag : OptionBag) (key value : String) :
    (bag.set key value).isEmpty = false := by
  unfold set isEmpty
  cases bag.entries with
  | nil => rfl
  | cons entry rest =>
    unfold putEntry
    split
    · rfl
    · rfl

theorem isEmpty_setAll {bag : OptionBag} (h : bag.isEmpty = false)
    (pairs : List (String × String)) : (bag.setAll pairs).isEmpty = false := by
  unfold setAll
  induction pairs generalizing bag with
  | nil => exact h
  | cons pair rest ih => exact ih (isEmpty_set bag pair.1 pair.2)

end OptionBag

namespace TagOptions

structure Sound (names : List String) (all : TagOptions) : Prop where
  registered : ∀ entry ∈ all.tags, entry.1 ∈ names
  filled : ∀ entry ∈ all.tags, entry.2.isEmpty = false
  distinct : (all.tags.map Prod.fst).Nodup

theorem sound_empty (names : List String) : Sound names {} := ⟨by simp, by simp, by simp⟩

theorem Sound.merge {names : List String} {all : TagOptions} (h : all.Sound names) {name : String}
    (hname : name ∈ names) (bag : OptionBag) : (all.merge name bag).Sound names := by
  unfold TagOptions.merge
  split
  · exact h
  · rename_i hbag
    refine ⟨?_, ?_, ?_⟩
    · intro entry hentry
      rcases mem_putEntry hentry with hentry | rfl | ⟨old, _, rfl⟩
      · exact h.registered entry hentry
      · exact hname
      · exact hname
    · intro entry hentry
      rcases mem_putEntry hentry with hentry | rfl | ⟨old, hold, rfl⟩
      · exact h.filled entry hentry
      · simpa using hbag
      · exact OptionBag.isEmpty_setAll (h.filled _ hold) bag.entries
    · rw [keys_putEntry]
      split
      · exact h.distinct
      · rename_i hnew
        rw [List.nodup_append]
        refine ⟨h.distinct, by simp, ?_⟩
        intro key hkey other hother
        rw [List.mem_singleton.mp hother]
        exact fun heq => hnew (heq ▸ hkey)

end TagOptions

end ServiceLoom

import Mathlib.Data.List.Nodup

/-!
# Look-ups among entries

A look-up finds the first entry of its key. Where the keys are distinct it finds every entry, and
the order of the entries does not matter.
-/

namespace ServiceLoom

variable {α : Type} {key : String} {value : α} {entries : List (String × α)}

theorem lookup_eq_none_iff_not_mem : entries.lookup key = none ↔ key ∉ entries.map Prod.fst := by
  rw [List.lookup_eq_none_iff, List.mem_map]
  constructor
  · rintro h ⟨entry, hentry, rfl⟩
    simpa using h entry hentry
  · intro h entry hentry
    rw [bne_iff_ne]
    rintro rfl
    exact h ⟨entry, hentry, rfl⟩

theorem mem_of_lookup (h : entries.lookup key = some value) : (key, value) ∈ entries := by
  obtain ⟨before, after, rfl, _⟩ := List.lookup_eq_some_iff.mp h
  exact List.mem_append_right before List.mem_cons_self

theorem lookup_eq_some_iff_mem (h : (entries.map Prod.fst).Nodup) :
    entries.lookup key = some value ↔ (key, value) ∈ entries := by
  refine ⟨mem_of_lookup, fun hmem => ?_⟩
  cases hlookup : entries.lookup key with
  | none =>
    exact absurd (List.mem_map.mpr ⟨_, hmem, rfl⟩) (lookup_eq_none_iff_not_mem.mp hlookup)
  | some other =>
    have hsame : (key, other) = (key, value) :=
      List.inj_on_of_nodup_map h (mem_of_lookup hlookup) hmem rfl
    rw [(Prod.mk.inj hsame).2]

theorem lookup_reverse (h : (entries.map Prod.fst).Nodup) (key : String) :
    entries.reverse.lookup key = entries.lookup key := by
  have hreverse : (entries.reverse.map Prod.fst).Nodup := by
    rwa [List.map_reverse, List.nodup_reverse]
  refine Option.ext fun value => ?_
  rw [lookup_eq_some_iff_mem hreverse, lookup_eq_some_iff_mem h, List.mem_reverse]

theorem filterMap_lookup (h : (entries.map Prod.fst).Nodup) :
    (entries.map Prod.fst).filterMap (fun key => (entries.lookup key).map (Prod.mk key)) =
      entries := by
  rw [List.filterMap_map]
  have hself : ∀ entry ∈ entries,
      ((fun key => (entries.lookup key).map (Prod.mk key)) ∘ Prod.fst) entry = some entry := by
    intro entry hentry
    have hlookup : entries.lookup entry.1 = some entry.2 := (lookup_eq_some_iff_mem h).mpr hentry
    rw [Function.comp_apply, hlookup]
    rfl
  rw [List.filterMap_congr hself, List.filterMap_some]

end ServiceLoom

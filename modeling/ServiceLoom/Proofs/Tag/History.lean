import Mathlib.Data.List.Induction
import ServiceLoom.Proofs.Lookup
import ServiceLoom.Proofs.Tag.Options
import ServiceLoom.Service.Json

/-!
# Histories of options

Whatever was done to a bag, it is told by the list of all writes, also those into the bags that it
took over: the keys stand in the order of their first write, each with the value of its last one. So
two bags with the same writes are equal, and extending bags is as associative as appending lists.
The options of an entity gather the bags of every tag in the same way.
-/

namespace ServiceLoom

/-! ## First occurrences -/

theorem eraseDups_filter (p : String → Bool) (names : List String) :
    (names.filter p).eraseDups = names.eraseDups.filter p := by
  induction names using (measure List.length).wf.induction with
  | h names ih =>
    cases names with
    | nil => rfl
    | cons name rest =>
      have hothers := ih (rest.filter fun other => !other == name)
        (Nat.lt_succ_of_le (List.length_filter_le _ _))
      rw [List.eraseDups_cons, List.filter_cons, List.filter_cons, ← hothers]
      split
      · rw [List.eraseDups_cons, List.filter_comm]
      · rename_i hname
        rw [List.filter_filter]
        congr 1
        apply List.filter_congr
        intro other _
        by_cases hother : other = name
        · rw [hother]
          simp [hname]
        · simp [hother]

theorem nodup_eraseDups (names : List String) : names.eraseDups.Nodup := by
  induction names using (measure List.length).wf.induction with
  | h names ih =>
    cases names with
    | nil => exact List.nodup_nil
    | cons name rest =>
      rw [List.eraseDups_cons, List.nodup_cons]
      refine ⟨?_, ih _ (Nat.lt_succ_of_le (List.length_filter_le _ _))⟩
      rw [List.mem_eraseDups, List.mem_filter]
      simp

theorem eraseDups_of_nodup {names : List String} (h : names.Nodup) : names.eraseDups = names := by
  induction names with
  | nil => rfl
  | cons name rest ih =>
    obtain ⟨hname, hrest⟩ := List.nodup_cons.mp h
    have hothers : rest.filter (fun other => !other == name) = rest := by
      apply List.filter_eq_self.mpr
      intro other hother
      have hne : other ≠ name := fun heq => hname (heq ▸ hother)
      simpa using hne
    rw [List.eraseDups_cons, hothers, ih hrest]

theorem eraseDups_append_eraseDups (names more : List String) :
    (names ++ more.eraseDups).eraseDups = (names ++ more).eraseDups := by
  rw [List.eraseDups_append, List.eraseDups_append, List.removeAll, List.removeAll,
    eraseDups_filter, eraseDups_filter, eraseDups_of_nodup (nodup_eraseDups more)]

theorem eraseDups_concat (names : List String) (name : String) :
    (names ++ [name]).eraseDups =
      if name ∈ names then names.eraseDups else names.eraseDups ++ [name] := by
  rw [List.eraseDups_append, List.removeAll]
  by_cases h : name ∈ names
  · simp [h]
  · simp [h, List.eraseDups_cons]

/-! ## One bag -/

namespace OptionBag

/-- A bag is made by writing values and by taking over bags that were made alike. -/
inductive History where
  | empty
  | set (h : History) (key value : String)
  | extend (h other : History)

namespace History

def bag : History → OptionBag
  | empty => {}
  | set h key value => h.bag.set key value
  | extend h other => h.bag.extend other.bag

def writes : History → List (String × String)
  | empty => []
  | set h key value => h.writes ++ [(key, value)]
  | extend h other => h.writes ++ other.writes

end History

variable {bag other : OptionBag} {writes more : List (String × String)} {key value : String}

def keys (bag : OptionBag) : List String := bag.entries.map Prod.fst

/-- The bag holds these writes: keys by their first write, values by their last one. -/
structure Records (writes : List (String × String)) (bag : OptionBag) : Prop where
  keys : bag.keys = (writes.map Prod.fst).eraseDups
  get? : ∀ key, bag.get? key = writes.reverse.lookup key

namespace Records

theorem nodup_keys (h : Records writes bag) : bag.keys.Nodup := by
  rw [h.keys]
  exact nodup_eraseDups _

theorem unique (h : Records writes bag) (hother : Records writes other) : bag = other := by
  have hkeys : bag.keys = other.keys := h.keys.trans hother.keys.symm
  have hlookup : ∀ key, bag.entries.lookup key = other.entries.lookup key :=
    fun key => (h.get? key).trans (hother.get? key).symm
  have hentries : bag.entries = other.entries := by
    rw [← filterMap_lookup h.nodup_keys, ← filterMap_lookup hother.nodup_keys]
    simp only [hlookup]
    exact congrArg (List.filterMap _) hkeys
  obtain ⟨entries⟩ := bag
  exact congrArg OptionBag.mk hentries

theorem empty : Records [] {} := ⟨rfl, fun _ => rfl⟩

theorem set (h : Records writes bag) (key value : String) :
    Records (writes ++ [(key, value)]) (bag.set key value) where
  keys := by
    have hmem : key ∈ bag.keys ↔ key ∈ writes.map Prod.fst := by rw [h.keys, List.mem_eraseDups]
    rw [List.map_append, List.map_singleton, eraseDups_concat, ← h.keys]
    simp only [← hmem]
    exact keys_putEntry key _ bag.entries
  get? other := by
    rw [List.reverse_concat, List.lookup_cons]
    by_cases hother : other = key
    · subst other
      rw [beq_self_eq_true]
      exact lookup_putEntry_self key _ bag.entries
    · rw [beq_false_of_ne hother]
      exact (lookup_putEntry_of_ne _ bag.entries hother).trans (h.get? other)

theorem setAll (h : Records writes bag) (pairs : List (String × String)) :
    Records (writes ++ pairs) (bag.setAll pairs) := by
  induction pairs generalizing bag writes with
  | nil => rwa [List.append_nil]
  | cons pair rest ih =>
    have hrest := ih (h.set pair.1 pair.2)
    rwa [List.append_assoc] at hrest

/-- What the other bag overwrote itself makes no difference. -/
theorem extend (h : Records writes bag) (hother : Records more other) :
    Records (writes ++ more) (bag.extend other) := by
  have hall : Records (writes ++ other.entries) (bag.extend other) := h.setAll other.entries
  constructor
  · rw [hall.keys, List.map_append, List.map_append]
    change (_ ++ other.keys).eraseDups = _
    rw [hother.keys, eraseDups_append_eraseDups]
  · intro key
    rw [hall.get?, List.reverse_append, List.reverse_append, List.lookup_append,
      List.lookup_append, lookup_reverse hother.nodup_keys]
    exact congrArg (Option.or · _) (hother.get? key)

theorem get?_eq_some_iff (h : Records writes bag) : bag.get? key = some value ↔
    ∃ before after, writes = before ++ (key, value) :: after ∧ key ∉ after.map Prod.fst := by
  rw [h.get?, List.lookup_eq_some_iff]
  simp only [← List.lookup_eq_none_iff, lookup_eq_none_iff_not_mem]
  constructor
  · rintro ⟨later, earlier, hwrites, hlater⟩
    refine ⟨earlier.reverse, later.reverse, ?_, ?_⟩
    · rw [List.reverse_eq_iff.mp hwrites]
      simp
    · rwa [List.map_reverse, List.mem_reverse]
  · rintro ⟨before, after, rfl, hafter⟩
    refine ⟨after.reverse, before.reverse, by simp, ?_⟩
    rwa [List.map_reverse, List.mem_reverse]

theorem get?_eq_none_iff (h : Records writes bag) :
    bag.get? key = none ↔ key ∉ writes.map Prod.fst := by
  rw [h.get?, lookup_eq_none_iff_not_mem, List.map_reverse, List.mem_reverse]

end Records

namespace History

theorem records (h : History) : Records h.writes h.bag := by
  induction h with
  | empty => exact .empty
  | set h key value ih => exact ih.set key value
  | extend h other ih ihother => exact ih.extend ihother

theorem extend_assoc (a b c : History) :
    (a.bag.extend b.bag).extend c.bag = a.bag.extend (b.bag.extend c.bag) := by
  apply ((a.extend b).extend c).records.unique
  have h := (a.extend (b.extend c)).records
  simp only [writes, bag] at h ⊢
  rwa [← List.append_assoc] at h

theorem empty_extend (h : History) : ({} : OptionBag).extend h.bag = h.bag :=
  (empty.extend h).records.unique h.records

end History

theorem extend_empty (bag : OptionBag) : bag.extend {} = bag := rfl

theorem eq_empty_of_isEmpty (h : bag.isEmpty = true) : bag = {} := by
  obtain ⟨entries⟩ := bag
  exact congrArg OptionBag.mk (List.isEmpty_iff.mp h)

end OptionBag

/-! ## The bags of all tags -/

namespace TagOptions

open OptionBag (History)

variable {merges : List (String × History)} {tag : String} {bag : OptionBag}

def ofMerges (merges : List (String × History)) : TagOptions :=
  merges.foldl (fun all merge => all.merge merge.1 merge.2.bag) {}

/-- The tags under which a bag was merged that is not empty. -/
def filled (merges : List (String × History)) : List String :=
  (merges.filter fun merge => !merge.2.bag.isEmpty).map Prod.fst

/-- All bags merged under a tag, each written over those before it. -/
def gathered (tag : String) (merges : List (String × History)) : OptionBag :=
  ((merges.filter (·.1 == tag)).map (·.2.bag)).foldl OptionBag.extend {}

theorem merge_of_isEmpty (all : TagOptions) (h : bag.isEmpty = true) : all.merge tag bag = all :=
  if_pos h

theorem ofMerges_concat (merges : List (String × History)) (tag : String) (h : History) :
    ofMerges (merges ++ [(tag, h)]) = (ofMerges merges).merge tag h.bag := by
  rw [ofMerges, List.foldl_append]
  rfl

theorem filled_concat (merges : List (String × History)) (tag : String) (h : History) :
    filled (merges ++ [(tag, h)]) = filled merges ++ if h.bag.isEmpty then [] else [tag] := by
  rw [filled, List.filter_append, List.map_append]
  cases hempty : h.bag.isEmpty <;> simp [filled, hempty]

theorem gathered_concat_self (merges : List (String × History)) (tag : String) (h : History) :
    gathered tag (merges ++ [(tag, h)]) = (gathered tag merges).extend h.bag := by
  simp [gathered]

theorem gathered_concat_of_ne {other : String} (merges : List (String × History)) (h : History)
    (hne : other ≠ tag) : gathered other (merges ++ [(tag, h)]) = gathered other merges := by
  simp [gathered, Ne.symm hne]

theorem tags_merge (all : TagOptions) (tag : String) (h : bag.isEmpty = false) :
    (all.merge tag bag).tags.map Prod.fst =
      if tag ∈ all.tags.map Prod.fst then all.tags.map Prod.fst
      else all.tags.map Prod.fst ++ [tag] := by
  rw [merge, h]
  exact keys_putEntry tag _ all.tags

theorem get?_merge_of_ne {other : String} (all : TagOptions) (hne : other ≠ tag) :
    (all.merge tag bag).get? other = all.get? other := by
  unfold merge
  split
  · rfl
  · exact lookup_putEntry_of_ne _ all.tags hne

theorem get?_merge_self (all : TagOptions) (tag : String) (h : History) :
    ((all.merge tag h.bag).get? tag).getD {} = ((all.get? tag).getD {}).extend h.bag := by
  unfold merge
  split
  · rename_i hempty
    rw [OptionBag.eq_empty_of_isEmpty hempty, OptionBag.extend_empty]
  · rw [get?, lookup_putEntry_self, Option.getD_some]
    change _ = ((all.tags.lookup tag).getD {}).extend h.bag
    cases all.tags.lookup tag with
    | none => exact h.empty_extend.symm
    | some old => rfl

theorem tags_ofMerges (merges : List (String × History)) :
    (ofMerges merges).tags.map Prod.fst = (filled merges).eraseDups := by
  induction merges using List.reverseRecOn with
  | nil => rfl
  | append_singleton merges merge ih =>
    obtain ⟨tag, h⟩ := merge
    rw [ofMerges_concat, filled_concat]
    cases hempty : h.bag.isEmpty with
    | true => simpa [merge_of_isEmpty _ hempty] using ih
    | false =>
      rw [tags_merge _ _ hempty]
      simp only [ih, List.mem_eraseDups]
      exact (eraseDups_concat _ _).symm

theorem getD_get?_ofMerges (merges : List (String × History)) (tag : String) :
    ((ofMerges merges).get? tag).getD {} = gathered tag merges := by
  induction merges using List.reverseRecOn with
  | nil => rfl
  | append_singleton merges merge ih =>
    rw [ofMerges_concat]
    by_cases htag : tag = merge.1
    · subst tag
      rw [get?_merge_self, ih]
      exact (gathered_concat_self merges merge.1 merge.2).symm
    · rw [get?_merge_of_ne _ htag, ih]
      exact (gathered_concat_of_ne merges merge.2 htag).symm

theorem get?_ofMerges_eq_some_iff :
    (ofMerges merges).get? tag = some bag ↔ tag ∈ filled merges ∧ bag = gathered tag merges := by
  have hgathered := getD_get?_ofMerges merges tag
  have hfilled : (ofMerges merges).get? tag = none ↔ tag ∉ filled merges := by
    rw [get?, lookup_eq_none_iff_not_mem, tags_ofMerges, List.mem_eraseDups]
  cases hget : (ofMerges merges).get? tag with
  | none => simp [hfilled.mp hget]
  | some old =>
    have hmem : tag ∈ filled merges := by
      by_contra hnot
      rw [hfilled.mpr hnot] at hget
      cases hget
    rw [hget] at hgathered
    simp [hmem, ← hgathered, eq_comm]

theorem sound_ofMerges {names : List String} (h : ∀ merge ∈ merges, merge.1 ∈ names) :
    (ofMerges merges).Sound names := by
  induction merges using List.reverseRecOn with
  | nil => exact sound_empty names
  | append_singleton merges merge ih =>
    rw [List.forall_mem_append, List.forall_mem_singleton] at h
    rw [ofMerges_concat]
    exact (ih h.1).merge h.2 merge.2.bag

theorem exists_history_gathered (tag : String) (merges : List (String × History)) :
    ∃ h : History, h.bag = gathered tag merges := by
  induction merges using List.reverseRecOn with
  | nil => exact ⟨.empty, rfl⟩
  | append_singleton merges merge ih =>
    obtain ⟨g, hg⟩ := ih
    by_cases htag : tag = merge.1
    · subst tag
      refine ⟨g.extend merge.2, ?_⟩
      rw [gathered_concat_self, ← hg]
      rfl
    · refine ⟨g, ?_⟩
      rw [gathered_concat_of_ne merges merge.2 htag, hg]

theorem nodup_keys_of_mem {entry : String × OptionBag} (h : entry ∈ (ofMerges merges).tags) :
    entry.2.keys.Nodup := by
  have hdistinct : ((ofMerges merges).tags.map Prod.fst).Nodup := by
    rw [tags_ofMerges]
    exact nodup_eraseDups _
  have hget : (ofMerges merges).get? entry.1 = some entry.2 :=
    (lookup_eq_some_iff_mem hdistinct).mpr h
  obtain ⟨g, hg⟩ := exists_history_gathered entry.1 merges
  rw [(get?_ofMerges_eq_some_iff.mp hget).2, ← hg]
  exact g.records.nodup_keys

/-- Bags and the options of all tags are maps in the order of insertion, whatever their history. -/
theorem insertion_ordered :
    (∀ h : History,
      h.bag.keys.Nodup ∧
      h.bag.keys = (h.writes.map Prod.fst).eraseDups ∧
      (∀ key value, h.bag.get? key = some value ↔
        ∃ before after, h.writes = before ++ (key, value) :: after ∧ key ∉ after.map Prod.fst) ∧
      ∀ key, h.bag.get? key = none ↔ key ∉ h.writes.map Prod.fst) ∧
    (∀ a b c : History,
      (a.bag.extend b.bag).extend c.bag = a.bag.extend (b.bag.extend c.bag)) ∧
    (∀ h : History, ({} : OptionBag).extend h.bag = h.bag ∧ h.bag.extend {} = h.bag) ∧
    ∀ merges : List (String × History),
      ((ofMerges merges).tags.map Prod.fst).Nodup ∧
      (ofMerges merges).tags.map Prod.fst = (filled merges).eraseDups ∧
      (∀ entry ∈ (ofMerges merges).tags, entry.2.isEmpty = false) ∧
      (∀ tag bag, bag.isEmpty = true → (ofMerges merges).merge tag bag = ofMerges merges) ∧
      (∀ tag bag, (ofMerges merges).get? tag = some bag ↔
        tag ∈ filled merges ∧ bag = gathered tag merges) ∧
      ∃ members, (ofMerges merges).toJson = .object members ∧ (members.map Prod.fst).Nodup ∧
        ∀ member ∈ members, ∃ entries, member.2 = .object entries ∧
          (entries.map Prod.fst).Nodup := by
  refine ⟨?_, History.extend_assoc, fun h => ⟨h.empty_extend, h.bag.extend_empty⟩, ?_⟩
  · intro h
    exact ⟨h.records.nodup_keys, h.records.keys, fun _ _ => h.records.get?_eq_some_iff,
      fun _ => h.records.get?_eq_none_iff⟩
  · intro merges
    have hnames : ∀ merge ∈ merges, merge.1 ∈ merges.map Prod.fst :=
      fun _ hmerge => List.mem_map_of_mem hmerge
    have hsound := sound_ofMerges hnames
    refine ⟨hsound.distinct, tags_ofMerges merges, hsound.filled,
      fun _ _ h => merge_of_isEmpty _ h, fun _ _ => get?_ofMerges_eq_some_iff, _, rfl, ?_, ?_⟩
    · rw [List.map_map]
      exact hsound.distinct
    · intro member hmember
      obtain ⟨entry, hentry, rfl⟩ := List.mem_map.mp hmember
      refine ⟨_, rfl, ?_⟩
      rw [List.map_map]
      exact nodup_keys_of_mem hentry

/-- A bag that stays empty, and two overlapping bags with another one between them. -/
def cacheMerges : List (String × History) :=
  [("noop", .empty), ("cache", (History.empty.set "ttl" "10s").set "size" "8"),
    ("auth", History.empty.set "role" "admin"),
    ("cache", (History.empty.set "size" "64").extend (History.empty.set "ttl" "20s"))]

theorem insertion_ordered_cache :
    (ofMerges cacheMerges).get? "cache" = some ⟨[("ttl", "20s"), ("size", "64")]⟩ ∧
      ("auth", ⟨[("role", "admin")]⟩) ∈ (ofMerges cacheMerges).tags ∧
      (⟨[("role", "admin")]⟩ : OptionBag).isEmpty = false ∧
      History.empty.bag.isEmpty = true ∧
      (ofMerges cacheMerges).merge "noop" History.empty.bag = ofMerges cacheMerges := by
  obtain ⟨_, _, _, htags⟩ := insertion_ordered
  obtain ⟨_, _, hfilled, hmerge, hget, _⟩ := htags cacheMerges
  have hauth : ("auth", ⟨[("role", "admin")]⟩) ∈ (ofMerges cacheMerges).tags := by decide
  exact ⟨(hget "cache" _).mpr (by decide), hauth, hfilled _ hauth, by decide,
    hmerge "noop" _ (by decide)⟩

end TagOptions

end ServiceLoom

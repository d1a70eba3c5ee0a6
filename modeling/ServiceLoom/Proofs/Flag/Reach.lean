import ServiceLoom.Proofs.Flag.Universe
import ServiceLoom.Proofs.Text.Padding

/-!
# Names that directives can reach

Directives look a name up in lower case and without the blanks around it, but a universe keeps its
names as they were declared. So a declared name stands for its flags, in every spelling, if it is
declared in that form; otherwise it does so only if what is declared in that form happens to stand
for the same flags.
-/

namespace ServiceLoom.FlagUniverse

/-- Texts that differ only in the case of ASCII letters and in the blanks around them. -/
def SameName (a b : String) : Prop :=
  ∃ s t, Text.Padded s a.toList ∧ Text.Padded t b.toList ∧
    s.map Char.toLower = t.map Char.toLower

structure Canonical (name : String) : Prop where
  trimmed : Text.trim name.toList = name.toList
  lower : ∀ c ∈ name.toList, Text.isAsciiUpper c = false

/-- Every spelling of the name stands for exactly these flags, alone and in the directives. -/
structure Reaches (u : FlagUniverse) (name : String) (flags : List String) : Prop where
  expand : ∀ text, SameName name text → u.expand [text] = .ok flags
  only : ∀ text, SameName name text → u.only [text] = .ok (.ofList flags)
  add : ∀ text, SameName name text → ∀ s, u.add [text] s = .ok (s.insertAll flags)
  remove : ∀ text, SameName name text → ∀ s, u.remove [text] s = .ok (s.eraseAll flags)

/-- What the checks of the groups leave: look-ups of declared names are not ambiguous. -/
structure WellFormed (u : FlagUniverse) : Prop where
  distinct : (u.groups.map Prod.fst).Nodup
  not_flag : ∀ group ∈ u.groups, group.1 ∉ u.allowed
  closed : u.Closed

variable {u : FlagUniverse} {name text : String} {flags : List String}

/-! ## Spellings -/

theorem toList_normalize (name : String) :
    (normalize name).toList = (Text.trim name.toList).map Char.toLower := by
  rw [normalize, Text.toList_lowerAscii, String.toList_ofList]

theorem sameName_iff {a b : String} : SameName a b ↔ normalize a = normalize b := by
  rw [← String.toList_inj, toList_normalize, toList_normalize]
  constructor
  · rintro ⟨s, t, hs, ht, hlower⟩
    rw [hs.trim_eq, ht.trim_eq, Text.map_toLower_trim, Text.map_toLower_trim, hlower]
  · intro h
    exact ⟨_, _, Text.padded_trim a.toList, Text.padded_trim b.toList, h⟩

theorem map_toLower_of_lower {s : List Char} (h : ∀ c ∈ s, Text.isAsciiUpper c = false) :
    s.map Char.toLower = s := by
  rw [List.map_congr_left fun c hc => Text.toLower_of_not_upper (h c hc), List.map_id']

theorem normalize_eq_self_iff : normalize name = name ↔ Canonical name := by
  rw [← String.toList_inj, toList_normalize]
  constructor
  · intro h
    have hlower : ∀ c ∈ name.toList, Text.isAsciiUpper c = false := by
      intro c hc
      rw [← h] at hc
      obtain ⟨d, _, rfl⟩ := List.mem_map.mp hc
      exact Text.isAsciiUpper_toLower d
    have htrim : ∀ c ∈ Text.trim name.toList, Text.isAsciiUpper c = false :=
      fun c hc => hlower c (Text.trimStart_subset _ (Text.trimEnd_subset _ hc))
    exact ⟨(map_toLower_of_lower htrim).symm.trans h, hlower⟩
  · rintro ⟨htrimmed, hlower⟩
    rw [htrimmed, map_toLower_of_lower hlower]

instance (name : String) : Decidable (Canonical name) :=
  decidable_of_iff _ normalize_eq_self_iff

/-! ## What a spelling stands for -/

theorem expand_singleton (u : FlagUniverse) (name : String) :
    u.expand [name] = u.expandName name := by
  rw [expand, expand]
  cases u.expandName name with
  | error e => rfl
  | ok leaves => exact congrArg Except.ok (List.append_nil leaves)

theorem expandName_eq_of_sameName (h : SameName name text) :
    u.expandName text = u.expandName name := by
  rw [expandName, expandName, sameName_iff.mp h]

theorem reaches_iff : u.Reaches name flags ↔ u.expandName name = .ok flags := by
  have hself : SameName name name := sameName_iff.mpr rfl
  constructor
  · intro h
    rw [← expand_singleton]
    exact h.expand name hself
  · intro h
    have hexpand : ∀ text, SameName name text → u.expand [text] = .ok flags := by
      intro text htext
      rw [expand_singleton, expandName_eq_of_sameName htext, h]
    refine ⟨hexpand, ?_, ?_, ?_⟩
    · intro text htext
      rw [FlagUniverse.only, hexpand text htext]
      rfl
    · intro text htext s
      rw [FlagUniverse.add, hexpand text htext]
      rfl
    · intro text htext s
      rw [FlagUniverse.remove, hexpand text htext]
      rfl

/-! ## Universes that were made -/

theorem wellFormed_of_make {kind : EntityKind} {declared : List String}
    {groups : List (String × List String)} (h : make kind declared groups = .ok u) :
    u.WellFormed ∧ u.groups = groups ∧ u.allowed = FlagSet.ofList declared := by
  refine foldlM_invariant (fun before v => v.WellFormed ∧ v.groups = before ∧
    v.allowed = FlagSet.ofList declared) ?_ ?_ h
  · rintro before ⟨name, members⟩ v w ⟨hv, rfl, hallowed⟩ hw
    obtain ⟨hflag, hgroup, hmembers, rfl⟩ := addGroup_eq_ok_iff.mp hw
    refine ⟨⟨?_, ?_, hv.closed.addGroup hw⟩, rfl, hallowed⟩
    · rw [List.map_append, List.map_singleton, ← List.concat_eq_append]
      exact hv.distinct.concat hgroup
    · intro group hmem
      rcases List.mem_append.mp hmem with hmem | hmem
      · exact hv.not_flag group hmem
      · obtain rfl := List.mem_singleton.mp hmem
        exact hflag
  · exact ⟨⟨List.nodup_nil, by simp, by simp [Closed]⟩, rfl, rfl⟩

theorem WellFormed.expandName_eq_ok_iff (hu : u.WellFormed) :
    u.expandName name = .ok flags ↔ (normalize name, flags) ∈ u.groups ∨
      normalize name ∈ u.allowed ∧ flags = [normalize name] := by
  unfold expandName
  dsimp only
  generalize normalize name = key
  have hmem : (key, flags) ∈ u.groups ↔ u.group? key = some flags :=
    (lookup_eq_some_iff_mem hu.distinct).symm
  rw [hmem]
  cases hgroup : u.group? key with
  | some members =>
    have hflag : key ∉ u.allowed := hu.not_flag (key, members) (mem_of_lookup hgroup)
    simp [hflag]
  | none =>
    by_cases hflag : key ∈ u.allowed
    · simp [FlagSet.contains_iff.mpr hflag, hflag, eq_comm]
    · simp [hflag]

/-- A declared name stands for what it was declared for if it is canonical, or if its canonical form
is declared for the same. -/
theorem make_reaches_iff {kind : EntityKind} {declared : List String}
    {groups : List (String × List String)} (h : make kind declared groups = .ok u) :
    (∀ flag ∈ u.allowed, u.Reaches flag [flag] ↔
      Canonical flag ∨ (normalize flag, [flag]) ∈ groups) ∧
    ∀ name members, (name, members) ∈ groups → (u.Reaches name members ↔
      Canonical name ∨ (normalize name, members) ∈ groups ∨ members = [normalize name]) := by
  obtain ⟨hu, rfl, _⟩ := wellFormed_of_make h
  constructor
  · intro flag hflag
    rw [reaches_iff, hu.expandName_eq_ok_iff, ← normalize_eq_self_iff, or_comm]
    refine or_congr_left ⟨fun ⟨_, hsame⟩ => (List.singleton_inj.mp hsame).symm, fun hsame => ?_⟩
    rw [hsame]
    exact ⟨hflag, rfl⟩
  · intro name members hgroup
    rw [reaches_iff, hu.expandName_eq_ok_iff, ← normalize_eq_self_iff]
    constructor
    · rintro (hmem | ⟨_, hmembers⟩)
      · exact Or.inr (Or.inl hmem)
      · exact Or.inr (Or.inr hmembers)
    · rintro (hsame | hmem | rfl)
      · rw [hsame]
        exact Or.inl hgroup
      · exact Or.inl hmem
      · exact Or.inr ⟨hu.closed _ hgroup _ List.mem_cons_self, rfl⟩

def tracedFlags : FlagUniverse :=
  ⟨.service, FlagSet.ofList ["Trace", "audit"], [("logs", ["audit"]), ("Logs", ["Trace"])]⟩

theorem make_reaches_iff_traced :
    make .service ["audit", "Trace"] [("logs", ["audit"]), ("Logs", ["Trace"])] =
        .ok tracedFlags ∧
      tracedFlags.expand [" AUDIT\t"] = .ok ["audit"] ∧
      ¬ tracedFlags.Reaches "Trace" ["Trace"] ∧
      tracedFlags.Reaches "logs" ["audit"] ∧ ¬ tracedFlags.Reaches "Logs" ["Trace"] := by
  have hmade : make .service ["audit", "Trace"] [("logs", ["audit"]), ("Logs", ["Trace"])] =
      .ok tracedFlags := by decide
  obtain ⟨hflags, hgroups⟩ := make_reaches_iff hmade
  have haudit := (hflags "audit" (by decide)).mpr (Or.inl (by decide))
  have hspelling : SameName "audit" " AUDIT\t" :=
    ⟨"audit".toList, "AUDIT".toList, ⟨[], [], by decide, by decide, rfl⟩,
      ⟨[' '], ['\t'], by decide, by decide, rfl⟩, by decide⟩
  refine ⟨hmade, haudit.expand _ hspelling, ?_, ?_, ?_⟩
  · rw [hflags "Trace" (by decide)]
    decide
  · exact (hgroups "logs" ["audit"] (by decide)).mpr (Or.inl (by decide))
  · rw [hgroups "Logs" ["Trace"] (by decide)]
    decide

def capitalFlags : FlagUniverse :=
  ⟨.service, FlagSet.ofList ["Audit", "trace"], [("Logs", ["trace"])]⟩

/-- A flag and a group with capital letters are accepted, and unknown as they were declared. -/
theorem make_conceals_capital :
    make .service ["Audit", "trace"] [("Logs", ["trace"])] = .ok capitalFlags ∧
      "Audit" ∈ capitalFlags.allowed ∧
      capitalFlags.expand ["Audit"] = .error ⟨.service, "audit"⟩ ∧
      capitalFlags.expand ["Logs"] = .error ⟨.service, "logs"⟩ := by
  decide

end ServiceLoom.FlagUniverse

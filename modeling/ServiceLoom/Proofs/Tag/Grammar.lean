import Mathlib.Data.List.Nodup
import ServiceLoom.Proofs.Tag.Extension
import ServiceLoom.Proofs.Tag.Group

/-!
# The grammar of tag tokens

A tag is invoked by `@`, a spelling of its name and nothing more, or one group in parentheses. When
no two names of the two pools are equal up to case, a token resolves exactly if it invokes one of
them, and the name is the longest one that the token starts with.
-/

namespace ServiceLoom.Tag

/-- Names that resolution can tell apart. -/
structure Pools (builtin custom : List String) : Prop where
  ne_empty : ∀ name ∈ builtin ++ custom, name ≠ ""
  allowed : ∀ name ∈ builtin ++ custom, ∀ c ∈ name.toList, TagName.allowed c = true
  distinct : ((builtin ++ custom).map Text.lowerAscii).Nodup

def Pool.names (builtin custom : List String) : Pool → List String
  | .builtin => builtin
  | .custom => custom

def Pool.other : Pool → Pool
  | .builtin => .custom
  | .custom => .builtin

def Spells (spelling : List Char) (name : String) : Prop :=
  spelling.map Char.toLower = name.toList.map Char.toLower

inductive Invokes (name : String) : List Char → Option String → Prop
  | bare {spelling : List Char} (h : Spells spelling name) : Invokes name ('@' :: spelling) none
  | group {spelling inner : List Char} (h : Spells spelling name) (hgroup : Group inner) :
    Invokes name ('@' :: (spelling ++ '(' :: (inner ++ [')'])))
      (some (String.ofList (Text.trim inner)))

def StartsWith (token : List Char) (name : String) : Prop :=
  ∃ spelling rest, token = '@' :: (spelling ++ rest) ∧ Spells spelling name

/-- One of the names, and no other that the token starts with is longer. -/
structure Longest (names : List String) (token : List Char) (name : String) : Prop where
  mem : name ∈ names
  starts : StartsWith token name
  le : ∀ other ∈ names, StartsWith token other → other.length ≤ name.length

theorem spelled_iff {name : String} {token : List Char} (hname : name ≠ "") :
    Spelled name token ↔ StartsWith token name := by
  constructor
  · intro h
    obtain ⟨spelling, rest, htoken, _, hspells⟩ := h.parts
    exact ⟨spelling, rest, htoken, hspells⟩
  · rintro ⟨spelling, rest, rfl, hspells⟩
    exact ⟨hname, _, rfl, Text.startsWithFold_iff.mpr ⟨spelling, rest, rfl, hspells⟩⟩

theorem Spells.length_eq {spelling : List Char} {name : String} (h : Spells spelling name) :
    spelling.length = name.length := by
  simpa [String.length_toList] using congrArg List.length h

theorem invokes_iff {name : String} {token : List Char} {text : Option String} :
    Invokes name token text ↔
      StartsWith token name ∧ payload (token.drop (name.length + 1)) = .ok text := by
  have hdrop : ∀ {spelling rest : List Char}, Spells spelling name →
      ('@' :: (spelling ++ rest)).drop (name.length + 1) = rest := by
    intro spelling rest hspells
    rw [← hspells.length_eq, List.drop_succ_cons, List.drop_left]
  constructor
  · rintro (hspells | ⟨hspells, hgroup⟩)
    · refine ⟨⟨_, [], by simp, hspells⟩, ?_⟩
      have := @hdrop _ [] hspells
      rw [List.append_nil] at this
      rw [this]
      rfl
    · refine ⟨⟨_, _, rfl, hspells⟩, ?_⟩
      rw [hdrop hspells]
      exact payload_eq_ok_iff.mpr (Or.inr ⟨_, rfl, hgroup, rfl⟩)
  · rintro ⟨⟨spelling, rest, rfl, hspells⟩, hpayload⟩
    rw [hdrop hspells] at hpayload
    rcases payload_eq_ok_iff.mp hpayload with ⟨rfl, rfl⟩ | ⟨inner, rfl, hgroup, rfl⟩
    · rw [List.append_nil]
      exact .bare hspells
    · exact .group hspells hgroup

/-! ## The choice of a name -/

namespace Pools

variable {builtin custom : List String} {token : List Char}

theorem eq_of_startsWith (h : Pools builtin custom) {a b : String}
    (ha : a ∈ builtin ++ custom) (hb : b ∈ builtin ++ custom) (hta : StartsWith token a)
    (htb : StartsWith token b) (hlength : a.length = b.length) : a = b := by
  apply List.inj_on_of_nodup_map h.distinct ha hb
  exact lowerAscii_eq_of_spelled ((spelled_iff (h.ne_empty a ha)).mpr hta)
    ((spelled_iff (h.ne_empty b hb)).mpr htb) hlength

theorem mem_append_iff (pool : Pool) {name : String} : name ∈ builtin ++ custom ↔
    name ∈ pool.names builtin custom ∨ name ∈ pool.other.names builtin custom := by
  cases pool with
  | builtin => exact List.mem_append
  | custom => exact List.mem_append.trans or_comm

theorem exists_pool_of_mem {name : String} (hname : name ∈ builtin ++ custom) :
    ∃ pool : Pool, name ∈ pool.names builtin custom := by
  rcases List.mem_append.mp hname with hname | hname
  · exact ⟨.builtin, hname⟩
  · exact ⟨.custom, hname⟩

theorem not_mem_other (h : Pools builtin custom) {pool : Pool} {name : String}
    (hname : name ∈ pool.names builtin custom) : name ∉ pool.other.names builtin custom := by
  have hdisjoint := (List.nodup_append.mp (List.Nodup.of_map _ h.distinct)).2.2
  intro hother
  cases pool with
  | builtin => exact hdisjoint name hname name hother rfl
  | custom => exact hdisjoint name hother name hname rfl

theorem mem_matching_iff (h : Pools builtin custom) (pool : Pool) {name : String} :
    name ∈ matching token (pool.names builtin custom) ↔
      name ∈ pool.names builtin custom ∧ StartsWith token name := by
  rw [Tag.mem_matching_iff]
  refine and_congr_right fun hname => spelled_iff (h.ne_empty name ?_)
  exact (mem_append_iff pool).mpr (Or.inl hname)

theorem longestMatch?_eq_some_iff (h : Pools builtin custom) (pool : Pool) {name : String} :
    longestMatch? token (pool.names builtin custom) = some name ↔
      Longest (pool.names builtin custom) token name := by
  have hin : ∀ {name}, name ∈ pool.names builtin custom → name ∈ builtin ++ custom :=
    fun hname => (mem_append_iff pool).mpr (Or.inl hname)
  rw [longestMatch?_eq]
  constructor
  · intro hlongest
    obtain ⟨hmem, hle⟩ := mem_and_le_of_longest? hlongest
    obtain ⟨hname, hstarts⟩ := (h.mem_matching_iff pool).mp hmem
    refine ⟨hname, hstarts, ?_⟩
    intro other hother hs
    exact hle other ((h.mem_matching_iff pool).mpr ⟨hother, hs⟩)
  · rintro ⟨hname, hstarts, hle⟩
    have hmem := (h.mem_matching_iff pool).mpr ⟨hname, hstarts⟩
    cases hlongest : longest? (matching token (pool.names builtin custom)) with
    | none =>
      rw [longest?_eq_none_iff.mp hlongest] at hmem
      cases hmem
    | some other =>
      obtain ⟨hother, hall⟩ := mem_and_le_of_longest? hlongest
      obtain ⟨hother, hstartsOther⟩ := (h.mem_matching_iff pool).mp hother
      have hlength := Nat.le_antisymm (hle other hother hstartsOther) (hall name hmem)
      rw [h.eq_of_startsWith (hin hother) (hin hname) hstartsOther hstarts hlength]

theorem longestMatch?_eq_none_iff (h : Pools builtin custom) (pool : Pool) :
    longestMatch? token (pool.names builtin custom) = none ↔
      ∀ name ∈ pool.names builtin custom, ¬ StartsWith token name := by
  rw [longestMatch?_eq, longest?_eq_none_iff, List.eq_nil_iff_forall_not_mem]
  simp only [h.mem_matching_iff pool, not_and]

theorem choose_eq_ok_iff (h : Pools builtin custom) {pool : Pool} {name : String} :
    choose token builtin custom = .ok (pool, name) ↔
      name ∈ pool.names builtin custom ∧ Longest (builtin ++ custom) token name := by
  have hchoose : choose token builtin custom = .ok (pool, name) ↔
      longestMatch? token (pool.names builtin custom) = some name ∧
        ∀ x ∈ matching token (pool.other.names builtin custom), x.length < name.length := by
    rw [Tag.choose_eq_ok_iff]
    cases pool with
    | builtin => exact Iff.rfl
    | custom => exact Iff.rfl
  rw [hchoose, h.longestMatch?_eq_some_iff]
  constructor
  · rintro ⟨⟨hname, hstarts, hle⟩, hshorter⟩
    refine ⟨hname, (mem_append_iff pool).mpr (Or.inl hname), hstarts, ?_⟩
    intro other hother hs
    rcases (mem_append_iff pool).mp hother with hown | hforeign
    · exact hle other hown hs
    · exact Nat.le_of_lt (hshorter other ((h.mem_matching_iff _).mpr ⟨hforeign, hs⟩))
  · rintro ⟨hname, hmem, hstarts, hle⟩
    refine ⟨⟨hname, hstarts, ?_⟩, ?_⟩
    · intro other hother
      exact hle other ((mem_append_iff pool).mpr (Or.inl hother))
    · intro other hother
      obtain ⟨hforeign, hs⟩ := (h.mem_matching_iff _).mp hother
      have hin := (mem_append_iff pool).mpr (Or.inr hforeign)
      -- a name of the other pool of the same length would be the same name
      apply Nat.lt_of_le_of_ne (hle other hin hs)
      intro hlength
      rw [h.eq_of_startsWith hin hmem hs hstarts hlength] at hforeign
      exact h.not_mem_other hname hforeign

/-- Two names of one length that a token starts with are one name, so no choice is ambiguous. -/
theorem choose_eq_error_iff (h : Pools builtin custom) {e : ResolveError} :
    choose token builtin custom = .error e ↔
      e = .unknown ∧ ∀ name ∈ builtin ++ custom, ¬ StartsWith token name := by
  have hnone : longestMatch? token builtin = none ∧ longestMatch? token custom = none ↔
      ∀ name ∈ builtin ++ custom, ¬ StartsWith token name := by
    rw [List.forall_mem_append]
    exact and_congr (h.longestMatch?_eq_none_iff .builtin) (h.longestMatch?_eq_none_iff .custom)
  constructor
  · intro he
    unfold choose at he
    split at he
    · rename_i hb hc
      cases he
      exact ⟨rfl, hnone.mp ⟨hb, hc⟩⟩
    · cases he
    · cases he
    · rename_i b c hb hc
      have hb := (h.longestMatch?_eq_some_iff .builtin).mp hb
      have hc := (h.longestMatch?_eq_some_iff .custom).mp hc
      split at he
      · cases he
      · split at he
        · cases he
        · have hsame : b = c := h.eq_of_startsWith (List.mem_append_left _ hb.mem)
            (List.mem_append_right _ hc.mem) hb.starts hc.starts (by omega)
          exact absurd (hsame ▸ hc.mem) (h.not_mem_other hb.mem)
  · rintro ⟨rfl, hall⟩
    obtain ⟨hb, hc⟩ := hnone.mpr hall
    rw [choose, hb, hc]

/-- An invocation ends its name, and no valid name reaches over that end. -/
theorem longest_of_invokes (h : Pools builtin custom) {name : String}
    (hname : name ∈ builtin ++ custom) {text : Option String} (hinvokes : Invokes name token text) :
    Longest (builtin ++ custom) token name := by
  obtain ⟨hstarts, hpayload⟩ := invokes_iff.mp hinvokes
  refine ⟨hname, hstarts, ?_⟩
  intro other hother hs
  exact length_le_of_spelled ((spelled_iff (h.ne_empty name hname)).mpr hstarts)
    (head_of_payload hpayload) ((spelled_iff (h.ne_empty other hother)).mpr hs)
    (h.allowed other hother)

end Pools

theorem resolve_of_choose {token : String} {builtin custom : List String} {pool : Pool}
    {name : String} (h : choose token.toList builtin custom = .ok (pool, name)) :
    resolve token builtin custom =
      match payload (token.toList.drop (name.length + 1)) with
      | .ok text => .ok ⟨pool, name, text⟩
      | .error cause => .error (.malformed name cause) := by
  unfold resolve
  rw [h]
  rfl

theorem resolve_of_choose_error {token : String} {builtin custom : List String} {e : ResolveError}
    (h : choose token.toList builtin custom = .error e) :
    resolve token builtin custom = .error e := by
  unfold resolve
  rw [h]
  rfl

namespace Pools

variable {builtin custom : List String} {token : String}

theorem resolve_eq_ok_iff_invokes (h : Pools builtin custom) {tag : Resolved} :
    resolve token builtin custom = .ok tag ↔
      tag.name ∈ tag.pool.names builtin custom ∧ Invokes tag.name token.toList tag.payload := by
  rw [resolve_eq_ok_iff, h.choose_eq_ok_iff]
  constructor
  · rintro ⟨⟨hname, hlongest⟩, hpayload⟩
    exact ⟨hname, invokes_iff.mpr ⟨hlongest.starts, hpayload⟩⟩
  · rintro ⟨hname, hinvokes⟩
    have hin := (mem_append_iff tag.pool).mpr (Or.inl hname)
    exact ⟨⟨hname, h.longest_of_invokes hin hinvokes⟩, (invokes_iff.mp hinvokes).2⟩

/-- What is left of the names fails on its payload, and then no name is invoked. -/
theorem resolve_eq_malformed_iff (h : Pools builtin custom) {name : String} :
    (∃ cause, resolve token builtin custom = .error (.malformed name cause)) ↔
      Longest (builtin ++ custom) token.toList name ∧
        ∀ other ∈ builtin ++ custom, ∀ text, ¬ Invokes other token.toList text := by
  constructor
  · rintro ⟨cause, hresolve⟩
    constructor
    · cases hchoose : choose token.toList builtin custom with
      | error e =>
        rw [resolve_of_choose_error hchoose] at hresolve
        cases hresolve
        exact absurd (h.choose_eq_error_iff.mp hchoose).1 (by simp)
      | ok choice =>
        obtain ⟨pool, longest⟩ := choice
        have hlongest := (h.choose_eq_ok_iff.mp hchoose).2
        rw [resolve_of_choose hchoose] at hresolve
        split at hresolve
        · cases hresolve
        · cases hresolve
          exact hlongest
    · intro other hother text hinvokes
      obtain ⟨pool, hpool⟩ := exists_pool_of_mem hother
      have hok : resolve token builtin custom = .ok ⟨pool, other, text⟩ :=
        h.resolve_eq_ok_iff_invokes.mpr ⟨hpool, hinvokes⟩
      rw [hok] at hresolve
      cases hresolve
  · rintro ⟨hlongest, hnone⟩
    obtain ⟨pool, hpool⟩ := exists_pool_of_mem hlongest.mem
    rw [resolve_of_choose (h.choose_eq_ok_iff.mpr ⟨hpool, hlongest⟩)]
    cases hpayload : payload (token.toList.drop (name.length + 1)) with
    | error cause => exact ⟨cause, rfl⟩
    | ok text =>
      have hinvokes := invokes_iff.mpr ⟨hlongest.starts, hpayload⟩
      exact absurd hinvokes (hnone name hlongest.mem text)

theorem resolve_eq_error_of_not_malformed (h : Pools builtin custom) {e : ResolveError}
    (he : ∀ name cause, e ≠ .malformed name cause) :
    resolve token builtin custom = .error e ↔
      e = .unknown ∧ ∀ name ∈ builtin ++ custom, ¬ StartsWith token.toList name := by
  rw [← h.choose_eq_error_iff]
  constructor
  · intro hresolve
    cases hchoose : choose token.toList builtin custom with
    | error e' =>
      rw [resolve_of_choose_error hchoose] at hresolve
      rw [Except.error.inj hresolve]
    | ok choice =>
      obtain ⟨pool, name⟩ := choice
      rw [resolve_of_choose hchoose] at hresolve
      split at hresolve
      · cases hresolve
      · exact absurd (Except.error.inj hresolve).symm (he name _)
  · exact resolve_of_choose_error

end Pools

/-- The tokens that resolve are the invocations of the names, wherever a name stands in its pool and
whatever shorter or longer names stand beside it. -/
theorem resolve_iff_grammar {builtin custom : List String} (h : Pools builtin custom)
    (token : String) :
    (∀ tag, resolve token builtin custom = .ok tag ↔
      tag.name ∈ tag.pool.names builtin custom ∧ Invokes tag.name token.toList tag.payload) ∧
    (resolve token builtin custom = .error .unknown ↔
      ∀ name ∈ builtin ++ custom, ¬ StartsWith token.toList name) ∧
    (∀ name, (∃ cause, resolve token builtin custom = .error (.malformed name cause)) ↔
      Longest (builtin ++ custom) token.toList name ∧
        ∀ other ∈ builtin ++ custom, ∀ text, ¬ Invokes other token.toList text) ∧
    ∀ name, resolve token builtin custom ≠ .error (.ambiguous name) := by
  refine ⟨fun tag => h.resolve_eq_ok_iff_invokes, ?_, fun name => h.resolve_eq_malformed_iff, ?_⟩
  · rw [h.resolve_eq_error_of_not_malformed (by simp)]
    simp only [true_and]
  · intro name hresolve
    have := (h.resolve_eq_error_of_not_malformed (by simp)).mp hresolve
    cases this.1

theorem resolve_iff_grammar_notes :
    Pools ["note", "note-all"] ["note-alls"] ∧
      resolve "@Note-All( (a), b )" ["note", "note-all"] ["note-alls"] =
        .ok ⟨.builtin, "note-all", some "(a), b"⟩ ∧
      ¬ Invokes "note" "@Note-All( (a), b )".toList (some "(a), b") ∧
      Longest ["note", "note-all", "note-alls"] "@note-all (a)".toList "note-all" := by
  have hsettled : ∀ name ∈ ["note", "note-all"] ++ ["note-alls"], TagName.Settled name := by
    decide
  have hpools : Pools ["note", "note-all"] ["note-alls"] :=
    ⟨fun name hname => (hsettled name hname).ne_empty,
      fun name hname => (hsettled name hname).allowed, by decide⟩
  have hresolve : resolve "@Note-All( (a), b )" ["note", "note-all"] ["note-alls"] =
      .ok ⟨.builtin, "note-all", some "(a), b"⟩ := by decide
  refine ⟨hpools, hresolve, ?_, ?_⟩
  · intro hinvokes
    have hnote := ((resolve_iff_grammar hpools "@Note-All( (a), b )").1
      ⟨.builtin, "note", some "(a), b"⟩).mpr ⟨by decide, hinvokes⟩
    rw [hresolve] at hnote
    exact absurd hnote (by decide)
  · exact (((resolve_iff_grammar hpools "@note-all (a)").2.2.1 "note-all").mp
      ⟨.textAfterName " (a)", by decide⟩).1

end ServiceLoom.Tag

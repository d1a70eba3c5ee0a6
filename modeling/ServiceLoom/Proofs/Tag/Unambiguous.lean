import ServiceLoom.Proofs.Tag.Grammar

/-!
# Unambiguous tables

After any calls, successful or not, the names of a kind are settled, distinct and none of the
built-in ones, so both pools together are pools that resolution can tell apart. A call succeeds
exactly if its name is accepted, and then one table is longer by it. What resolves is found: a
custom name has a parser, and a built-in one is the name of a tag.
-/

namespace ServiceLoom

namespace TagName

theorem Settled.char_cases {name : String} (h : Settled name) :
    ∀ c ∈ name.toList,
      Text.isAsciiLower c = true ∨ Text.isAsciiDigit c = true ∨ c = '-' ∨ c = '_' := by
  intro c hc
  -- a capital letter is not its own lower case
  have hlower : Text.isAsciiUpper c = false := by
    have hmap : name.toList.map Char.toLower = name.toList.map id := by
      rw [← Text.toList_lowerAscii, h.lower, List.map_id]
    have hfixed : c.toLower = c := List.map_inj_left.mp hmap c hc
    cases hupper : Text.isAsciiUpper c with
    | false => rfl
    | true =>
      have := Text.toNat_toLower_of_upper hupper
      rw [hfixed] at this
      omega
  have hallowed := h.allowed c hc
  simp only [TagName.allowed, Text.isAsciiWord, Text.isAsciiLetter, hlower, Bool.false_or,
    Bool.or_eq_true, beq_iff_eq, or_assoc] at hallowed
  exact hallowed

/-- A valid name whose lower-case form is not taken. -/
structure IsNew (taken : List String) (name : String) : Prop where
  ne_empty : name ≠ ""
  allowed : ∀ c ∈ name.toList, TagName.allowed c = true
  fresh : Text.lowerAscii name ∉ taken

end TagName

namespace Tag

/-- Names of custom tags that are clear of each other and of the built-in ones. -/
structure Unambiguous (builtin names : List String) : Prop where
  ne_empty : ∀ name ∈ names, name ≠ ""
  chars : ∀ name ∈ names, ∀ c ∈ name.toList,
    Text.isAsciiLower c = true ∨ Text.isAsciiDigit c = true ∨ c = '-' ∨ c = '_'
  distinct : names.Nodup
  fresh : ∀ name ∈ names, name ∉ builtin

/-- What resolves to the custom pool has a parser, and what resolves to the built-in one is the name
of a tag. -/
def Dispatches {α κ : Type} (ofName? : String → Option κ) (nameOf : κ → String)
    (builtin : List String) (table : TagTable α) : Prop :=
  ∀ token tag, resolve token builtin table.names = .ok tag →
    match tag.pool with
    | .custom => ∃ entry ∈ table, entry.1.text = tag.name ∧ table.find? tag.name = some entry.2
    | .builtin => ∃ known, ofName? tag.name = some known ∧ nameOf known = tag.name

theorem settled_of_mem_builtinNames (kind : EntityKind) :
    ∀ name ∈ builtinNames kind, TagName.Settled name := by
  cases kind with
  | service => exact settled_of_mem_service
  | method => exact settled_of_mem_method
  | param => exact settled_of_mem_param

theorem nodup_builtinNames (kind : EntityKind) : (builtinNames kind).Nodup := by
  cases kind <;> decide

end Tag

namespace TagTable

variable {α : Type} {builtin : List String} {table : TagTable α}

theorem Sound.unambiguous (h : table.Sound builtin) : Tag.Unambiguous builtin table.names where
  ne_empty name hname := (h.settled name hname).ne_empty
  chars name hname := (h.settled name hname).char_cases
  distinct := h.nodup
  fresh := h.fresh

theorem Sound.pools (h : table.Sound builtin) (hbuiltin : ∀ name ∈ builtin, TagName.Settled name)
    (hnodup : builtin.Nodup) : Tag.Pools builtin table.names := by
  have hsettled : ∀ name ∈ builtin ++ table.names, TagName.Settled name := by
    intro name hname
    rcases List.mem_append.mp hname with hname | hname
    · exact hbuiltin name hname
    · exact h.settled name hname
  refine ⟨fun name hname => (hsettled name hname).ne_empty,
    fun name hname => (hsettled name hname).allowed, ?_⟩
  rw [List.map_congr_left fun name hname => (hsettled name hname).lower, List.map_id']
  refine List.nodup_append.mpr ⟨hnodup, h.nodup, ?_⟩
  rintro name hname other hother rfl
  exact h.fresh name hother hname

theorem register_eq_ok_iff_isNew {table' : TagTable α} {kind : EntityKind} {name : String}
    {parser : TagParser α} :
    table.register kind builtin name parser = .ok table' ↔
      TagName.IsNew (builtin ++ table.names) name ∧
        table' = table ++ [(⟨Text.lowerAscii name⟩, parser)] := by
  rw [register_eq_ok_iff]
  constructor
  · rintro ⟨tag, hmake, hbuiltin, hnames, rfl⟩
    obtain ⟨hempty, hallowed, rfl⟩ := TagName.make_eq_ok_iff.mp hmake
    exact ⟨⟨hempty, hallowed, fun h => (List.mem_append.mp h).elim hbuiltin hnames⟩, rfl⟩
  · rintro ⟨⟨hempty, hallowed, hfresh⟩, rfl⟩
    exact ⟨_, TagName.make_eq_ok_iff.mpr ⟨hempty, hallowed, rfl⟩,
      fun h => hfresh (List.mem_append_left _ h), fun h => hfresh (List.mem_append_right _ h), rfl⟩

theorem exists_find?_of_mem {name : String} (h : name ∈ table.names) :
    ∃ entry ∈ table, entry.1.text = name ∧ table.find? name = some entry.2 := by
  obtain ⟨entry, hentry, hname⟩ := List.mem_map.mp h
  cases hfind : List.find? (·.1.text == name) table with
  | none =>
    have := List.find?_eq_none.mp hfind entry hentry
    simp [hname] at this
  | some first =>
    refine ⟨first, List.mem_of_find?_eq_some hfind, by simpa using List.find?_some hfind, ?_⟩
    rw [find?, hfind]
    rfl

theorem dispatches_of_pools {κ : Type} {ofName? : String → Option κ} {nameOf : κ → String}
    {all : List κ} (h : Tag.Pools (all.map nameOf) table.names)
    (hname : ∀ known, ofName? (nameOf known) = some known) :
    Tag.Dispatches ofName? nameOf (all.map nameOf) table := by
  intro token tag hresolve
  have hmem := (h.resolve_eq_ok_iff_invokes.mp hresolve).1
  cases hpool : tag.pool with
  | custom =>
    rw [hpool] at hmem
    exact exists_find?_of_mem hmem
  | builtin =>
    rw [hpool] at hmem
    obtain ⟨known, _, hknown⟩ := List.mem_map.mp hmem
    rw [← hknown]
    exact ⟨known, hname known, rfl⟩

end TagTable

namespace Registration

def kind : Registration → EntityKind
  | service .. => .service
  | method .. => .method
  | param .. => .param

def name : Registration → String
  | service name _ | method name _ | param name _ => name

end Registration

namespace TagParsers

def Accepts (parsers : TagParsers) (call : Registration) : Prop :=
  TagName.IsNew (Tag.builtinNames call.kind ++ parsers.names call.kind) call.name

def append (parsers : TagParsers) : Registration → TagParsers
  | .service name parser =>
    { parsers with service := parsers.service ++ [(⟨Text.lowerAscii name⟩, parser)] }
  | .method name parser =>
    { parsers with method := parsers.method ++ [(⟨Text.lowerAscii name⟩, parser)] }
  | .param name parser =>
    { parsers with param := parsers.param ++ [(⟨Text.lowerAscii name⟩, parser)] }

/-- What resolves on an entity of a kind is found there. -/
def Dispatches (parsers : TagParsers) : EntityKind → Prop
  | .service =>
    Tag.Dispatches Tag.ServiceTag.ofName? Tag.ServiceTag.name Tag.ServiceTag.names parsers.service
  | .method =>
    Tag.Dispatches Tag.MethodTag.ofName? Tag.MethodTag.name Tag.MethodTag.names parsers.method
  | .param => Tag.Dispatches Tag.ParamTag.ofName? Tag.ParamTag.name Tag.ParamTag.names parsers.param

variable {parsers : TagParsers}

theorem register_eq_ok_iff {call : Registration} {parsers' : TagParsers} :
    parsers.register call = .ok parsers' ↔
      parsers.Accepts call ∧ parsers.append call = parsers' := by
  have hpush : ∀ {α : Type} {x : Except Error (TagTable α)} {P : Prop} {table : TagTable α}
      (put : TagTable α → TagParsers), (∀ table', x = .ok table' ↔ P ∧ table' = table) →
      ((x >>= fun table => .ok (put table)) = .ok parsers' ↔ P ∧ put table = parsers') := by
    intro α x P table put hx
    rw [bind_eq_ok_iff]
    simp only [hx, Except.ok.injEq]
    exact ⟨fun ⟨_, ⟨hP, htable⟩, h⟩ => ⟨hP, htable ▸ h⟩, fun ⟨hP, h⟩ => ⟨_, ⟨hP, rfl⟩, h⟩⟩
  cases call with
  | service name parser =>
    exact hpush (fun table => { parsers with service := table })
      fun _ => TagTable.register_eq_ok_iff_isNew
  | method name parser =>
    exact hpush (fun table => { parsers with method := table })
      fun _ => TagTable.register_eq_ok_iff_isNew
  | param name parser =>
    exact hpush (fun table => { parsers with param := table })
      fun _ => TagTable.register_eq_ok_iff_isNew

/-- A call that is accepted makes its own table longer by one parser, and any other call fails and
changes nothing. -/
theorem attempt_cases (parsers : TagParsers) (call : Registration) :
    (parsers.Accepts call ∧ parsers.register call = .ok (parsers.append call) ∧
      parsers.attempt call = parsers.append call) ∨
    (¬ parsers.Accepts call ∧ (∃ e, parsers.register call = .error e) ∧
      parsers.attempt call = parsers) := by
  unfold attempt
  cases h : parsers.register call with
  | ok parsers' =>
    obtain ⟨haccepts, rfl⟩ := register_eq_ok_iff.mp h
    exact Or.inl ⟨haccepts, rfl, rfl⟩
  | error e =>
    refine Or.inr ⟨?_, ⟨e, rfl⟩, rfl⟩
    intro haccepts
    rw [register_eq_ok_iff.mpr ⟨haccepts, rfl⟩] at h
    cases h

theorem Sound.unambiguous (h : parsers.Sound) (kind : EntityKind) :
    Tag.Unambiguous (Tag.builtinNames kind) (parsers.names kind) := by
  cases kind with
  | service => exact h.service.unambiguous
  | method => exact h.method.unambiguous
  | param => exact h.param.unambiguous

theorem Sound.pools (h : parsers.Sound) (kind : EntityKind) :
    Tag.Pools (Tag.builtinNames kind) (parsers.names kind) := by
  have hbuiltin := Tag.settled_of_mem_builtinNames kind
  have hnodup := Tag.nodup_builtinNames kind
  cases kind with
  | service => exact h.service.pools hbuiltin hnodup
  | method => exact h.method.pools hbuiltin hnodup
  | param => exact h.param.pools hbuiltin hnodup

theorem Sound.dispatches (h : parsers.Sound) (kind : EntityKind) : parsers.Dispatches kind := by
  have hpools := h.pools kind
  cases kind with
  | service => exact TagTable.dispatches_of_pools hpools Tag.ServiceTag.ofName?_name
  | method => exact TagTable.dispatches_of_pools hpools Tag.MethodTag.ofName?_name
  | param => exact TagTable.dispatches_of_pools hpools Tag.ParamTag.ofName?_name

end TagParsers

end ServiceLoom

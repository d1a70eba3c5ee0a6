import ServiceLoom.Proofs.Results
import ServiceLoom.Proofs.Text.Ascii
import ServiceLoom.Tag.Parsers

/-!
# Registering parsers

A registration that succeeds appends one parser under a name that is valid, in lower case and new to
its kind; a failing one leaves all tables as they were. So the names of every table that is reached
are settled, distinct and disjoint from the built-in ones, and later registrations only add to the
ends of tables.
-/

namespace ServiceLoom

namespace TagName

theorem allowed_toLower {c : Char} (h : allowed c = true) : allowed c.toLower = true := by
  simp only [allowed, Bool.or_eq_true, beq_iff_eq] at h ⊢
  rcases h with (h | rfl) | rfl
  · exact Or.inl (Or.inl (Text.isAsciiWord_toLower h))
  · exact Or.inl (Or.inr rfl)
  · exact Or.inr rfl

theorem allowed_of_toLower {c : Char} (h : allowed c.toLower = true) : allowed c = true := by
  simp only [allowed, Bool.or_eq_true, beq_iff_eq] at h ⊢
  rcases h with (h | h) | h
  · exact Or.inl (Or.inl (Text.isAsciiWord_of_toLower h))
  · exact Or.inl (Or.inr (Text.eq_of_toLower_eq (by decide) h))
  · exact Or.inr (Text.eq_of_toLower_eq (by decide) h)

theorem make_eq_ok_iff {name : String} {tag : TagName} :
    make name = .ok tag ↔
      name ≠ "" ∧ (∀ c ∈ name.toList, allowed c = true) ∧ tag = ⟨Text.lowerAscii name⟩ := by
  unfold make
  by_cases hempty : name = ""
  · simp [hempty]
  · rw [if_neg hempty]
    cases hfind : name.toList.find? (!allowed ·) with
    | some c =>
      have hc := List.find?_some hfind
      have hmem := List.mem_of_find?_eq_some hfind
      simp only [reduceCtorEq, false_iff]
      rintro ⟨_, hall, _⟩
      simp [hall c hmem] at hc
    | none =>
      have hall : ∀ c ∈ name.toList, allowed c = true := by
        intro c hc
        simpa using List.find?_eq_none.mp hfind c hc
      simp only [Except.ok.injEq]
      exact ⟨fun h => ⟨hempty, hall, h.symm⟩, fun h => h.2.2.symm⟩

/-- A name in the form in which tables keep it. -/
structure Settled (name : String) : Prop where
  ne_empty : name ≠ ""
  allowed : ∀ c ∈ name.toList, allowed c = true
  lower : Text.lowerAscii name = name

theorem settled_of_make {name : String} {tag : TagName} (h : make name = .ok tag) :
    Settled tag.text := by
  obtain ⟨hempty, hall, rfl⟩ := make_eq_ok_iff.mp h
  refine ⟨fun hnil => hempty (Text.lowerAscii_eq_empty_iff.mp hnil), ?_, by simp⟩
  intro c hc
  obtain ⟨d, hd, rfl⟩ := List.mem_map.mp (Text.toList_lowerAscii name ▸ hc)
  exact allowed_toLower (hall d hd)

instance (name : String) : Decidable (Settled name) :=
  decidable_of_iff (name ≠ "" ∧ name.toList.all TagName.allowed = true ∧
      Text.lowerAscii name = name)
    ⟨fun h => ⟨h.1, List.all_eq_true.mp h.2.1, h.2.2⟩,
      fun h => ⟨h.ne_empty, List.all_eq_true.mpr h.allowed, h.lower⟩⟩

end TagName

namespace TagTable

variable {α : Type}

@[simp] theorem names_append (old new : TagTable α) :
    names (old ++ new) = names old ++ names new := by
  simp [names]

/-- The names of a table beside the built-in ones of its kind. -/
structure Sound (builtin : List String) (table : TagTable α) : Prop where
  settled : ∀ name ∈ table.names, TagName.Settled name
  nodup : table.names.Nodup
  fresh : ∀ name ∈ table.names, name ∉ builtin

theorem sound_nil (builtin : List String) : Sound builtin ([] : TagTable α) where
  settled := by simp [names]
  nodup := by simp [names]
  fresh := by simp [names]

/-- A registration succeeds exactly if the name is valid and its lower-case form is new, and then
it appends. -/
theorem register_eq_ok_iff {table table' : TagTable α} {kind : EntityKind} {builtin : List String}
    {name : String} {parser : TagParser α} :
    table.register kind builtin name parser = .ok table' ↔
      ∃ tag, TagName.make name = .ok tag ∧ tag.text ∉ builtin ∧ tag.text ∉ table.names ∧
        table' = table ++ [(tag, parser)] := by
  unfold register
  cases hmake : TagName.make name with
  | error e => simp [bind, Except.bind]
  | ok tag =>
    simp only [bind, Except.bind, Except.ok.injEq, exists_eq_left']
    by_cases hbuiltin : tag.text ∈ builtin
    · simp [hbuiltin, throw, throwThe, MonadExceptOf.throw]
    · by_cases htable : tag.text ∈ table.names
      · simp [hbuiltin, htable, throw, throwThe, MonadExceptOf.throw]
      · simp only [hbuiltin, htable, if_false, pure, Except.pure, Except.ok.injEq,
          not_false_eq_true, true_and]
        exact eq_comm

theorem sound_of_register {table table' : TagTable α} {kind : EntityKind} {builtin : List String}
    {name : String} {parser : TagParser α}
    (h : table.register kind builtin name parser = .ok table') (hs : table.Sound builtin) :
    table'.Sound builtin := by
  obtain ⟨tag, hmake, hbuiltin, htable, rfl⟩ := register_eq_ok_iff.mp h
  have hnames : names [(tag, parser)] = [tag.text] := rfl
  constructor
  · intro name hname
    rw [names_append, hnames, List.mem_append, List.mem_singleton] at hname
    rcases hname with hname | rfl
    · exact hs.settled name hname
    · exact TagName.settled_of_make hmake
  · rw [names_append, hnames, List.nodup_append]
    refine ⟨hs.nodup, by simp, ?_⟩
    intro a ha b hb
    rw [List.mem_singleton] at hb
    subst b
    exact fun hab => htable (hab ▸ ha)
  · intro name hname
    rw [names_append, hnames, List.mem_append, List.mem_singleton] at hname
    rcases hname with hname | rfl
    · exact hs.fresh name hname
    · exact hbuiltin

theorem find?_append_of_some {old : TagTable α} {name : String} {parser : TagParser α}
    (h : old.find? name = some parser) (new : TagTable α) :
    find? (old ++ new) name = some parser := by
  unfold find? at h ⊢
  obtain ⟨entry, hentry, rfl⟩ := Option.map_eq_some_iff.mp h
  rw [List.find?_append, hentry]
  rfl

end TagTable

def Tag.builtinNames : EntityKind → List String
  | .service => ServiceTag.names
  | .method => MethodTag.names
  | .param => ParamTag.names

inductive Registration where
  | service (name : String) (parser : TagParser Service)
  | method (name : String) (parser : TagParser Method)
  | param (name : String) (parser : TagParser Argument)

namespace TagParsers

def register (parsers : TagParsers) : Registration → Except Error TagParsers
  | .service name parser => parsers.registerService name parser
  | .method name parser => parsers.registerMethod name parser
  | .param name parser => parsers.registerParam name parser

/-- The parsers after a call; a call that fails changes nothing. -/
def attempt (parsers : TagParsers) (call : Registration) : TagParsers :=
  match parsers.register call with
  | .ok parsers => parsers
  | .error _ => parsers

/-- What calls lead to from nothing, whether they succeed or not. -/
def Reached (parsers : TagParsers) : Prop :=
  ∃ calls : List Registration, calls.foldl attempt {} = parsers

/-- Calls that all succeed lead from the first parsers to the second. -/
def Extends (more fewer : TagParsers) : Prop :=
  ∃ calls : List Registration, calls.foldlM register fewer = .ok more

structure Sound (parsers : TagParsers) : Prop where
  service : parsers.service.Sound Tag.ServiceTag.names
  method : parsers.method.Sound Tag.MethodTag.names
  param : parsers.param.Sound Tag.ParamTag.names

/-- Every table of the second parsers starts with the table of the first. -/
structure Prolongs (more fewer : TagParsers) : Prop where
  service : ∃ new, more.service = fewer.service ++ new
  method : ∃ new, more.method = fewer.method ++ new
  param : ∃ new, more.param = fewer.param ++ new

theorem Prolongs.refl (parsers : TagParsers) : parsers.Prolongs parsers :=
  ⟨⟨[], by simp⟩, ⟨[], by simp⟩, ⟨[], by simp⟩⟩

theorem Prolongs.trans {a b c : TagParsers} (hab : a.Prolongs b) (hbc : b.Prolongs c) :
    a.Prolongs c := by
  obtain ⟨⟨s, hs⟩, ⟨m, hm⟩, ⟨p, hp⟩⟩ := hab
  obtain ⟨⟨s', hs'⟩, ⟨m', hm'⟩, ⟨p', hp'⟩⟩ := hbc
  exact ⟨⟨s' ++ s, by rw [hs, hs', List.append_assoc]⟩,
    ⟨m' ++ m, by rw [hm, hm', List.append_assoc]⟩,
    ⟨p' ++ p, by rw [hp, hp', List.append_assoc]⟩⟩

/-- What one successful call does: one table grows at its end and all stay sound. -/
theorem register_step {parsers parsers' : TagParsers} {call : Registration}
    (h : parsers.register call = .ok parsers') :
    parsers'.Prolongs parsers ∧ (parsers.Sound → parsers'.Sound) := by
  cases call with
  | service name parser =>
    obtain ⟨table, htable, hrest⟩ := bind_eq_ok_iff.mp h
    cases hrest
    have ⟨tag, _, _, _, happend⟩ := TagTable.register_eq_ok_iff.mp htable
    exact ⟨⟨⟨_, happend⟩, ⟨[], by simp⟩, ⟨[], by simp⟩⟩,
      fun hs => ⟨TagTable.sound_of_register htable hs.service, hs.method, hs.param⟩⟩
  | method name parser =>
    obtain ⟨table, htable, hrest⟩ := bind_eq_ok_iff.mp h
    cases hrest
    have ⟨tag, _, _, _, happend⟩ := TagTable.register_eq_ok_iff.mp htable
    exact ⟨⟨⟨[], by simp⟩, ⟨_, happend⟩, ⟨[], by simp⟩⟩,
      fun hs => ⟨hs.service, TagTable.sound_of_register htable hs.method, hs.param⟩⟩
  | param name parser =>
    obtain ⟨table, htable, hrest⟩ := bind_eq_ok_iff.mp h
    cases hrest
    have ⟨tag, _, _, _, happend⟩ := TagTable.register_eq_ok_iff.mp htable
    exact ⟨⟨⟨[], by simp⟩, ⟨[], by simp⟩, ⟨_, happend⟩⟩,
      fun hs => ⟨hs.service, hs.method, TagTable.sound_of_register htable hs.param⟩⟩

theorem sound_attempt {parsers : TagParsers} (hs : parsers.Sound) (call : Registration) :
    (parsers.attempt call).Sound := by
  unfold attempt
  cases h : parsers.register call with
  | ok parsers' => exact (register_step h).2 hs
  | error e => exact hs

theorem Reached.sound {parsers : TagParsers} (h : parsers.Reached) : parsers.Sound := by
  obtain ⟨calls, rfl⟩ := h
  have hstart : ∀ parsers : TagParsers, parsers.Sound → (calls.foldl attempt parsers).Sound := by
    induction calls with
    | nil => exact fun _ hs => hs
    | cons call calls ih =>
      exact fun parsers hs => ih (parsers.attempt call) (sound_attempt hs call)
  exact hstart {} ⟨TagTable.sound_nil _, TagTable.sound_nil _, TagTable.sound_nil _⟩

theorem Extends.prolongs_and_sound {more fewer : TagParsers} (h : more.Extends fewer) :
    more.Prolongs fewer ∧ (fewer.Sound → more.Sound) := by
  obtain ⟨calls, h⟩ := h
  induction calls generalizing fewer with
  | nil =>
    cases h
    exact ⟨.refl _, id⟩
  | cons call calls ih =>
    rw [List.foldlM_cons] at h
    obtain ⟨middle, hcall, hrest⟩ := bind_eq_ok_iff.mp h
    obtain ⟨hprolongs, hsound⟩ := ih hrest
    obtain ⟨hstep, hstepSound⟩ := register_step hcall
    exact ⟨hprolongs.trans hstep, fun hs => hsound (hstepSound hs)⟩

end TagParsers

end ServiceLoom

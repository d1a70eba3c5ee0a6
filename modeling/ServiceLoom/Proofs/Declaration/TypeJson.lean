import ServiceLoom.Declaration.Json
import ServiceLoom.Proofs.Json.Member

/-!
# Type expressions as JSON

All kinds are written and read alike: an object tells the kind, and under the keys of that kind its
texts and its parts, which are type expressions again. So reading is told apart from the kinds once,
and everything else is by induction on the parts.
-/

namespace ServiceLoom.TypeExpr

open Json

variable {nested byNumber : Bool} {e : TypeExpr} {v : Json} {kind key : String}
  {members : List (String × Json)}

/-- What an object tells of a type expression; texts and parts are listed under their keys. -/
structure Contents where
  kind : String
  texts : List (String × String) := []
  parts : List (String × TypeExpr) := []

def contents : TypeExpr → Contents
  | ident name => { kind := "ident", texts := [("name", name)] }
  | selector package name =>
    { kind := "selector", texts := [("package", package), ("name", name)] }
  | slice elem => { kind := "slice", parts := [("elem", elem)] }
  | ellipsis elem => { kind := "ellipsis", parts := [("elem", elem)] }
  | map key value => { kind := "map", parts := [("key", key), ("value", value)] }
  | star elem => { kind := "star", parts := [("elem", elem)] }
  | array len elem => { kind := "array", texts := [("len", len)], parts := [("elem", elem)] }
  | chan elem => { kind := "chan", parts := [("elem", elem)] }
  | func => { kind := "func" }
  | struct => { kind := "struct" }
  | interface => { kind := "interface" }

theorem inductionOnParts {P : TypeExpr → Prop}
    (h : ∀ e : TypeExpr, (∀ p ∈ e.contents.parts, P p.2) → P e) (e : TypeExpr) : P e := by
  induction e with
  | map key value hkey hvalue => exact h _ (by simp [contents, hkey, hvalue])
  | slice elem ih | ellipsis elem ih | star elem ih | array len elem ih | chan elem ih =>
    exact h _ (by simp [contents, ih])
  | _ => exact h _ (by simp [contents])

/-! ## The format -/

/-- A kind is given by its name, or perhaps by its number. -/
def KindOf (byNumber : Bool) (kind : String) (v : Json) : Prop :=
  v = .string kind ∨ byNumber = true ∧ ∃ n : Nat, v = .int n ∧ kinds[n]? = some kind

/-- The value is the type expression in the format that is read. -/
inductive WrittenAs : Bool → TypeExpr → Json → Prop where
  | object {nested : Bool} {e : TypeExpr} {members : List (String × Json)}
    (kind : Required "kind" (KindOf nested e.contents.kind) members)
    (texts : ∀ t ∈ e.contents.texts, Required t.1 (Text t.2) members)
    (present : ∀ p ∈ e.contents.parts, ∃ v, Once p.1 v members)
    (parts : ∀ p ∈ e.contents.parts, ∀ v, (p.1, v) ∈ members → WrittenAs true p.2 v) :
    WrittenAs nested e (.object members)

theorem writtenAs_object_iff :
    WrittenAs nested e (.object members) ↔
      Required "kind" (KindOf nested e.contents.kind) members ∧
        (∀ t ∈ e.contents.texts, Required t.1 (Text t.2) members) ∧
        ∀ p ∈ e.contents.parts, Required p.1 (WrittenAs true p.2) members := by
  constructor
  · rintro ⟨hkind, htexts, hpresent, hparts⟩
    refine ⟨hkind, htexts, fun p hp => ?_⟩
    obtain ⟨v, honce⟩ := hpresent p hp
    exact ⟨v, honce, hparts p hp v honce.mem⟩
  · rintro ⟨hkind, htexts, hparts⟩
    refine .object hkind htexts (fun p hp => ?_) fun p hp v hv => (hparts p hp).of_mem hv
    obtain ⟨v, honce, -⟩ := hparts p hp
    exact ⟨v, honce⟩

/-! ## Reading -/

theorem kind?_eq_some_iff :
    kind? nested members = some kind ↔ Required "kind" (KindOf nested kind) members := by
  constructor
  · intro h
    rw [kind?] at h
    split at h
    · next name hname =>
      obtain rfl := Option.some.inj h
      exact ⟨_, valuesAt_eq_singleton_iff.mp hname, Or.inl rfl⟩
    · next n hn =>
      rw [Option.ite_none_right_eq_some, Bool.and_eq_true, decide_eq_true_iff] at h
      obtain ⟨⟨hnested, hsign⟩, hkind⟩ := h
      refine ⟨_, valuesAt_eq_singleton_iff.mp hn, Or.inr ⟨hnested, n.toNat, ?_, hkind⟩⟩
      rw [Int.toNat_of_nonneg hsign]
    · cases h
  · rintro ⟨v, honce, rfl | ⟨rfl, n, rfl, hkind⟩⟩
    · rw [kind?, valuesAt_eq_singleton_iff.mpr honce]
    · simp [kind?, valuesAt_eq_singleton_iff.mpr honce, hkind]

theorem filter_readParts (key : String) (members : List (String × Json)) :
    (readParts members).filter (·.1 == key) =
      (valuesAt key members).map fun v => (key, read? true v) := by
  induction members with
  | nil => rfl
  | cons m members ih =>
    obtain ⟨name, value⟩ := m
    rw [readParts, valuesAt, List.filter_cons, List.filter_cons]
    split
    · next hname =>
      obtain rfl := eq_of_beq hname
      rw [List.map_cons, List.map_cons, ih, valuesAt]
    · exact ih

theorem part?_readParts (key : String) (members : List (String × Json)) :
    part? key (readParts members) = required? (read? true) key members := by
  rw [part?, filter_readParts, required?]
  cases valuesAt key members with
  | nil => rfl
  | cons v rest => cases rest <;> rfl

/-- The one place where reading is told apart from the kinds. -/
theorem ofMembers?_eq_some_iff :
    ofMembers? nested members (readParts members) = some e ↔
      kind? nested members = some e.contents.kind ∧
        (∀ t ∈ e.contents.texts, required? string? t.1 members = some t.2) ∧
        ∀ p ∈ e.contents.parts, required? (read? true) p.1 members = some p.2 := by
  constructor
  · intro h
    obtain ⟨kind, hkind, h⟩ := Option.bind_eq_some_iff.mp h
    simp only [part?_readParts] at h
    split at h
    case h_1 =>
      obtain ⟨name, hname, h⟩ := Option.bind_eq_some_iff.mp h
      obtain rfl := Option.some.inj h
      exact ⟨hkind, by simpa [contents] using hname, by simp [contents]⟩
    case h_2 =>
      obtain ⟨package, hpackage, h⟩ := Option.bind_eq_some_iff.mp h
      obtain ⟨name, hname, h⟩ := Option.bind_eq_some_iff.mp h
      obtain rfl := Option.some.inj h
      exact ⟨hkind, by simp [contents, hpackage, hname], by simp [contents]⟩
    -- a slice, an ellipsis, a star or a chan
    case h_3 | h_4 | h_6 | h_8 =>
      obtain ⟨elem, helem, h⟩ := Option.bind_eq_some_iff.mp h
      obtain rfl := Option.some.inj h
      exact ⟨hkind, by simp [contents], by simpa [contents] using helem⟩
    case h_5 =>
      obtain ⟨key, hkey, h⟩ := Option.bind_eq_some_iff.mp h
      obtain ⟨value, hvalue, h⟩ := Option.bind_eq_some_iff.mp h
      obtain rfl := Option.some.inj h
      exact ⟨hkind, by simp [contents], by simp [contents, hkey, hvalue]⟩
    case h_7 =>
      obtain ⟨len, hlen, h⟩ := Option.bind_eq_some_iff.mp h
      obtain ⟨elem, helem, h⟩ := Option.bind_eq_some_iff.mp h
      obtain rfl := Option.some.inj h
      exact ⟨hkind, by simpa [contents] using hlen, by simpa [contents] using helem⟩
    -- the kinds that have neither texts nor parts
    case h_9 | h_10 | h_11 =>
      obtain rfl := Option.some.inj h
      exact ⟨hkind, by simp [contents], by simp [contents]⟩
    case h_12 => cases h
  · rintro ⟨hkind, htexts, hparts⟩
    cases e <;> simp_all [ofMembers?, contents, part?_readParts]

/-- Reading is exact: it finds a type expression just where one is written. -/
theorem read?_eq_some_iff : read? nested v = some e ↔ WrittenAs nested e v := by
  induction e using inductionOnParts generalizing nested v with
  | h e ih =>
    cases v with
    | object members =>
      rw [read?, ofMembers?_eq_some_iff, kind?_eq_some_iff, writtenAs_object_iff]
      refine and_congr_right fun _ => and_congr (forall₂_congr fun t _ => ?_)
        (forall₂_congr fun p hp => ?_)
      · exact required?_eq_some_iff fun _ => string?_eq_some_iff
      · exact required?_eq_some_iff fun _ => ih p hp
    | _ =>
      constructor
      · intro h
        cases h
      · intro h
        cases h

theorem ofJson?_eq_some_iff : ofJson? v = some e ↔ WrittenAs false e v := read?_eq_some_iff

/-! ## Writing -/

def written (e : TypeExpr) : List (String × Json) :=
  ("kind", .string e.contents.kind) :: (e.contents.texts.map (fun t => (t.1, .string t.2)) ++
    e.contents.parts.map fun p => (p.1, p.2.toJson))

theorem toJson_eq (e : TypeExpr) : e.toJson = .object e.written := by
  cases e <;> rfl

theorem once_written (h : (key, v) ∈ e.written) : Once key v e.written := by
  refine once_of_nodup ?_ h
  cases e <;> simp [written, contents]

theorem writtenAs_toJson (nested : Bool) (e : TypeExpr) : WrittenAs nested e e.toJson := by
  induction e using inductionOnParts generalizing nested with
  | h e ih =>
    rw [toJson_eq, writtenAs_object_iff]
    refine ⟨⟨_, once_written List.mem_cons_self, Or.inl rfl⟩, fun t ht => ?_, fun p hp => ?_⟩
    · have hmem := List.mem_map_of_mem (f := fun t : String × String => (t.1, Json.string t.2)) ht
      exact ⟨_, once_written (List.mem_cons_of_mem _ (List.mem_append_left _ hmem)), rfl⟩
    · have hmem := List.mem_map_of_mem (f := fun p : String × TypeExpr => (p.1, p.2.toJson)) hp
      exact ⟨_, once_written (List.mem_cons_of_mem _ (List.mem_append_right _ hmem)), ih p hp true⟩

/-! ## Flaws -/

structure Row where
  kind : String
  texts : List String := []
  parts : List String := []
  deriving DecidableEq

/-- The kinds with the keys of their texts and of their parts. -/
def layout : List Row :=
  [{ kind := "ident", texts := ["name"] },
    { kind := "selector", texts := ["package", "name"] },
    { kind := "slice", parts := ["elem"] },
    { kind := "ellipsis", parts := ["elem"] },
    { kind := "map", parts := ["key", "value"] },
    { kind := "star", parts := ["elem"] },
    { kind := "array", texts := ["len"], parts := ["elem"] },
    { kind := "chan", parts := ["elem"] },
    { kind := "func" }, { kind := "struct" }, { kind := "interface" }]

def Contents.row (c : Contents) : Row where
  kind := c.kind
  texts := c.texts.map Prod.fst
  parts := c.parts.map Prod.fst

theorem row_mem_layout (e : TypeExpr) : e.contents.row ∈ layout := by
  cases e <;> simp [contents, Contents.row, layout]

theorem eq_of_mem_layout : ∀ r ∈ layout, ∀ s ∈ layout, r.kind = s.kind → r = s := by decide

theorem KindOf.unique {other : String} (h : KindOf byNumber kind v)
    (hother : KindOf byNumber other v) : kind = other := by
  rcases h with rfl | ⟨-, n, rfl, hn⟩ <;> rcases hother with heq | ⟨-, m, heq, hm⟩
  · exact Json.string.inj heq
  · cases heq
  · cases heq
  · obtain rfl := Int.ofNat.inj (Json.int.inj heq)
    exact Option.some.inj (hn.symm.trans hm)

def Tells (byNumber : Bool) (members : List (String × Json)) (row : Row) : Prop :=
  row ∈ layout ∧ ∃ v, ("kind", v) ∈ members ∧ KindOf byNumber row.kind v

/-- What no type expression is written as: the kind, or a member that its kind knows, is missing or
has a wrong value, here or in a part. Kinds may be numbers inside another type expression, or not at
all. Nothing is said of an array that stands for an object. -/
inductive Flawed (byNumber : Bool) : Bool → Json → Prop where
  | mistyped {nested : Bool} {v : Json} (hobject : ∀ members, v ≠ .object members)
    (harray : ∀ items, v ≠ .array items) : Flawed byNumber nested v
  | unnamed {nested : Bool} {members : List (String × Json)} (h : Absent "kind" members) :
    Flawed byNumber nested (.object members)
  | unknown {nested : Bool} {members : List (String × Json)} {v : Json}
    (hv : ("kind", v) ∈ members) (h : ∀ row ∈ layout, ¬ KindOf (byNumber && nested) row.kind v) :
    Flawed byNumber nested (.object members)
  | missing {nested : Bool} {members : List (String × Json)} {row : Row} {key : String}
    (hrow : Tells (byNumber && nested) members row)
    (hkey : key ∈ row.texts ++ row.parts) (h : Absent key members) :
    Flawed byNumber nested (.object members)
  | text {nested : Bool} {members : List (String × Json)} {row : Row} {key : String} {v : Json}
    (hrow : Tells (byNumber && nested) members row) (hkey : key ∈ row.texts)
    (hv : (key, v) ∈ members) (h : NoText v) :
    Flawed byNumber nested (.object members)
  | part {nested : Bool} {members : List (String × Json)} {row : Row} {key : String} {v : Json}
    (hrow : Tells (byNumber && nested) members row) (hkey : key ∈ row.parts)
    (hv : (key, v) ∈ members) (h : Flawed byNumber true v) :
    Flawed byNumber nested (.object members)

theorem Tells.eq_row {row : Row} (h : Tells nested members row)
    (hkind : Required "kind" (KindOf nested e.contents.kind) members) : row = e.contents.row := by
  obtain ⟨hrow, v, hv, htold⟩ := h
  exact eq_of_mem_layout row hrow _ (row_mem_layout e) (htold.unique (hkind.of_mem hv))

theorem WrittenAs.not_flawed (h : WrittenAs nested e v) : ¬ Flawed true nested v := by
  induction h with
  | @object nested e members hkind htexts hpresent hparts ih =>
    intro hflawed
    -- only a flawed part needs the induction; every other flaw shows in these members
    cases hflawed with
    | mistyped hobject _ => exact hobject _ rfl
    | unnamed habsent => exact hkind.not_absent habsent
    | unknown hv hunknown => exact hunknown _ (row_mem_layout e) (hkind.of_mem hv)
    | missing hrow hkey habsent =>
      obtain rfl := hrow.eq_row hkind
      rcases List.mem_append.mp hkey with hkey | hkey
      · obtain ⟨t, ht, rfl⟩ := List.mem_map.mp hkey
        exact (htexts t ht).not_absent habsent
      · obtain ⟨p, hp, rfl⟩ := List.mem_map.mp hkey
        obtain ⟨v, honce⟩ := hpresent p hp
        exact not_absent_of_mem honce.mem habsent
    | text hrow hkey hv htext =>
      obtain rfl := hrow.eq_row hkind
      obtain ⟨t, ht, rfl⟩ := List.mem_map.mp hkey
      exact ((htexts t ht).of_mem hv).not_noText htext
    | part hrow hkey hv hpart =>
      obtain rfl := hrow.eq_row hkind
      obtain ⟨p, hp, rfl⟩ := List.mem_map.mp hkey
      exact ih p hp _ hv hpart

end ServiceLoom.TypeExpr

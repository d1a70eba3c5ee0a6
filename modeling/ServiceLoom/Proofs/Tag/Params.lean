import ServiceLoom.Proofs.Split
import ServiceLoom.Proofs.Tag.Grammar
import ServiceLoom.Proofs.Tag.Payload

/-!
# Parameter tags for several arguments

A tag that resolves is `@`, a name and perhaps one group, so it can stand in a list: what separates
the parts of a list is never found in it but inside its group. A token that gives such tags to named
arguments is therefore read back as it was written, names and tags.
-/

namespace ServiceLoom.Tag

open Brackets Split

/-! ## Names and tags in lists -/

/-- What valid names and tag names are written with. -/
def isNameChar (c : Char) : Bool := Text.isAsciiWord c || c == '_' || c == '.' || c == '-'

theorem graphic_of_isNameChar {c : Char} (h : isNameChar c = true) :
    0x20 < c.toNat ∧ c.toNat < 0x85 := by
  simp only [isNameChar, Text.isAsciiWord, Text.isAsciiLetter, Bool.or_eq_true, beq_iff_eq,
    Text.isAsciiUpper_iff, Text.isAsciiLower_iff, Text.isAsciiDigit_iff] at h
  rcases h with (((((h | h) | h) | rfl) | rfl) | rfl)
  · omega
  · omega
  · omega
  all_goals decide

theorem isBlank_of_isNameChar {c : Char} (h : isNameChar c = true) : Text.isBlank c = false :=
  Text.isBlank_of_graphic (graphic_of_isNameChar h).1 (graphic_of_isNameChar h).2

theorem plain_of_isNameChar {c : Char} (h : isNameChar c = true) : Plain c ∧ c ≠ ',' := by
  refine ⟨fun b => ⟨?_, ?_⟩, ?_⟩
  · rintro rfl
    cases b <;> exact absurd h (by decide)
  · rintro rfl
    cases b <;> exact absurd h (by decide)
  · rintro rfl
    exact absurd h (by decide)

theorem isNameChar_of_allowed {c : Char} (h : TagName.allowed c = true) : isNameChar c = true := by
  simp only [TagName.allowed, isNameChar, Bool.or_eq_true] at h ⊢
  tauto

theorem isNameChar_of_isName {name : String} (h : Payload.isName name = true) :
    ∀ c ∈ name.toList, isNameChar c = true := by
  unfold Payload.isName at h
  split at h
  · cases h
  · rename_i c cs hname
    rw [Bool.and_eq_true, List.all_eq_true] at h
    rw [hname, List.forall_mem_cons]
    refine ⟨?_, h.2⟩
    have hfirst := h.1
    simp only [isNameChar, Text.isAsciiWord, Bool.or_eq_true] at hfirst ⊢
    tauto

theorem part_of_isNameChar {s : List Char} (hne : s ≠ []) (h : ∀ c ∈ s, isNameChar c = true) :
    Part ',' s where
  toPiece := piece_of_plain fun c hc => plain_of_isNameChar (h c hc)
  ne_nil := hne
  trimmed := Text.trim_of_noBlank fun c hc => isBlank_of_isNameChar (h c hc)

/-- A tag token: `@`, a name, and nothing more or one group. -/
inductive Shaped : List Char → Prop
  | bare {name : List Char} (h : ∀ c ∈ name, TagName.allowed c = true) : Shaped ('@' :: name)
  | group {name inner : List Char} (h : ∀ c ∈ name, TagName.allowed c = true)
      (hgroup : Group inner) : Shaped ('@' :: (name ++ '(' :: (inner ++ [')'])))

theorem Invokes.shaped {name : String} {token : List Char} {text : Option String}
    (h : Invokes name token text) (hname : ∀ c ∈ name.toList, TagName.allowed c = true) :
    Shaped token := by
  have hspelling : ∀ {spelling : List Char}, Spells spelling name →
      ∀ c ∈ spelling, TagName.allowed c = true := by
    intro spelling hspells c hc
    have hlower : c.toLower ∈ name.toList.map Char.toLower := hspells ▸ List.mem_map_of_mem hc
    obtain ⟨d, hd, hdc⟩ := List.mem_map.mp hlower
    have := TagName.allowed_toLower (hname d hd)
    rw [hdc] at this
    exact TagName.allowed_of_toLower this
  cases h with
  | bare hspells => exact .bare (hspelling hspells)
  | group hspells hgroup => exact .group (hspelling hspells) hgroup

theorem Shaped.part {token : List Char} (h : Shaped token) : Part ',' token := by
  have hat : ∀ {name : List Char}, (∀ c ∈ name, TagName.allowed c = true) →
      (∀ c ∈ '@' :: name, Plain c ∧ c ≠ ',') ∧ ∀ c ∈ '@' :: name, Text.isBlank c = false := by
    intro name hname
    simp only [List.forall_mem_cons]
    exact ⟨⟨by decide, fun c hc => plain_of_isNameChar (isNameChar_of_allowed (hname c hc))⟩,
      by decide, fun c hc => isBlank_of_isNameChar (isNameChar_of_allowed (hname c hc))⟩
  cases h with
  | bare hname =>
    obtain ⟨hplain, hblank⟩ := hat hname
    exact ⟨piece_of_plain hplain, List.cons_ne_nil _ _, Text.trim_of_noBlank hblank⟩
  | @group name inner hname hgroup =>
    obtain ⟨hplain, hblank⟩ := hat hname
    have hgroup := part_enclose (group_iff_balanced.mp hgroup) .round
    refine ⟨(piece_of_plain hplain).append hgroup.toPiece, List.cons_ne_nil _ _, ?_⟩
    have htrim := Text.trim_append_append (Text.trim_of_noBlank hblank) hgroup.trimmed
      (List.cons_ne_nil '@' name) hgroup.ne_nil []
    rwa [List.append_nil] at htrim

/-! ## Names and tags together -/

def paramsToken (names : String) (tags : List String) : String :=
  "@params(" ++ names ++ ", (" ++ String.intercalate ", " tags ++ "))"

def nameList (names : List String) : String := "[" ++ String.intercalate ", " names ++ "]"

/-- The text stands for the names when parameter tags are given. -/
structure Lists (text : String) (names : List String) : Prop where
  part : Part ',' text.toList
  ne_nil : names ≠ []
  isName : ∀ name ∈ names, Payload.isName name = true
  listed : (Payload.between? '[' ']' text = none ∧ names = [text]) ∨
    ∃ inner, Payload.between? '[' ']' text = some inner ∧ names = onCommas inner

theorem part_of_isName {name : String} (h : Payload.isName name = true) : Part ',' name.toList := by
  refine part_of_isNameChar ?_ (isNameChar_of_isName h)
  intro hnil
  rw [Payload.isName, hnil] at h
  cases h

theorem lists_name {name : String} (h : Payload.isName name = true) : Lists name [name] where
  part := part_of_isName h
  ne_nil := List.cons_ne_nil name []
  isName := by simpa using h
  listed := by
    refine Or.inl ⟨?_, rfl⟩
    unfold Payload.between?
    split
    · rfl
    · rename_i c cs hname
      rw [if_neg]
      rintro ⟨rfl, _⟩
      exact absurd (isNameChar_of_isName h '[' (by simp [hname])) (by decide)

theorem lists_nameList {names : List String} (hne : names ≠ [])
    (h : ∀ name ∈ names, Payload.isName name = true) : Lists (nameList names) names := by
  have hparts : ∀ name ∈ names, Part ',' name.toList :=
    fun name hname => part_of_isName (h name hname)
  have htext : (nameList names).toList =
      '[' :: ((String.intercalate ", " names).toList ++ [']']) := by
    rw [nameList, String.toList_append, String.toList_append]
    rfl
  refine ⟨?_, hne, h, Or.inr ⟨_, Payload.between?_of_toList htext, ?_⟩⟩
  · exact part_of_enclosed (b := .square) htext fun name hname => (hparts name hname).balanced
  · exact (onCommas_intercalate hparts).symm

theorem Shaped.head? {token : List Char} (h : Shaped token) : token.head? = some '@' := by
  cases h <;> rfl

theorem map_withAt {tags : List String} (h : ∀ tag ∈ tags, Shaped tag.toList) :
    tags.map Payload.withAt = tags := by
  rw [List.map_congr_left fun tag htag => ?_, List.map_id]
  exact if_pos (h tag htag).head?

section Token

variable {text : String} {names tags : List String}

def tagsPart (tags : List String) : String := "(" ++ String.intercalate ", " tags ++ ")"

theorem toList_tagsPart (tags : List String) :
    (tagsPart tags).toList = '(' :: ((String.intercalate ", " tags).toList ++ [')']) := by
  rw [tagsPart, String.toList_append, String.toList_append]
  rfl

theorem part_tagsPart (htags : ∀ tag ∈ tags, Shaped tag.toList) :
    Part ',' (tagsPart tags).toList :=
  part_of_enclosed (b := .round) (toList_tagsPart tags) fun tag htag =>
    (htags tag htag).part.balanced

/-- The payload of such a token. -/
def paramsPayload (text : String) (tags : List String) : String :=
  String.intercalate ", " [text, tagsPart tags]

theorem parts_paramsPayload (htext : Lists text names) (htags : ∀ tag ∈ tags, Shaped tag.toList) :
    ∀ part ∈ [text, tagsPart tags], Part ',' part.toList := by
  rw [List.forall_mem_cons, List.forall_mem_singleton]
  exact ⟨htext.part, part_tagsPart htags⟩

theorem params_paramsPayload (htext : Lists text names) (hne : tags ≠ [])
    (htags : ∀ tag ∈ tags, Shaped tag.toList) :
    Payload.params (some (paramsPayload text tags)) = .ok ⟨names, tags⟩ := by
  have hnames : Payload.names (some (paramsPayload text tags)) = [text, tagsPart tags] := by
    rw [Payload.names, Option.getD_some, paramsPayload,
      onCommas_intercalate (parts_paramsPayload htext htags)]
  have htagsPart := Payload.between?_of_toList (toList_tagsPart tags)
  have hcut : (onCommas (String.intercalate ", " tags)).map Payload.withAt = tags := by
    rw [onCommas_intercalate fun tag htag => (htags tag htag).part, map_withAt htags]
  have hvalid := Payload.mapM_validName htext.isName
  -- both lists have a first element, so neither check for an empty one is met
  obtain ⟨name, more, rfl⟩ := List.exists_cons_of_ne_nil htext.ne_nil
  obtain ⟨tag, others, rfl⟩ := List.exists_cons_of_ne_nil hne
  rw [Payload.params, hnames]
  rcases htext.listed with ⟨hlisted, hone⟩ | ⟨inner, hlisted, hone⟩
  · simp only [hlisted, ← hone, hvalid, htagsPart, hcut]
    rfl
  · simp only [hlisted, ← hone, hvalid, htagsPart, hcut]
    rfl

theorem paramsPayload_eq (text : String) (tags : List String) :
    paramsPayload text tags = text ++ ", " ++ tagsPart tags := rfl

theorem toList_paramsToken (text : String) (tags : List String) :
    (paramsToken text tags).toList =
      '@' :: ("params".toList ++ '(' :: ((paramsPayload text tags).toList ++ [')'])) := by
  simp only [paramsToken, paramsPayload_eq, tagsPart, String.toList_append, List.append_assoc]
  rfl

theorem invokes_paramsToken (htext : Lists text names)
    (htags : ∀ tag ∈ tags, Shaped tag.toList) :
    Invokes "params" (paramsToken text tags).toList (some (paramsPayload text tags)) := by
  have hparts := parts_paramsPayload htext htags
  have hbalanced : Balanced (paramsPayload text tags).toList :=
    balanced_commaList fun part hpart => (hparts part hpart).balanced
  have htrim : Text.trim (paramsPayload text tags).toList = (paramsPayload text tags).toList := by
    have hlast := part_tagsPart htags
    rw [paramsPayload_eq, String.toList_append, String.toList_append]
    exact Text.trim_append_append htext.part.trimmed hlast.trimmed htext.part.ne_nil hlast.ne_nil _
  have hspells : Spells "params".toList "params" := rfl
  have hinvokes := Invokes.group hspells (group_iff_balanced.mpr hbalanced)
  rwa [htrim, String.ofList_toList, ← toList_paramsToken] at hinvokes

end Token

end ServiceLoom.Tag

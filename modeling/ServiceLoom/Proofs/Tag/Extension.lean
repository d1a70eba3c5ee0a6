import ServiceLoom.Proofs.Tag.LongestMatch
import ServiceLoom.Proofs.Tag.Registration

/-!
# Resolution under more names

A token that resolves has nothing or an opening parenthesis after its name. No valid name contains a
parenthesis, so no name at all is spelled longer there, and two settled names of one length that are
spelled at one token are equal. Names that are new to both pools are therefore spelled shorter, and
the token keeps its pool, its name and its payload.
-/

namespace ServiceLoom.Tag

theorem Spelled.parts {name : String} {token : List Char} (h : Spelled name token) :
    ∃ spelling rest, token = '@' :: (spelling ++ rest) ∧ spelling.length = name.length ∧
      spelling.map Char.toLower = name.toList.map Char.toLower := by
  obtain ⟨_, body, rfl, hfold⟩ := h
  obtain ⟨spelling, rest, rfl, hspelling⟩ := Text.startsWithFold_iff.mp hfold
  have hlength := congrArg List.length hspelling
  simp only [List.length_map, String.length_toList] at hlength
  exact ⟨spelling, rest, rfl, hlength, hspelling⟩

theorem length_le_of_spelled {name other : String} {token : List Char} (hname : Spelled name token)
    (hend : ∀ c ∈ (token.drop (name.length + 1)).head?, c = '(') (hother : Spelled other token)
    (hallowed : ∀ c ∈ other.toList, TagName.allowed c = true) : other.length ≤ name.length := by
  obtain ⟨spelling, rest, rfl, hlength, _⟩ := hname.parts
  obtain ⟨spelling', rest', htoken, hlength', hfold⟩ := hother.parts
  rw [← hlength, List.drop_succ_cons, List.drop_left] at hend
  apply Nat.le_of_not_lt
  intro hlt
  have hsplit := List.append_eq_append_iff.mp (List.cons.inj htoken).2
  rcases hsplit with ⟨more, hmore, hrest⟩ | ⟨more, hmore, _⟩
  · cases more with
    | nil =>
      have := congrArg List.length hmore
      simp only [List.append_nil] at this
      omega
    | cons c more =>
      have hc : c = '(' := hend c (by rw [hrest]; rfl)
      have hmem : '(' ∈ other.toList.map Char.toLower := by
        rw [← hfold, hmore, hc]
        simp
      obtain ⟨d, hd, hlower⟩ := List.mem_map.mp hmem
      have hd := hallowed d hd
      rw [Text.eq_of_toLower_eq (by decide) hlower] at hd
      exact absurd hd (by decide)
  · have := congrArg List.length hmore
    simp only [List.length_append] at this
    omega

theorem lowerAscii_eq_of_spelled {a b : String} {token : List Char} (ha : Spelled a token)
    (hb : Spelled b token) (hlength : a.length = b.length) :
    Text.lowerAscii a = Text.lowerAscii b := by
  obtain ⟨spelling, rest, rfl, hla, hfa⟩ := ha.parts
  obtain ⟨spelling', rest', htoken, hlb, hfb⟩ := hb.parts
  have hsame := (List.append_inj (List.cons.inj htoken).2 (by omega)).1
  rw [← String.toList_inj, Text.toList_lowerAscii, Text.toList_lowerAscii, ← hfa, ← hfb, hsame]

theorem head_of_payload {rest : List Char} {text : Option String} (h : payload rest = .ok text) :
    ∀ c ∈ rest.head?, c = '(' := by
  unfold payload at h
  split at h
  · simp
  · simp
  · cases h

theorem resolve_eq_ok_iff {token : String} {builtin custom : List String} {tag : Resolved} :
    resolve token builtin custom = .ok tag ↔
      choose token.toList builtin custom = .ok (tag.pool, tag.name) ∧
        payload (token.toList.drop (tag.name.length + 1)) = .ok tag.payload := by
  unfold resolve
  rw [bind_eq_ok_iff]
  constructor
  · rintro ⟨⟨pool, name⟩, hchoose, h⟩
    cases hpayload : payload (token.toList.drop (name.length + 1)) with
    | error cause =>
      simp only [hpayload] at h
      cases h
    | ok text =>
      simp only [hpayload] at h
      cases h
      exact ⟨hchoose, hpayload⟩
  · rintro ⟨hchoose, hpayload⟩
    refine ⟨_, hchoose, ?_⟩
    simp only [hpayload]
    rfl

theorem spelled_of_choose {token : List Char} {builtin custom : List String} {pool : Pool}
    {name : String} (h : choose token builtin custom = .ok (pool, name)) :
    Spelled name token ∧ (name ∈ builtin ∨ name ∈ custom) := by
  have hmem : ∀ {names : List String}, longestMatch? token names = some name →
      name ∈ names ∧ Spelled name token := by
    intro names hlongest
    rw [longestMatch?_eq] at hlongest
    exact mem_matching_iff.mp (mem_and_le_of_longest? hlongest).1
  cases pool with
  | builtin =>
    obtain ⟨hin, hspelled⟩ := hmem (choose_eq_ok_iff.mp h).1
    exact ⟨hspelled, Or.inl hin⟩
  | custom =>
    obtain ⟨hin, hspelled⟩ := hmem (choose_eq_ok_iff.mp h).1
    exact ⟨hspelled, Or.inr hin⟩

theorem resolve_append {token : String} {builtin old new : List String} {tag : Resolved}
    (hbuiltin : ∀ name ∈ builtin, TagName.Settled name)
    (hsettled : ∀ name ∈ old ++ new, TagName.Settled name) (hnodup : (old ++ new).Nodup)
    (hfresh : ∀ name ∈ old ++ new, name ∉ builtin)
    (h : resolve token builtin old = .ok tag) : resolve token builtin (old ++ new) = .ok tag := by
  obtain ⟨hchoose, hpayload⟩ := resolve_eq_ok_iff.mp h
  obtain ⟨hspelled, hname⟩ := spelled_of_choose hchoose
  have hown : TagName.Settled tag.name := by
    rcases hname with hname | hname
    · exact hbuiltin _ hname
    · exact hsettled _ (List.mem_append_left _ hname)
  have hshort : ∀ x ∈ matching token.toList new, x.length < tag.name.length := by
    intro x hx
    obtain ⟨hxnew, hxspelled⟩ := mem_matching_iff.mp hx
    have hxsettled := hsettled x (List.mem_append_right _ hxnew)
    have hle :=
      length_le_of_spelled hspelled (head_of_payload hpayload) hxspelled hxsettled.allowed
    apply Nat.lt_of_le_of_ne hle
    intro heq
    have hsame : x = tag.name := by
      rw [← hxsettled.lower, ← hown.lower]
      exact lowerAscii_eq_of_spelled hxspelled hspelled heq
    rcases hname with hname | hname
    · exact hfresh x (List.mem_append_right _ hxnew) (hsame ▸ hname)
    · exact (List.nodup_append.mp hnodup).2.2 _ hname _ hxnew hsame.symm
  refine resolve_eq_ok_iff.mpr ⟨choose_eq_ok_iff.mpr ?_, hpayload⟩
  have hold := choose_eq_ok_iff.mp hchoose
  cases hpool : tag.pool with
  | builtin =>
    rw [hpool] at hold
    refine ⟨hold.1, ?_⟩
    rw [matching_append]
    intro x hx
    rcases List.mem_append.mp hx with hx | hx
    · exact hold.2 x hx
    · exact hshort x hx
  | custom =>
    rw [hpool] at hold
    have hlongest := hold.1
    rw [longestMatch?_eq] at hlongest
    refine ⟨?_, hold.2⟩
    rw [longestMatch?_eq, matching_append]
    exact longest?_append_of_shorter hlongest hshort

theorem settled_of_mem_service : ∀ name ∈ ServiceTag.names, TagName.Settled name := by decide

theorem settled_of_mem_method : ∀ name ∈ MethodTag.names, TagName.Settled name := by decide

theorem settled_of_mem_param : ∀ name ∈ ParamTag.names, TagName.Settled name := by decide

end ServiceLoom.Tag

namespace ServiceLoom.TagTable

variable {α : Type}

theorem Sound.resolve_append {builtin : List String} {old new : TagTable α}
    (hbuiltin : ∀ name ∈ builtin, TagName.Settled name) (hs : (old ++ new).Sound builtin)
    {token : String} {tag : Tag.Resolved} (h : Tag.resolve token builtin old.names = .ok tag) :
    Tag.resolve token builtin (old ++ new).names = .ok tag := by
  rw [names_append]
  apply Tag.resolve_append hbuiltin _ _ _ h
  · exact fun name hname => hs.settled name (by rwa [names_append])
  · rw [← names_append]
    exact hs.nodup
  · exact fun name hname => hs.fresh name (by rwa [names_append])

end ServiceLoom.TagTable

import ServiceLoom.Proofs.Brackets
import ServiceLoom.Proofs.Results
import ServiceLoom.Tag.Payload

/-!
# What readers of payloads let through

A reader that returns a value has checked it: names are valid, verbs are among the accepted ones,
and a path is absolute, without blanks and balanced.
-/

namespace ServiceLoom.Tag.Payload

structure IsPath (path : String) : Prop where
  absolute : path.toList.head? = some '/'
  noBlank : ∀ c ∈ path.toList, Text.isBlank c = false
  balanced : Brackets.Balanced path.toList

theorem isPath_of_path {payload : Option String} {text : String}
    (h : path payload = .ok text) : IsPath text := by
  unfold path at h
  dsimp only at h
  split at h
  · cases h
  · rename_i habsolute
    split at h
    · cases h
    · rename_i hblank
      split at h
      · cases h
      · rename_i hbalanced
        obtain rfl := Except.ok.inj h
        rw [Decidable.not_not] at habsolute
        refine ⟨by rwa [String.toList_ofList], ?_, ?_⟩
        · intro c hc
          rw [String.toList_ofList] at hc
          exact Bool.eq_false_iff.mpr fun hc' => hblank (List.any_eq_true.mpr ⟨c, hc, hc'⟩)
        · rw [String.toList_ofList]
          exact Brackets.check_eq_ok_iff.mp hbalanced

theorem validName_eq_ok_iff {text name : String} :
    validName text = .ok name ↔ isName text = true ∧ name = text := by
  unfold validName
  by_cases h : isName text = true
  · rw [if_pos h]
    exact ⟨fun hname => ⟨h, (Except.ok.inj hname).symm⟩, fun hname => by rw [hname.2]⟩
  · simp [h]

theorem mapM_validName {names : List String} (h : ∀ name ∈ names, isName name = true) :
    names.mapM validName = .ok names := by
  induction names with
  | nil => rfl
  | cons name names ih =>
    rw [List.forall_mem_cons] at h
    rw [List.mapM_cons, validName, if_pos h.1, ih h.2]
    rfl

theorem isName_of_singleName {payload : Option String} {name : String}
    (h : singleName payload = .ok name) : isName name = true := by
  unfold singleName at h
  split at h
  · cases h
  · obtain ⟨hname, rfl⟩ := validName_eq_ok_iff.mp h
    exact hname
  · cases h

theorem mem_httpVerbs_of_verb {payload : Option String} {name : String}
    (h : verb payload = .ok name) : name ∈ httpVerbs := by
  obtain ⟨text, _, h⟩ := bind_eq_ok_iff.mp h
  dsimp only at h
  split at h
  · rename_i hverb
    obtain rfl := Except.ok.inj h
    exact hverb
  · cases h

theorem isName_of_aliasName {payload : Option String} {new : Alias}
    (h : aliasName payload = .ok new) :
    match new with
    | .own name => isName name = true
    | .field _ name => isName name = true := by
  unfold aliasName at h
  split at h
  · obtain ⟨name, hname, h⟩ := bind_eq_ok_iff.mp h
    obtain rfl := Except.ok.inj h
    obtain ⟨hname, rfl⟩ := validName_eq_ok_iff.mp hname
    exact hname
  · obtain ⟨_, _, h⟩ := bind_eq_ok_iff.mp h
    obtain ⟨name, hname, h⟩ := bind_eq_ok_iff.mp h
    obtain rfl := Except.ok.inj h
    obtain ⟨hname, rfl⟩ := validName_eq_ok_iff.mp hname
    exact hname
  · cases h

theorem between?_of_toList {first last : Char} {text inner : String}
    (h : text.toList = first :: (inner.toList ++ [last])) :
    between? first last text = some inner := by
  simp [between?, h]

theorem names_eq_of_someNames {payload : Option String} {texts : List String}
    (h : someNames payload = .ok texts) : texts = names payload := by
  unfold someNames at h
  split at h
  · cases h
  · exact (Except.ok.inj h).symm

end ServiceLoom.Tag.Payload

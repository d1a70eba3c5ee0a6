import Mathlib.Algebra.GroupWithZero.Nat
import ServiceLoom.Json.Outline

/-!
# Null members in outlines

A null member prints nothing, but whether an object is empty is asked before its null members are
left out: an object that has only null members is announced and nothing follows, while an empty one
is written as its brackets. Apart from these brackets a value and what is left of it without its
null members have the same lines. The members of an object are put in order first, and it makes no
difference whether null members are left out before or after that.
-/

namespace ServiceLoom.Json

variable {v w : Json} {members : List (String × Json)}

mutual

/-- The value without the null members of its objects, at every depth. Null items stay. -/
def withoutNulls : Json → Json
  | array items => array (itemsWithoutNulls items)
  | object members => object (membersWithoutNulls members)
  | null => null
  | bool b => bool b
  | int n => int n
  | double x => double x
  | string s => string s

def itemsWithoutNulls : List Json → List Json
  | [] => []
  | item :: items => item.withoutNulls :: itemsWithoutNulls items

def membersWithoutNulls : List (String × Json) → List (String × Json)
  | [] => []
  | (key, value) :: members =>
    if value.isNull then membersWithoutNulls members
    else (key, value.withoutNulls) :: membersWithoutNulls members

end

mutual

def inner : Json → List Json
  | array items => innerOfItems items
  | object members => innerOfMembers members
  | null | bool _ | int _ | double _ | string _ => []

def innerOfItems : List Json → List Json
  | [] => []
  | item :: items => item :: (item.inner ++ innerOfItems items)

def innerOfMembers : List (String × Json) → List Json
  | [] => []
  | (_, value) :: members => value :: (value.inner ++ innerOfMembers members)

end

def isHollow : Json → Bool
  | object members => !members.isEmpty && members.all (·.2.isNull)
  | _ => false

/-! ## Values and what is in them -/

def children : Json → List Json
  | array items => items
  | object members => members.map Prod.snd
  | _ => []

theorem sizeOf_lt_of_mem_children (h : w ∈ v.children) : sizeOf w < sizeOf v := by
  cases v with
  | array items =>
    have := List.sizeOf_lt_of_mem (show w ∈ items from h)
    simp only [array.sizeOf_spec]
    omega
  | object members =>
    obtain ⟨⟨key, value⟩, hm, rfl⟩ := List.mem_map.mp h
    have := List.sizeOf_lt_of_mem hm
    simp only [object.sizeOf_spec, Prod.mk.sizeOf_spec] at this ⊢
    omega
  | _ => cases h

theorem inductionOnChildren {P : Json → Prop} (h : ∀ v : Json, (∀ w ∈ v.children, P w) → P v)
    (v : Json) : P v := by
  induction v using (measure (sizeOf : Json → Nat)).wf.induction with
  | h v ih => exact h v fun w hw => ih w (sizeOf_lt_of_mem_children hw)

theorem itemsWithoutNulls_eq (items : List Json) :
    itemsWithoutNulls items = items.map withoutNulls := by
  induction items with
  | nil => rfl
  | cons item items ih => rw [itemsWithoutNulls, ih, List.map_cons]

theorem membersWithoutNulls_eq (members : List (String × Json)) :
    membersWithoutNulls members =
      (members.filter (!·.2.isNull)).map (Prod.map id withoutNulls) := by
  induction members with
  | nil => rfl
  | cons m members ih =>
    obtain ⟨key, value⟩ := m
    rw [membersWithoutNulls, ih]
    cases h : value.isNull <;> simp [h]

theorem innerOfItems_eq (items : List Json) :
    innerOfItems items = items.flatMap fun w => w :: w.inner := by
  induction items with
  | nil => rfl
  | cons item items ih => rw [innerOfItems, ih, List.flatMap_cons, List.cons_append]

theorem innerOfMembers_eq (members : List (String × Json)) :
    innerOfMembers members = (members.map Prod.snd).flatMap fun w => w :: w.inner := by
  induction members with
  | nil => rfl
  | cons m members ih =>
    rw [innerOfMembers, ih, List.map_cons, List.flatMap_cons, List.cons_append]

theorem inner_eq (v : Json) : v.inner = v.children.flatMap fun w => w :: w.inner := by
  cases v with
  | array items => exact innerOfItems_eq items
  | object members => exact innerOfMembers_eq members
  | _ => rfl

/-- The hollow objects among the value and all that is in it. -/
def hollows (v : Json) : Nat := (v :: v.inner).countP isHollow

theorem countP_inner (v : Json) : v.inner.countP isHollow = (v.children.map hollows).sum := by
  rw [inner_eq, List.countP_flatMap]
  rfl

theorem hollows_eq (v : Json) :
    v.hollows = (v.children.map hollows).sum + if v.isHollow then 1 else 0 := by
  rw [hollows, List.countP_cons, countP_inner]

/-! ## Order of keys -/

theorem perm_insertMember (m : String × Json) (members : List (String × Json)) :
    (insertMember m members).Perm (m :: members) := by
  induction members with
  | nil => exact .refl _
  | cons n rest ih =>
    unfold insertMember
    split
    · exact (ih.cons n).trans (.swap m n rest)
    · exact .refl _

theorem perm_sortMembers (members : List (String × Json)) :
    (sortMembers members).Perm members := by
  induction members with
  | nil => exact .refl _
  | cons m rest ih => exact (perm_insertMember m _).trans (ih.cons m)

def Ordered (members : List (String × Json)) : Prop :=
  members.Pairwise fun m n => ¬ n.1 < m.1

theorem not_lt_trans {a b c : String} (hab : ¬ b < a) (hbc : ¬ c < b) : ¬ c < a :=
  String.not_lt.mpr (String.le_trans (String.not_lt.mp hab) (String.not_lt.mp hbc))

theorem ordered_insertMember (h : Ordered members) (m : String × Json) :
    Ordered (insertMember m members) := by
  induction members with
  | nil => exact List.pairwise_singleton _ _
  | cons n rest ih =>
    obtain ⟨hn, hrest⟩ := List.pairwise_cons.mp h
    unfold insertMember
    split
    · rename_i hlt
      refine List.pairwise_cons.mpr ⟨fun x hx => ?_, ih hrest⟩
      rcases List.mem_cons.mp ((perm_insertMember m rest).mem_iff.mp hx) with rfl | hx
      · exact fun hm => String.lt_irrefl _ (String.lt_trans hlt hm)
      · exact hn x hx
    · rename_i hlt
      refine List.pairwise_cons.mpr ⟨fun x hx => ?_, h⟩
      rcases List.mem_cons.mp hx with rfl | hx
      · exact hlt
      · exact not_lt_trans hlt (hn x hx)

theorem ordered_sortMembers (members : List (String × Json)) : Ordered (sortMembers members) := by
  induction members with
  | nil => exact List.Pairwise.nil
  | cons m rest ih => exact ordered_insertMember ih m

theorem insertMember_of_le {m : String × Json} (h : ∀ n ∈ members, ¬ n.1 < m.1) :
    insertMember m members = m :: members := by
  cases members with
  | nil => rfl
  | cons n rest => exact if_neg (h n List.mem_cons_self)

/-- Members that are left out later may as well be left out before. -/
theorem filter_insertMember (h : Ordered members) (p : String × Json → Bool)
    (m : String × Json) : (insertMember m members).filter p =
      if p m then insertMember m (members.filter p) else members.filter p := by
  induction members with
  | nil => simp [insertMember, List.filter_cons]
  | cons n rest ih =>
    obtain ⟨hn, hrest⟩ := List.pairwise_cons.mp h
    rw [insertMember]
    split
    · rename_i hlt
      rw [List.filter_cons, ih hrest]
      by_cases hpn : p n
      · by_cases hpm : p m <;> simp [hpn, hpm, insertMember, hlt]
      · simp [hpn]
    · rename_i hlt
      rw [List.filter_cons]
      split
      · refine (insertMember_of_le ?_).symm
        intro x hx
        rcases List.mem_cons.mp (List.mem_filter.mp hx).1 with rfl | hx
        · exact hlt
        · exact not_lt_trans hlt (hn x hx)
      · rfl

theorem filter_sortMembers (p : String × Json → Bool) (members : List (String × Json)) :
    (sortMembers members).filter p = sortMembers (members.filter p) := by
  induction members with
  | nil => rfl
  | cons m rest ih =>
    have hstep := filter_insertMember (ordered_sortMembers rest) p m
    rw [ih] at hstep
    change (insertMember m (sortMembers rest)).filter p = _
    rw [hstep, List.filter_cons]
    split <;> rfl

theorem sortMembers_map (f : Json → Json) (members : List (String × Json)) :
    sortMembers (members.map (Prod.map id f)) = (sortMembers members).map (Prod.map id f) := by
  have hinsert : ∀ m members, insertMember (Prod.map id f m) (members.map (Prod.map id f)) =
      (insertMember m members).map (Prod.map id f) := by
    intro m members
    induction members with
    | nil => rfl
    | cons n rest ih =>
      unfold insertMember
      rw [List.map_cons]
      dsimp only [Prod.map_fst, id_eq]
      split
      · rw [List.map_cons, ih]
      · rfl
  induction members with
  | nil => rfl
  | cons m rest ih =>
    change insertMember (Prod.map id f m) (sortMembers (rest.map (Prod.map id f))) = _
    rw [ih, hinsert]
    rfl

/-! ## The two orders of work -/

theorem sortItems_eq (items : List Json) : sortItems items = items.map sortKeys := by
  induction items with
  | nil => rfl
  | cons item items ih => rw [sortItems, ih, List.map_cons]

theorem sortValues_eq (members : List (String × Json)) :
    sortValues members = members.map (Prod.map id sortKeys) := by
  induction members with
  | nil => rfl
  | cons m members ih => rw [sortValues, ih, List.map_cons, Prod.map, id]

@[simp] theorem isNull_sortKeys (v : Json) : v.sortKeys.isNull = v.isNull := by
  cases v <;> rfl

/-- Leaving out null members and putting members in order do not get in each other's way. -/
theorem sortKeys_withoutNulls (v : Json) : v.withoutNulls.sortKeys = v.sortKeys.withoutNulls := by
  induction v using inductionOnChildren with
  | h v ih =>
    cases v with
    | array items =>
      simp only [withoutNulls, sortKeys, sortItems_eq, itemsWithoutNulls_eq, List.map_map]
      exact congrArg array (List.map_congr_left ih)
    | object members =>
      have hvalues : ∀ m ∈ members,
          Prod.map id sortKeys (Prod.map id withoutNulls m) =
            Prod.map id withoutNulls (Prod.map id sortKeys m) := by
        intro m hm
        exact congrArg (Prod.mk m.1) (ih m.2 (List.mem_map_of_mem hm))
      simp only [withoutNulls, sortKeys, sortValues_eq, membersWithoutNulls_eq, filter_sortMembers,
        List.filter_map, ← sortMembers_map, List.map_map]
      congr 2
      simp only [Function.comp_def, Prod.map_snd, isNull_sortKeys]
      exact List.map_congr_left fun m hm => hvalues m (List.mem_filter.mp hm).1
    | _ => rfl

theorem perm_children_sortKeys (v : Json) :
    v.sortKeys.children.Perm (v.children.map sortKeys) := by
  cases v with
  | array items =>
    rw [sortKeys, sortItems_eq]
    exact .refl _
  | object members =>
    rw [sortKeys, sortValues_eq]
    have hperm := (perm_sortMembers (members.map (Prod.map id sortKeys))).map Prod.snd
    simpa [children, Function.comp_def] using hperm
  | _ => exact .refl _

theorem isHollow_sortKeys (v : Json) : v.sortKeys.isHollow = v.isHollow := by
  cases v with
  | object members =>
    have hperm := perm_sortMembers (sortValues members)
    rw [sortKeys, isHollow, isHollow, hperm.isEmpty_eq, hperm.all_eq, sortValues_eq]
    simp [Function.comp_def]
  | _ => rfl

theorem hollows_sortKeys (v : Json) : v.sortKeys.hollows = v.hollows := by
  induction v using inductionOnChildren with
  | h v ih =>
    rw [hollows_eq, hollows_eq, isHollow_sortKeys, ((perm_children_sortKeys v).map hollows).sum_nat,
      List.map_map]
    exact congrArg (List.sum · + _) (List.map_congr_left ih)

/-! ## Lines -/

/-- The same lines, but for `n` of them that have got the brackets of an empty object. -/
inductive Bracketed : Nat → List String → List String → Prop
  | nil : Bracketed 0 [] []
  | same {n : Nat} {lines other : List String} (line : String) (h : Bracketed n lines other) :
    Bracketed n (line :: lines) (line :: other)
  | marked {n : Nat} {lines other : List String} (line : String) (h : Bracketed n lines other) :
    Bracketed (n + 1) (line :: lines) ((line ++ " \x7b\x7d") :: other)

namespace Bracketed

variable {n k : Nat} {lines other more others : List String}

theorem refl (lines : List String) : Bracketed 0 lines lines := by
  induction lines with
  | nil => exact .nil
  | cons line lines ih => exact .same line ih

theorem append (h : Bracketed n lines other) (hmore : Bracketed k more others) :
    Bracketed (n + k) (lines ++ more) (other ++ others) := by
  induction h with
  | nil => rwa [Nat.zero_add]
  | same line _ ih => exact .same line ih
  | marked line _ ih =>
    rw [Nat.add_right_comm]
    exact .marked line ih

theorem flatMap {α : Type} {items : List α} {count : α → Nat} {print reprint : α → List String}
    (h : ∀ item ∈ items, Bracketed (count item) (print item) (reprint item)) :
    Bracketed (items.map count).sum (items.flatMap print) (items.flatMap reprint) := by
  induction items with
  | nil => exact .nil
  | cons item items ih =>
    rw [List.forall_mem_cons] at h
    rw [List.map_cons, List.sum_cons, List.flatMap_cons, List.flatMap_cons]
    exact h.1.append (ih h.2)

theorem eq_nil_iff (h : Bracketed n lines other) : lines = [] ↔ other = [] := by
  cases h <;> simp

theorem eq_of_zero (h : Bracketed n lines other) (hn : n = 0) : other = lines := by
  induction h with
  | nil => rfl
  | same line _ ih => rw [ih hn]
  | marked line _ _ => cases hn

theorem length_intercalate (h : Bracketed n lines other) (sep : String) :
    (sep.intercalate other).length = (sep.intercalate lines).length + 3 * n := by
  induction h with
  | nil => rfl
  | same line h ih =>
    rename_i lines other
    by_cases hnil : lines = []
    · obtain rfl := hnil
      obtain rfl := h.eq_nil_iff.mp rfl
      rw [String.intercalate_nil] at ih
      rw [String.intercalate_singleton]
      omega
    · rw [String.intercalate_cons_of_ne_nil hnil,
        String.intercalate_cons_of_ne_nil (mt h.eq_nil_iff.mpr hnil)]
      simp only [String.length_append]
      omega
  | marked line h ih =>
    rename_i lines other
    have hmark : (" \x7b\x7d" : String).length = 3 := rfl
    by_cases hnil : lines = []
    · obtain rfl := hnil
      obtain rfl := h.eq_nil_iff.mp rfl
      rw [String.intercalate_singleton, String.intercalate_singleton, String.length_append]
      rw [String.intercalate_nil] at ih
      omega
    · rw [String.intercalate_cons_of_ne_nil hnil,
        String.intercalate_cons_of_ne_nil (mt h.eq_nil_iff.mpr hnil)]
      simp only [String.length_append]
      omega

end Bracketed

def entryLines (lead : String) (level : Nat) (v : Json) : List String :=
  match inline? v with
  | some text => [lead ++ " " ++ text]
  | none => lead :: v.outlineLines level

theorem outlineItems_eq (level : Nat) (items : List Json) :
    outlineItems level items = items.flatMap (entryLines (padding level ++ "-") (level + 1)) := by
  induction items with
  | nil => rfl
  | cons item items ih =>
    rw [outlineItems, ih, List.flatMap_cons]
    congr 1
    unfold entryLines
    cases inline? item with
    | some text =>
      simp only [String.append_assoc]
      rfl
    | none => rfl

theorem outlineMembers_eq (level : Nat) (members : List (String × Json)) :
    outlineMembers level members = (members.filter (!·.2.isNull)).flatMap fun m =>
      entryLines (padding level ++ m.1 ++ ":") (level + 1) m.2 := by
  induction members with
  | nil => rfl
  | cons m members ih =>
    obtain ⟨key, value⟩ := m
    rw [outlineMembers, ih, List.filter_cons]
    cases hnull : value.isNull with
    | true => simp
    | false =>
      simp only [Bool.not_false, if_true, List.flatMap_cons, Bool.false_eq_true, if_false]
      congr 1
      unfold entryLines
      cases inline? value with
      | some text =>
        simp only [String.append_assoc]
        rfl
      | none => rfl

@[simp] theorem isNull_withoutNulls (v : Json) : v.withoutNulls.isNull = v.isNull := by
  cases v <;> rfl

theorem isHollow_object_iff : (object members).isHollow = true ↔
    members ≠ [] ∧ membersWithoutNulls members = [] := by
  simp [isHollow, membersWithoutNulls_eq, List.filter_eq_nil_iff]

/-- The brackets of an object that is left with nothing are the only difference. -/
theorem bracketed_entryLines (lead : String) {level : Nat}
    (h : Bracketed (v.inner.countP isHollow) (v.outlineLines level)
      (v.withoutNulls.outlineLines level)) :
    Bracketed v.hollows (entryLines lead level v) (entryLines lead level v.withoutNulls) := by
  rw [hollows, List.countP_cons]
  cases v with
  | array items =>
    cases items with
    | nil => exact .refl _
    | cons item items => exact .same lead h
  | object members =>
    by_cases hhollow : (object members).isHollow = true
    · obtain ⟨hmembers, hnone⟩ := isHollow_object_iff.mp hhollow
      obtain ⟨m, rest, rfl⟩ := List.exists_cons_of_ne_nil hmembers
      rw [if_pos hhollow]
      rw [withoutNulls, hnone] at h ⊢
      have hline : lead ++ " " ++ "\x7b\x7d" = lead ++ " \x7b\x7d" := String.append_assoc
      have hmarked := Bracketed.marked lead h
      rwa [← hline] at hmarked
    · rw [if_neg hhollow]
      rw [isHollow_object_iff, not_and] at hhollow
      cases members with
      | nil => exact .refl _
      | cons m rest =>
        obtain ⟨n, others, hleft⟩ :=
          List.exists_cons_of_ne_nil (hhollow (List.cons_ne_nil m rest))
        rw [withoutNulls, hleft] at h ⊢
        exact .same lead h
  | _ => exact .refl _

theorem sum_hollows_filter (members : List (String × Json)) :
    ((members.filter (!·.2.isNull)).map fun m => m.2.hollows).sum =
      (members.map fun m => m.2.hollows).sum := by
  induction members with
  | nil => rfl
  | cons m members ih =>
    obtain ⟨key, value⟩ := m
    rw [List.map_cons, List.sum_cons, ← ih]
    cases value with
    | null => exact (Nat.zero_add _).symm
    | _ => rfl

theorem bracketed_outlineLines (v : Json) (level : Nat) :
    Bracketed (v.inner.countP isHollow) (v.outlineLines level)
      (v.withoutNulls.outlineLines level) := by
  induction v using inductionOnChildren generalizing level with
  | h v ih =>
    cases v with
    | array items =>
      rw [countP_inner, withoutNulls, outlineLines, outlineLines, itemsWithoutNulls_eq,
        outlineItems_eq, outlineItems_eq, List.flatMap_map]
      exact .flatMap fun item hitem => bracketed_entryLines _ (ih item hitem (level + 1))
    | object members =>
      have hcount : ((object members).children.map hollows).sum =
          ((members.filter (!·.2.isNull)).map fun m => m.2.hollows).sum := by
        rw [sum_hollows_filter, children, List.map_map]
        rfl
      have hkept : (membersWithoutNulls members).filter (!·.2.isNull) =
          (members.filter (!·.2.isNull)).map (Prod.map id withoutNulls) := by
        rw [membersWithoutNulls_eq, List.filter_map]
        simp [Function.comp_def]
      rw [countP_inner, hcount, withoutNulls, outlineLines, outlineLines, outlineMembers_eq,
        outlineMembers_eq, hkept, List.flatMap_map]
      refine .flatMap fun m hm => bracketed_entryLines _ (ih m.2 ?_ (level + 1))
      exact List.mem_map_of_mem (List.mem_filter.mp hm).1
    | _ => exact .refl _

/-- Without its null members a value has the same outline exactly if no object in it is left with
nothing; each such object adds the two brackets. -/
theorem outline_withoutNulls (v : Json) :
    (v.withoutNulls.outline = v.outline ↔ ∀ w ∈ v.inner, w.isHollow = false) ∧
    v.withoutNulls.outline.length = v.outline.length + 3 * v.inner.countP isHollow := by
  have hcount : v.sortKeys.inner.countP isHollow = v.inner.countP isHollow := by
    have hwhole := hollows_sortKeys v
    rw [hollows, hollows, List.countP_cons, List.countP_cons, isHollow_sortKeys] at hwhole
    exact Nat.add_right_cancel hwhole
  have hlines := bracketed_outlineLines v.sortKeys 0
  rw [hcount, ← sortKeys_withoutNulls] at hlines
  have hlength : v.withoutNulls.outline.length = v.outline.length + 3 * v.inner.countP isHollow :=
    hlines.length_intercalate "\n"
  refine ⟨?_, hlength⟩
  have hnone : (∀ w ∈ v.inner, w.isHollow = false) ↔ v.inner.countP isHollow = 0 := by
    rw [List.countP_eq_zero]
    simp
  rw [hnone]
  constructor
  · intro hsame
    rw [hsame] at hlength
    omega
  · intro hzero
    exact congrArg (String.intercalate "\n") (hlines.eq_of_zero hzero)

def reportWithNulls : Json :=
  object [("note", null), ("services", array [string "UserService", null]),
    ("artifacts", array [object [("path", string "users.go"), ("error", null)]])]

theorem outline_withoutNulls_report :
    (∀ w ∈ reportWithNulls.inner, w.isHollow = false) ∧
      reportWithNulls.withoutNulls.outline = reportWithNulls.outline := by
  have hfull : ∀ w ∈ reportWithNulls.inner, w.isHollow = false := by decide
  exact ⟨hfull, (outline_withoutNulls reportWithNulls).1.mpr hfull⟩

/-- A null member leaves a trace if its object has no other members. -/
theorem outline_betrays_null :
    (object [("a", object [("b", null)])]).outline = "a:" ∧
      (object [("a", object [("b", null)])]).withoutNulls.outline = "a: \x7b\x7d" := by
  decide

end ServiceLoom.Json

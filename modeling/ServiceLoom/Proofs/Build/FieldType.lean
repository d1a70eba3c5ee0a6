import ServiceLoom.Build.FieldType
import ServiceLoom.Proofs.Results

/-!
# Which type expressions convert

A type expression is walked node by node, each node before its parts and the key of a map before its
value. It converts exactly if the walk meets no node that has no place in a field type, and
otherwise the first such node is to blame. What it converts to has the same parts, with every slice
of `byte` as `bytes`, and is written as the same text.
-/

namespace ServiceLoom

namespace TypeExpr

def nodes : TypeExpr → List TypeExpr
  | ident name => [ident name]
  | selector package name => [selector package name]
  | slice elem => slice elem :: elem.nodes
  | ellipsis elem => ellipsis elem :: elem.nodes
  | map key value => map key value :: (key.nodes ++ value.nodes)
  | star elem => star elem :: elem.nodes
  | array len elem => array len elem :: elem.nodes
  | chan elem => chan elem :: elem.nodes
  | func => [func]
  | struct => [struct]
  | interface => [interface]

def isOrdinary : TypeExpr → Bool
  | ident _ | selector _ _ | slice _ | map _ _ | star _ => true
  | ellipsis _ | array _ _ | chan _ | func | struct | interface => false

/-- The nodes that have no place; `...` has one outermost, where it is allowed. -/
def misplaced : Bool → TypeExpr → List TypeExpr
  | true, ellipsis elem => elem.nodes.filter (!·.isOrdinary)
  | _, e => e.nodes.filter (!·.isOrdinary)

/-- Every node is ordinary, but for `...` outermost where it is allowed. -/
def Fits (allowVariadic : Bool) (e : TypeExpr) : Prop :=
  (∀ node ∈ e.nodes, node.isOrdinary = true) ∨
    allowVariadic = true ∧ ∃ elem, e = ellipsis elem ∧ ∀ node ∈ elem.nodes, node.isOrdinary = true

theorem self_mem_nodes (e : TypeExpr) : e ∈ e.nodes := by
  cases e <;> exact List.mem_cons_self

@[simp] theorem misplaced_false (e : TypeExpr) :
    e.misplaced false = e.nodes.filter (!·.isOrdinary) := rfl

theorem misplaced_eq_nil_iff {allowVariadic : Bool} {e : TypeExpr} :
    e.misplaced allowVariadic = [] ↔ e.Fits allowVariadic := by
  have hnone : ∀ e : TypeExpr, e.nodes.filter (!·.isOrdinary) = [] ↔
      ∀ node ∈ e.nodes, node.isOrdinary = true := by
    intro e
    simp
  unfold misplaced Fits
  split
  · rename_i elem
    -- the outermost `...` itself is no ordinary node
    have hroot : ¬ ∀ node ∈ (ellipsis elem).nodes, node.isOrdinary = true := fun h =>
      Bool.false_ne_true (h _ (self_mem_nodes _))
    simp [hroot, hnone]
  · rename_i e hother
    rw [hnone]
    constructor
    · exact Or.inl
    · rintro (h | ⟨rfl, elem, rfl, _⟩)
      · exact h
      · exact absurd rfl (hother elem rfl)

/-- The field type with the parts of a type expression, which may be variadic itself where that is
allowed. A slice of `byte` is `bytes`, at any depth. -/
inductive ReadAs : Bool → TypeExpr → FieldType → Prop where
  | builtin {allowed : Bool} {name : String} : name ∈ FieldType.builtinNames →
    ReadAs allowed (ident name) (.builtin name)
  | declared {allowed : Bool} {name : String} : name ∉ FieldType.builtinNames →
    ReadAs allowed (ident name) (.imported none name)
  | imported {allowed : Bool} {package name : String} :
    ReadAs allowed (selector package name) (.imported (some package) name)
  | bytes {allowed : Bool} : ReadAs allowed (slice (ident "byte")) .bytes
  | slice {allowed : Bool} {elem : TypeExpr} {type : FieldType} : elem ≠ ident "byte" →
    ReadAs false elem type → ReadAs allowed (slice elem) (.slice type)
  | variadic {elem : TypeExpr} {type : FieldType} : ReadAs false elem type →
    ReadAs true (ellipsis elem) (.variadic type)
  | map {allowed : Bool} {key value : TypeExpr} {keyType valueType : FieldType} :
    ReadAs false key keyType → ReadAs false value valueType →
    ReadAs allowed (map key value) (.map keyType valueType)
  | pointer {allowed : Bool} {elem : TypeExpr} {type : FieldType} : ReadAs false elem type →
    ReadAs allowed (star elem) (.pointer type)

theorem ReadAs.text_eq {allowed : Bool} {e : TypeExpr} {type : FieldType}
    (h : ReadAs allowed e type) : type.text = e.text := by
  induction h with
  | builtin | declared | imported | bytes => rfl
  | slice _ _ ih | variadic _ ih | pointer _ ih => rw [FieldType.text, ih, text]
  | map _ _ ihkey ihvalue => rw [FieldType.text, ihkey, ihvalue, text]

end TypeExpr

namespace FieldType

def Misplaced.ofNode : TypeExpr → Misplaced
  | .ellipsis elem => .variadic (.ellipsis elem)
  | node => .shape node

theorem reports_ofExpr (allowVariadic : Bool) (e : TypeExpr) :
    Reports ((e.misplaced allowVariadic).map Misplaced.ofNode) (ofExpr allowVariadic e) := by
  -- the parts of a type are read where nothing variadic is allowed
  have hpart : ∀ {part : TypeExpr} {f : FieldType → FieldType},
      Reports ((part.misplaced false).map Misplaced.ofNode) (ofExpr false part) →
      Reports ((part.nodes.filter (!·.isOrdinary)).map Misplaced.ofNode)
        ((ofExpr false part).map f) := fun h => h.map
  induction e generalizing allowVariadic with
  | slice elem ih =>
    cases allowVariadic <;>
    · unfold ofExpr
      split
      · rename_i hbyte
        subst hbyte
        exact .ok _
      · exact hpart (ih false)
  | ellipsis elem ih =>
    cases allowVariadic with
    | true => exact hpart (ih false)
    | false => rfl
  | map key value ihkey ihvalue =>
    have hboth : Reports (((key.nodes ++ value.nodes).filter (!·.isOrdinary)).map Misplaced.ofNode)
        (ofExpr allowVariadic (.map key value)) := by
      rw [List.filter_append, List.map_append,
        ← List.append_nil (List.map _ (value.nodes.filter _))]
      exact (ihkey false).bind fun _ _ => (ihvalue false).bind fun _ _ => .ok _
    cases allowVariadic <;> exact hboth
  | star elem ih => cases allowVariadic <;> exact hpart (ih false)
  | _ => cases allowVariadic <;> rfl

theorem readAs_of_ofExpr {allowVariadic : Bool} {e : TypeExpr} {type : FieldType}
    (h : ofExpr allowVariadic e = .ok type) : e.ReadAs allowVariadic type := by
  induction e generalizing allowVariadic type with
  | ident name =>
    obtain rfl := Except.ok.inj h
    unfold ofIdent
    split
    · rename_i hbuiltin
      exact .builtin hbuiltin
    · rename_i hdeclared
      exact .declared hdeclared
  | selector package name =>
    obtain rfl := Except.ok.inj h
    exact .imported
  | slice elem ih =>
    unfold ofExpr at h
    split at h
    · rename_i hbyte
      obtain rfl := Except.ok.inj h
      subst hbyte
      exact .bytes
    · rename_i hbyte
      obtain ⟨inner, hinner, rfl⟩ := map_eq_ok_iff.mp h
      exact .slice hbyte (ih hinner)
  | ellipsis elem ih =>
    cases allowVariadic with
    | true =>
      obtain ⟨inner, hinner, rfl⟩ := map_eq_ok_iff.mp h
      exact .variadic (ih hinner)
    | false => cases h
  | map key value ihkey ihvalue =>
    obtain ⟨keyType, hkey, h⟩ := bind_eq_ok_iff.mp h
    obtain ⟨valueType, hvalue, h⟩ := bind_eq_ok_iff.mp h
    obtain rfl := Except.ok.inj h
    exact .map (ihkey hkey) (ihvalue hvalue)
  | star elem ih =>
    obtain ⟨inner, hinner, rfl⟩ := map_eq_ok_iff.mp h
    exact .pointer (ih hinner)
  | _ => cases h

theorem ofExpr_eq_ok_iff {allowVariadic : Bool} {e : TypeExpr} {type : FieldType} :
    ofExpr allowVariadic e = .ok type ↔ e.ReadAs allowVariadic type := by
  constructor
  · exact readAs_of_ofExpr
  · intro h
    induction h with
    | builtin hbuiltin => rw [ofExpr, ofIdent, if_pos hbuiltin]
    | declared hdeclared => rw [ofExpr, ofIdent, if_neg hdeclared]
    | imported => rfl
    | bytes => rfl
    | slice hbyte _ ih => rw [ofExpr, if_neg hbyte, ih, Except.map]
    | variadic _ ih => rw [ofExpr, if_pos rfl, ih, Except.map]
    | map _ _ ihkey ihvalue =>
      exact bind_eq_ok_iff.mpr ⟨_, ihkey, bind_eq_ok_iff.mpr ⟨_, ihvalue, rfl⟩⟩
    | pointer _ ih => rw [ofExpr, ih, Except.map]

theorem text_of_ofExpr {allowVariadic : Bool} {e : TypeExpr} {type : FieldType}
    (h : ofExpr allowVariadic e = .ok type) : type.text = e.text :=
  (readAs_of_ofExpr h).text_eq

end FieldType

end ServiceLoom

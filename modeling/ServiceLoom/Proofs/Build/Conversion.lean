import ServiceLoom.Proofs.Build.Conformance

/-!
# What a type expression converts to

A conversion succeeds exactly if every node fits where it stands, and otherwise its error shows the
first node that does not. The field type has the parts of the type expression and is written as it
was, is variadic nowhere but outermost, and has one form only for a slice of bytes.
-/

namespace ServiceLoom

namespace FieldType

/-- Each node before its parts, and the key of a map before its value. -/
def nodes : FieldType → List FieldType
  | builtin name => [builtin name]
  | imported package name => [imported package name]
  | slice elem => slice elem :: elem.nodes
  | variadic elem => variadic elem :: elem.nodes
  | map key value => map key value :: (key.nodes ++ value.nodes)
  | pointer elem => pointer elem :: elem.nodes
  | bytes => [bytes]

structure Canonical (type : FieldType) : Prop where
  variadic : ∀ inner ∈ type.nodes.tail, ∀ elem, inner ≠ .variadic elem
  bytes : .slice (.builtin "byte") ∉ type.nodes

theorem isPlain_iff {type : FieldType} :
    type.isPlain = true ↔ ∀ node ∈ type.nodes, ∀ elem, node ≠ variadic elem := by
  induction type with
  | builtin name => simp [isPlain, nodes]
  | imported package name => simp [isPlain, nodes]
  | slice elem ih => simp [isPlain, nodes, ih]
  | variadic elem => simp [isPlain, nodes]
  | map key value ihkey ihvalue =>
    simp only [isPlain, nodes, Bool.and_eq_true, ihkey, ihvalue, List.forall_mem_cons,
      List.forall_mem_append]
    refine ⟨fun h => ⟨fun elem heq => ?_, h⟩, And.right⟩
    cases heq
  | pointer elem ih => simp [isPlain, nodes, ih]
  | bytes => simp [isPlain, nodes]

theorem byteSlice_not_mem_nodes {allowed : Bool} {e : TypeExpr} {type : FieldType}
    (h : e.ReadAs allowed type) : slice (builtin "byte") ∉ type.nodes := by
  induction h with
  | builtin | declared | imported | bytes => simp [nodes]
  | slice hbyte helem ih =>
    rw [nodes, List.mem_cons, not_or]
    refine ⟨?_, ih⟩
    intro heq
    rw [← slice.inj heq] at helem
    -- only the name itself is read as the builtin `byte`
    cases helem
    exact hbyte rfl
  | variadic _ ih | pointer _ ih => simpa [nodes] using ih
  | map _ _ ihkey ihvalue => simpa [nodes] using ⟨ihkey, ihvalue⟩

theorem canonical_of_readAs {allowed : Bool} {e : TypeExpr} {type : FieldType}
    (h : e.ReadAs allowed type) : type.Canonical where
  variadic := by
    intro inner hinner
    rcases h.isPlain_or_variadic with hplain | ⟨-, elem, rfl, hplain⟩
    · exact isPlain_iff.mp hplain inner (List.mem_of_mem_tail hinner)
    · exact isPlain_iff.mp hplain inner hinner
  bytes := byteSlice_not_mem_nodes h

theorem Misplaced.exists_message_eq (node : TypeExpr) :
    ∃ before after, (ofNode node).message = before ++ node.text ++ after := by
  have hnode : ofNode node = .variadic node ∨ ofNode node = .shape node := by
    cases node <;> simp [ofNode]
  rcases hnode with hnode | hnode
  · refine ⟨"variadic type ", " is only allowed on the last parameter", ?_⟩
    rw [hnode]
    rfl
  · refine ⟨"unsupported type shape ", "", ?_⟩
    rw [hnode, String.append_empty]
    rfl

end FieldType

/-- A type expression whose nodes all fit converts to the type with its parts, which is written
alike, and any other one is refused for the first node that does not fit, whose text the reason
contains. -/
theorem convertType_exact (entity : String) (allowVariadic : Bool) (e : TypeExpr) :
    ((∃ type, convertType entity e allowVariadic = .ok type) ↔ e.Fits allowVariadic) ∧
    (∀ type, convertType entity e allowVariadic = .ok type ↔ e.ReadAs allowVariadic type) ∧
    (∀ type, convertType entity e allowVariadic = .ok type →
      type.text = e.text ∧ type.Canonical) ∧
    (∀ error, convertType entity e allowVariadic = .error error ↔
      ∃ node, (e.misplaced allowVariadic).head? = some node ∧
        error = .invalidDeclaration entity (FieldType.Misplaced.ofNode node).message) ∧
    ∀ node, ∃ before after,
      (FieldType.Misplaced.ofNode node).message = before ++ node.text ++ after := by
  have hreports := @Builder.reports_convertType entity e allowVariadic
  refine ⟨?_, ?_, ?_, ?_, FieldType.Misplaced.exists_message_eq⟩
  · rw [hreports.exists_ok_iff, ← TypeExpr.misplaced_eq_nil_iff]
    simp [Objection.ofType]
  · intro type
    rw [convertType_eq_ok_iff, FieldType.ofExpr_eq_ok_iff]
  · intro type htype
    have hread := FieldType.readAs_of_ofExpr (convertType_eq_ok_iff.mp htype)
    exact ⟨hread.text_eq, FieldType.canonical_of_readAs hread⟩
  · intro error
    rw [hreports.eq_error_iff, Objection.ofType, List.map_map, List.head?_map,
      Option.map_eq_some_iff]
    simp only [Function.comp_apply, Objection.error, eq_comm]

theorem convertType_exact_track :
    convertType "method M" (.ellipsis (.map (.ident "K") (.slice (.ident "byte")))) true =
        .ok (.variadic (.map (.imported none "K") .bytes)) ∧
      (FieldType.variadic (.map (.imported none "K") .bytes)).text = "...map[K][]byte" ∧
      (FieldType.variadic (.map (.imported none "K") .bytes)).Canonical ∧
      convertType "method M" (.map (.star (.ellipsis (.ident "K"))) (.chan .func)) true =
        .error (.invalidDeclaration "method M"
          "variadic type ...K is only allowed on the last parameter") := by
  obtain ⟨-, hread, hshape, -⟩ :=
    convertType_exact "method M" true (.ellipsis (.map (.ident "K") (.slice (.ident "byte"))))
  have htrack := (hread _).mpr (.variadic (.map (.declared (by decide)) .bytes))
  obtain ⟨htext, hcanonical⟩ := hshape _ htrack
  obtain ⟨-, -, -, hfirst, -⟩ :=
    convertType_exact "method M" true (.map (.star (.ellipsis (.ident "K"))) (.chan .func))
  exact ⟨htrack, htext, hcanonical, (hfirst _).mpr ⟨.ellipsis (.ident "K"), by decide, rfl⟩⟩

end ServiceLoom

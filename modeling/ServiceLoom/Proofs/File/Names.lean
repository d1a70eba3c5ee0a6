import Mathlib.Data.List.TakeWhile
import ServiceLoom.Artifact.Write
import ServiceLoom.File.Tree
import ServiceLoom.Proofs.Text.Words

/-!
# Names on the way of a path

Dots and repeated slashes do not change where a path leads: the names that count are its steps. A
path cut off after one of its components keeps a first part of the steps, and joining two paths
appends their steps.
-/

namespace ServiceLoom

namespace FilePath

def steps (s : List Char) : List String :=
  ((Text.cutWhere (· == '/') s).filter fun piece => !piece.isEmpty && piece != ['.']).map
    String.ofList

/-- What a text can go on with after the end of a component. -/
def EndsComponent (rest : List Char) : Prop := rest = [] ∨ ∃ more, rest = '/' :: more

theorem filter_names (path : String) : (names path).filter (· != ".") = steps path.toList := by
  have hword (piece : List Char) : (String.ofList piece != ".") = (piece != ['.']) := by
    rw [Bool.eq_iff_iff, bne_iff_ne, bne_iff_ne, ne_eq, ne_eq, ← String.toList_inj]
    simp
  have hend : (if path.toList.getLast? == some '/' then ["."] else []).filter (· != ".") = [] := by
    split <;> rfl
  rw [names, List.filter_append, hend, List.append_nil, List.filter_map, steps, List.filter_filter]
  simp only [Function.comp_def, hword, Bool.and_comm]

theorem names_ne_nil {path : String} (h : path ≠ "") : names path ≠ [] := by
  have hne : path.toList ≠ [] := fun hnil => h (String.toList_inj.mp hnil)
  intro hnames
  rw [names, List.append_eq_nil_iff, List.map_eq_nil_iff, List.filter_eq_nil_iff] at hnames
  obtain ⟨hpieces, hlast⟩ := hnames
  have hslash : path.toList.getLast hne ≠ '/' := by
    intro heq
    simp [List.getLast?_eq_some_getLast hne, heq] at hlast
  obtain ⟨piece, hpiece, hmem⟩ :=
    Text.exists_mem_cutWhere (p := (· == '/')) (List.getLast_mem hne) (by simpa using hslash)
  have hempty := hpieces piece hpiece
  simp only [Bool.not_eq_true', Bool.not_eq_false, List.isEmpty_iff] at hempty
  rw [hempty] at hmem
  cases hmem

@[simp] theorem steps_nil : steps [] = [] := rfl

@[simp] theorem steps_dot : steps ['.'] = [] := rfl

theorem steps_append_slash (x y : List Char) : steps (x ++ '/' :: y) = steps x ++ steps y := by
  simp [steps, Text.cutWhere_append (p := (· == '/')) (c := '/') rfl]

@[simp] theorem steps_cons_slash (s : List Char) : steps ('/' :: s) = steps s :=
  steps_append_slash [] s

@[simp] theorem steps_cons_dot_slash (s : List Char) : steps ('.' :: '/' :: s) = steps s :=
  steps_append_slash ['.'] s

theorem steps_append {rest : List Char} (h : EndsComponent rest) (x : List Char) :
    steps (x ++ rest) = steps x ++ steps rest := by
  rcases h with rfl | ⟨more, rfl⟩
  · simp
  · rw [steps_append_slash, steps_cons_slash]

theorem steps_of_noSlash {x : List Char} (h : ∀ d ∈ x, (d == '/') = false) :
    steps x = if x = [] ∨ x = ['.'] then [] else [String.ofList x] := by
  rw [steps, Text.cutWhere_eq_singleton h]
  split
  · rename_i hx
    rcases hx with rfl | rfl <;> rfl
  · rename_i hx
    rw [not_or] at hx
    simp [hx.1, hx.2]

theorem endsComponent_dropWhile (s : List Char) : EndsComponent (s.dropWhile (· != '/')) := by
  cases hs : s.dropWhile (· != '/') with
  | nil => exact Or.inl rfl
  | cons d more =>
    have hd := List.head_dropWhile_not (· != '/') (l := s) (by simp [hs])
    simp only [hs, List.head_cons, bne_eq_false_iff_eq] at hd
    exact Or.inr ⟨more, by rw [hd]⟩

section Component

variable {c : Char} {cs : List Char}

/-- A component and what follows it. -/
theorem cons_eq_component_append (c : Char) (cs : List Char) :
    c :: cs = (c :: cs.takeWhile (· != '/')) ++ cs.dropWhile (· != '/') := by
  rw [List.cons_append, List.takeWhile_append_dropWhile]

theorem steps_component (hc : c ≠ '/') :
    steps (c :: cs) = (if c :: cs.takeWhile (· != '/') = ['.'] then []
      else [String.ofList (c :: cs.takeWhile (· != '/'))]) ++
        steps (cs.dropWhile (· != '/')) := by
  have hnoSlash : ∀ d ∈ c :: cs.takeWhile (· != '/'), (d == '/') = false := by
    intro d hd
    rcases List.mem_cons.mp hd with rfl | hd
    · simpa using hc
    · have hbne := List.mem_takeWhile_imp hd
      simpa using hbne
  conv => lhs; rw [cons_eq_component_append c cs]
  rw [steps_append (endsComponent_dropWhile cs), steps_of_noSlash hnoSlash]
  simp

end Component

theorem map_fst_laterComponents (before s : List Char) :
    (laterComponents before s).map (·.1) = (steps s).map fun name => .ofName name.toList := by
  fun_induction laterComponents before s with
  | case1 => rfl
  | case2 before cs ih => rw [steps_cons_slash, ih]
  | case3 before c cs hc name rest upTo hdot ih =>
    rw [steps_component hc, if_pos hdot, List.nil_append, ih]
  | case4 before c cs hc name rest upTo hdot ih =>
    rw [steps_component hc, if_neg hdot, List.map_cons, ih]
    simp [name, rest]

theorem of_mem_laterComponents {before s u : List Char} {component : Component}
    (h : (component, u) ∈ laterComponents before s) :
    u ≠ [] ∧ ∃ rest, before ++ s = u ++ rest ∧ EndsComponent rest := by
  fun_induction laterComponents before s with
  | case1 => cases h
  | case2 before cs ih => simpa using ih h
  | case3 before c cs hc name rest upTo hdot ih =>
    rw [cons_eq_component_append c cs, ← List.append_assoc]
    exact ih h
  | case4 before c cs hc name rest upTo hdot ih =>
    rw [cons_eq_component_append c cs, ← List.append_assoc]
    rcases List.mem_cons.mp h with heq | h
    · obtain ⟨-, rfl⟩ := Prod.mk.inj heq
      exact ⟨by simp [upTo, name], rest, rfl, endsComponent_dropWhile cs⟩
    · exact ih h

theorem isAbsolute_eq_of_isPrefix {q path : String} (hq : q ≠ "") (h : q.toList <+: path.toList) :
    isAbsolute q = isAbsolute path := by
  have hne : q.toList ≠ [] := fun hnil => hq (String.toList_inj.mp hnil)
  obtain ⟨rest, hrest⟩ := h
  obtain ⟨c, cs, hcs⟩ := List.exists_cons_of_ne_nil hne
  simp [isAbsolute, ← hrest, hcs]

/-- A first part of a path: it starts at the same place and takes some of the same steps. -/
structure Opens (q path : String) : Prop where
  ne_empty : q ≠ ""
  isPrefix : q.toList <+: path.toList
  steps_isPrefix : steps q.toList <+: steps path.toList

namespace Opens

theorem of_mem_laterComponents {before s u : List Char} {path : String} {component : Component}
    (hpath : path.toList = before ++ s) (h : (component, u) ∈ laterComponents before s) :
    Opens (String.ofList u) path := by
  obtain ⟨hne, rest, hrest, hends⟩ := FilePath.of_mem_laterComponents h
  refine ⟨by simpa [← String.toList_inj] using hne, ?_, ?_⟩
  · rw [hpath, hrest, String.toList_ofList]
    exact List.prefix_append u rest
  · rw [hpath, hrest, String.toList_ofList, steps_append hends]
    exact List.prefix_append _ _

theorem of_mem_initials {q path : String} (h : q ∈ initials path) : Opens q path := by
  obtain ⟨⟨component, u⟩, hmem, rfl⟩ := List.mem_map.mp h
  unfold located at hmem
  split at hmem
  · rename_i rest hpath
    rcases List.mem_cons.mp hmem with heq | hmem
    · obtain ⟨-, rfl⟩ := Prod.mk.inj heq
      exact ⟨by simp [← String.toList_inj], by simp [hpath], by simp⟩
    · exact of_mem_laterComponents hpath hmem
  · rename_i hpath
    obtain ⟨-, rfl⟩ := Prod.mk.inj (List.mem_singleton.mp hmem)
    exact ⟨by simp [← String.toList_inj], by simp [hpath], by simp⟩
  · rename_i rest hpath
    rcases List.mem_cons.mp hmem with heq | hmem
    · obtain ⟨-, rfl⟩ := Prod.mk.inj heq
      exact ⟨by simp [← String.toList_inj], by simp [hpath], by simp⟩
    · exact of_mem_laterComponents hpath hmem
  · exact of_mem_laterComponents rfl hmem

end Opens

theorem opens_of_parent?_eq_some {path d : String} (h : parent? path = some d) :
    d = "" ∨ Opens d path := by
  unfold parent? at h
  split at h
  · cases h
  · cases h
  · exact Or.inl (Option.some.inj h).symm
  · rename_i last component u before hne hlocated
    obtain rfl := Option.some.inj h
    refine Or.inr (Opens.of_mem_initials (List.mem_map.mpr ⟨(component, u), ?_, rfl⟩))
    rw [← List.mem_reverse, hlocated]
    simp

/-- The directories that a path is in, as paths, outermost first. -/
def outer (path : String) : List String :=
  match parent? path with
  | none => []
  | some directory => initials directory

theorem Opens.of_mem_outer {q path : String} (h : q ∈ outer path) : Opens q path := by
  unfold outer at h
  split at h
  · cases h
  · rename_i directory hparent
    have hq := Opens.of_mem_initials h
    rcases opens_of_parent?_eq_some hparent with rfl | hopens
    · exact absurd (String.toList_inj.mp (List.prefix_nil.mp hq.isPrefix)) hq.ne_empty
    · exact ⟨hq.ne_empty, hq.isPrefix.trans hopens.isPrefix,
        hq.steps_isPrefix.trans hopens.steps_isPrefix⟩

theorem steps_join {first second : String} (h : isAbsolute second = false) :
    steps (join first second).toList = steps first.toList ++ steps second.toList := by
  simp only [join, h, Bool.false_eq_true, if_false]
  split
  · rename_i hend
    rw [String.toList_append]
    rcases List.eq_nil_or_concat first.toList with hnil | ⟨front, last, hfirst⟩
    · simp [hnil]
    · obtain rfl : last = '/' := by simpa [hfirst] using hend
      rw [hfirst, List.concat_eq_append, List.append_assoc, List.singleton_append,
        steps_append_slash, steps_append_slash, steps_nil, List.append_nil]
  · rw [String.toList_append, String.toList_append]
    exact (List.append_assoc _ _ _).symm ▸ steps_append_slash first.toList second.toList

theorem isAbsolute_join {first second : String} (h : isAbsolute second = false) :
    isAbsolute (join first second) = isAbsolute first := by
  by_cases hne : first = ""
  · subst hne
    have hempty : isAbsolute "" = false := rfl
    simpa [join, h] using hempty.symm
  · refine (isAbsolute_eq_of_isPrefix hne ?_).symm
    simp only [join, h, Bool.false_eq_true, if_false]
    split <;> simp [String.toList_append]

end FilePath

end ServiceLoom

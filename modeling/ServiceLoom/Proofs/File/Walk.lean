import ServiceLoom.File.Tree

/-!
# Walks through growing trees

Where a path leads is fixed by its names alone; what is looked up on the way only decides whether
the walk gets there. A tree is sound if every entry lies in a directory, and it grows if directories
stay directories and files stay files, whatever their texts become. A walk that arrives still
arrives when the tree grows. A walk that does not arrive leaves open what is at its end, because a
path may turn back out of a directory that is missing; straight paths do not, and nothing is hidden
there.
-/

namespace ServiceLoom.FileTree

/-- Where a walk ends whose directories are all there. -/
def Place.location? : Place → Option Location
  | .taken l _ => some l
  | .free l => some l
  | .missing => none
  | .blocked => none

def Place.node? : Place → Option Node
  | .taken _ node => some node
  | .free _ | .missing | .blocked => none

/-- The texts of a tree by their locations; directories have none. -/
def text? (t : FileTree) (l : Location) : Option String :=
  match t.node? l with
  | some (.file x) => some x
  | _ => none

def lead : Location → List String → Location
  | l, [] => l
  | l, name :: names =>
    if name = "." then lead l names
    else if name = ".." then lead l.dropLast names
    else lead (l ++ [name]) names

theorem lead_append (l : Location) (names more : List String) :
    lead l (names ++ more) = lead (lead l names) more := by
  fun_induction lead l names with
  | case1 => rfl
  | case2 l names ih => simpa [lead] using ih
  | case3 l names _ ih => simpa [lead] using ih
  | case4 l name names hdot hup ih => simpa [lead, hdot, hup] using ih

theorem isPrefix_lead_of_not_mem {l : Location} {names : List String} (h : ".." ∉ names) :
    l <+: lead l names := by
  fun_induction lead l names with
  | case1 => exact List.prefix_rfl
  | case2 l names ih => exact ih (fun hup => h (List.mem_cons_of_mem _ hup))
  | case3 l names _ ih => exact absurd List.mem_cons_self h
  | case4 l name names hdot hup ih =>
    exact (List.prefix_append l [name]).trans (ih fun hmem => h (List.mem_cons_of_mem _ hmem))

theorem lead_filter (l : Location) (names : List String) :
    lead l (names.filter (· != ".")) = lead l names := by
  fun_induction lead l names with
  | case1 => rfl
  | case2 l names ih => simpa using ih
  | case3 l names _ ih => simpa [lead] using ih
  | case4 l name names hdot hup ih => simpa [lead, hdot, hup] using ih

def locate (t : FileTree) (path : String) : Location := lead (t.start path) (FilePath.names path)

def Sound (t : FileTree) : Prop :=
  ∀ entry ∈ t.entries, t.node? entry.1.dropLast = some .directory

instance (t : FileTree) : Decidable t.Sound :=
  inferInstanceAs (Decidable (∀ entry ∈ t.entries, t.node? entry.1.dropLast = some .directory))

/-- Whether every directory that the names turn back out of is there. -/
def straightFrom (t : FileTree) : Location → List String → Bool
  | _, [] => true
  | l, name :: names =>
    if name = "." then t.straightFrom l names
    else if name = ".." then t.node? l == some .directory && t.straightFrom l.dropLast names
    else t.straightFrom (l ++ [name]) names

def isStraight (t : FileTree) (path : String) : Bool :=
  t.straightFrom (t.start path) (FilePath.names path)

theorem text?_eq_some_iff {t : FileTree} {l : Location} {x : String} :
    t.text? l = some x ↔ t.node? l = some (.file x) := by
  unfold text?
  split
  · rename_i y hy
    simp [hy]
  · rename_i hne
    constructor
    · intro h
      cases h
    · exact fun h => absurd h (hne x)

theorem text?_eq_none_of_node?_eq_none {t : FileTree} {l : Location} (h : t.node? l = none) :
    t.text? l = none := by
  simp [text?, h]

@[simp] theorem node?_nil (t : FileTree) : t.node? [] = some .directory := by
  simp [node?]

section Sound

variable {t : FileTree} {l : Location}

/-- What holds a node is a directory; the root holds itself. -/
theorem Sound.dropLast (hs : t.Sound) (h : t.node? l ≠ none) :
    t.node? l.dropLast = some .directory := by
  by_cases hl : l = []
  · simp [hl]
  · simp only [node?, if_neg hl, ne_eq, Option.map_eq_none_iff] at h
    cases hlookup : t.entries.lookup l with
    | none => exact absurd hlookup h
    | some content =>
      obtain ⟨before, after, hentries, -⟩ := List.lookup_eq_some_iff.mp hlookup
      exact hs (l, content) (by simp [hentries])

theorem Sound.node?_of_append (hs : t.Sound) {names : List String} (hne : names ≠ [])
    (h : t.node? (l ++ names) ≠ none) : t.node? l = some .directory := by
  induction names generalizing l with
  | nil => exact absurd rfl hne
  | cons name names ih =>
    have hchild : t.node? (l ++ [name]) ≠ none := by
      cases names with
      | nil => exact h
      | cons next names =>
        have hdirectory := ih (l := l ++ [name]) (by simp) (by simpa using h)
        simp [hdirectory]
    have hparent := hs.dropLast hchild
    rwa [List.dropLast_concat] at hparent

theorem Sound.node?_eq_none_of_isPrefix (hs : t.Sound) {m : Location} (hlm : l <+: m)
    (h : t.node? l = none) : t.node? m = none := by
  obtain ⟨names, rfl⟩ := hlm
  by_cases hne : names = []
  · rw [hne, List.append_nil, h]
  · refine Decidable.byContradiction fun hm => ?_
    rw [hs.node?_of_append hne hm] at h
    cases h

end Sound

section Walk

variable {t : FileTree}

theorem walk_taken {l m : Location} {names : List String} {node : Node}
    (h : t.walk l names = .taken m node) : m = lead l names ∧ t.node? m = some node := by
  fun_induction t.walk l names with
  | case1 l node' hnode =>
    cases h
    exact ⟨rfl, hnode⟩
  | case2 => cases h
  | case3 => cases h
  | case4 => cases h
  | case5 l names hdirectory ih => simpa [lead] using ih h
  | case6 l names hdirectory _ ih => simpa [lead] using ih h
  | case7 => cases h
  | case8 l name names hdirectory hdot hup _ ih => simpa [lead, hdot, hup] using ih h

theorem walk_free (hs : t.Sound) {l m : Location} {names : List String}
    (h : t.walk l names = .free m) :
    m = lead l names ∧ t.node? m = none ∧
      (names = [] ∨ (m ≠ [] ∧ t.node? m.dropLast = some .directory)) := by
  fun_induction t.walk l names with
  | case1 => cases h
  | case2 l hnode =>
    cases h
    exact ⟨rfl, hnode, Or.inl rfl⟩
  | case3 => cases h
  | case4 => cases h
  | case5 l names hdirectory ih =>
    obtain ⟨hm, hnode, hrest⟩ := ih h
    refine ⟨by simpa [lead] using hm, hnode, Or.inr ?_⟩
    rcases hrest with rfl | hrest
    · simp [walk, hdirectory] at h
    · exact hrest
  | case6 l names hdirectory _ ih =>
    obtain ⟨hm, hnode, hrest⟩ := ih h
    refine ⟨by simpa [lead] using hm, hnode, Or.inr ?_⟩
    rcases hrest with rfl | hrest
    · have hparent := hs.dropLast (l := l) (by simp [hdirectory])
      simp [walk, hparent] at h
    · exact hrest
  | case7 => cases h
  | case8 l name names hdirectory hdot hup _ ih =>
    obtain ⟨hm, hnode, hrest⟩ := ih h
    refine ⟨by simpa [lead, hdot, hup] using hm, hnode, Or.inr ?_⟩
    rcases hrest with rfl | hrest
    · rw [hm, lead]
      simp [hdirectory]
    · exact hrest

theorem straightFrom_of_not_mem {l : Location} {names : List String} (h : ".." ∉ names) :
    t.straightFrom l names = true := by
  induction names generalizing l with
  | nil => rfl
  | cons name names ih =>
    rw [List.mem_cons, not_or] at h
    unfold straightFrom
    split
    · exact ih h.2
    · rw [if_neg (Ne.symm h.1)]
      exact ih h.2

theorem straightFrom_filter (l : Location) (names : List String) :
    t.straightFrom l (names.filter (· != ".")) = t.straightFrom l names := by
  fun_induction t.straightFrom l names with
  | case1 => rfl
  | case2 l names ih => simpa using ih
  | case3 l names _ ih => simp [straightFrom, ih]
  | case4 l name names hdot hup ih => simpa [straightFrom, hdot, hup] using ih

end Walk

structure GrowsTo (t u : FileTree) : Prop where
  working : u.working = t.working
  directory : ∀ l, t.node? l = some .directory → u.node? l = some .directory
  file : ∀ l x, t.node? l = some (.file x) → ∃ y, u.node? l = some (.file y)

namespace GrowsTo

variable {t u v : FileTree}

theorem refl (t : FileTree) : t.GrowsTo t := ⟨rfl, fun _ h => h, fun _ x h => ⟨x, h⟩⟩

theorem trans (htu : t.GrowsTo u) (huv : u.GrowsTo v) : t.GrowsTo v where
  working := huv.working.trans htu.working
  directory l h := huv.directory l (htu.directory l h)
  file l x h := by
    obtain ⟨y, hy⟩ := htu.file l x h
    exact huv.file l y hy

theorem node?_ne_none (h : t.GrowsTo u) {l : Location} (hl : t.node? l ≠ none) :
    u.node? l ≠ none := by
  cases hnode : t.node? l with
  | none => exact absurd hnode hl
  | some node =>
    cases node with
    | directory => simp [h.directory l hnode]
    | file x =>
      obtain ⟨y, hy⟩ := h.file l x hnode
      simp [hy]

theorem node?_ne_directory (h : t.GrowsTo u) {l : Location} {x : String}
    (hfile : t.node? l = some (.file x)) : u.node? l ≠ some .directory := by
  obtain ⟨y, hy⟩ := h.file l x hfile
  simp [hy]

theorem start_eq (h : t.GrowsTo u) (path : String) : u.start path = t.start path := by
  simp only [start, h.working]

theorem locate_eq (h : t.GrowsTo u) (path : String) : u.locate path = t.locate path := by
  simp only [locate, h.start_eq]

/-- Where the text stays, the node stays, unless a directory is made. -/
theorem node?_eq_of_text?_eq (h : t.GrowsTo u) {l : Location} (htext : u.text? l = t.text? l) :
    u.node? l = t.node? l ∨ t.node? l = none ∧ u.node? l = some .directory := by
  cases hnode : t.node? l with
  | none =>
    cases hu : u.node? l with
    | none => exact Or.inl rfl
    | some node =>
      cases node with
      | directory => exact Or.inr ⟨rfl, rfl⟩
      | file x =>
        rw [text?_eq_none_of_node?_eq_none hnode, text?_eq_some_iff.mpr hu] at htext
        cases htext
  | some node =>
    cases node with
    | directory => exact Or.inl (h.directory l hnode)
    | file x =>
      rw [text?_eq_some_iff.mpr hnode] at htext
      exact Or.inl (text?_eq_some_iff.mp htext)

end GrowsTo

section Growth

variable {t u : FileTree}

theorem walk_of_growsTo (hg : t.GrowsTo u) {l m : Location} {names : List String} {node : Node}
    (h : (t.walk l names).location? = some m) (hu : u.node? m = some node) :
    u.walk l names = .taken m node := by
  fun_induction t.walk l names with
  | case1 l _ _ =>
    cases h
    simp [walk, hu]
  | case2 l _ =>
    cases h
    simp [walk, hu]
  | case3 => cases h
  | case4 => cases h
  | case5 l names hdirectory ih => simpa [walk, hg.directory l hdirectory] using ih h
  | case6 l names hdirectory _ ih => simpa [walk, hg.directory l hdirectory] using ih h
  | case7 => cases h
  | case8 l name names hdirectory hdot hup hlong ih =>
    simpa [walk, hg.directory l hdirectory, hdot, hup, hlong] using ih h

theorem walk_blocked_of_growsTo (hg : t.GrowsTo u) {l : Location} {names : List String}
    (h : t.walk l names = .blocked) : u.walk l names = .blocked := by
  fun_induction t.walk l names with
  | case1 => cases h
  | case2 => cases h
  | case3 => cases h
  | case4 l name names x hfile =>
    obtain ⟨y, hy⟩ := hg.file l x hfile
    simp [walk, hy]
  | case5 l names hdirectory ih => simpa [walk, hg.directory l hdirectory] using ih h
  | case6 l names hdirectory _ ih => simpa [walk, hg.directory l hdirectory] using ih h
  | case7 l name names hdirectory hdot hup hlong =>
    simp [walk, hg.directory l hdirectory, hdot, hup, hlong]
  | case8 l name names hdirectory hdot hup hlong ih =>
    simpa [walk, hg.directory l hdirectory, hdot, hup, hlong] using ih h

theorem straightFrom_of_growsTo (hg : t.GrowsTo u) {l : Location} {names : List String}
    (h : t.straightFrom l names = true) : u.straightFrom l names = true := by
  fun_induction t.straightFrom l names with
  | case1 => rfl
  | case2 l names ih => simpa [straightFrom] using ih h
  | case3 l names _ ih =>
    simp only [Bool.and_eq_true, beq_iff_eq] at h
    simpa [straightFrom, hg.directory l h.1] using ih h.2
  | case4 l name names hdot hup ih => simpa [straightFrom, hdot, hup] using ih h

end Growth

section Straight

variable {t : FileTree}

theorem straightFrom_append {l : Location} {names more : List String} :
    t.straightFrom l (names ++ more) = true ↔
      t.straightFrom l names = true ∧ t.straightFrom (lead l names) more = true := by
  fun_induction t.straightFrom l names with
  | case1 => simp [lead]
  | case2 l names ih => simpa [straightFrom, lead] using ih
  | case3 l names _ ih =>
    simp only [List.cons_append, straightFrom, lead]
    simp [ih, and_assoc]
  | case4 l name names hdot hup ih => simpa [straightFrom, lead, hdot, hup] using ih

theorem straightFrom_of_walk_taken {l m : Location} {names : List String} {node : Node}
    (h : t.walk l names = .taken m node) : t.straightFrom l names = true := by
  fun_induction t.walk l names with
  | case1 => rfl
  | case2 => cases h
  | case3 => cases h
  | case4 => cases h
  | case5 l names hdirectory ih => simpa [straightFrom] using ih h
  | case6 l names hdirectory _ ih => simpa [straightFrom, hdirectory] using ih h
  | case7 => cases h
  | case8 l name names hdirectory hdot hup _ ih => simpa [straightFrom, hdot, hup] using ih h

/-- A straight path does not come back from where nothing is. -/
theorem isPrefix_lead (hs : t.Sound) {l : Location} {names : List String}
    (hstraight : t.straightFrom l names = true) (h : t.node? l = none) :
    l <+: lead l names := by
  fun_induction t.straightFrom l names with
  | case1 => exact List.prefix_rfl
  | case2 l names ih => simpa [lead] using ih hstraight h
  | case3 l names _ ih => simp [h] at hstraight
  | case4 l name names hdot hup ih =>
    have hchild := hs.node?_eq_none_of_isPrefix (List.prefix_append l [name]) h
    simpa [lead, hdot, hup] using (List.prefix_append l [name]).trans (ih hstraight hchild)

theorem node?_lead_of_walk_missing (hs : t.Sound) {l : Location} {names : List String}
    (hstraight : t.straightFrom l names = true) (h : t.walk l names = .missing) :
    t.node? (lead l names) = none := by
  fun_induction t.walk l names with
  | case1 => cases h
  | case2 => cases h
  | case3 l name names hnone =>
    exact hs.node?_eq_none_of_isPrefix (isPrefix_lead hs hstraight hnone) hnone
  | case4 => cases h
  | case5 l names hdirectory ih =>
    simp only [straightFrom, if_true] at hstraight
    simpa [lead] using ih hstraight h
  | case6 l names hdirectory hdot ih =>
    simp only [straightFrom, if_neg hdot, if_true, Bool.and_eq_true] at hstraight
    simpa [lead] using ih hstraight.2 h
  | case7 => cases h
  | case8 l name names hdirectory hdot hup _ ih =>
    simp only [straightFrom, if_neg hdot, if_neg hup] at hstraight
    simpa [lead, hdot, hup] using ih hstraight h

end Straight

end ServiceLoom.FileTree

/-!
# Flag sets

A set of flag names as a strictly increasing list, so two sets with the same members are equal and
every listing is sorted. Names are ordered by code points.
-/

namespace ServiceLoom

structure FlagSet where
  flags : List String
  sorted : flags.Pairwise (· < ·)
  deriving DecidableEq, Repr

namespace FlagSet

def insertSorted (flag : String) : List String → List String
  | [] => [flag]
  | f :: rest =>
    if flag < f then flag :: f :: rest
    else if flag = f then f :: rest
    else f :: insertSorted flag rest

theorem mem_insertSorted {x flag : String} {flags : List String} :
    x ∈ insertSorted flag flags ↔ x = flag ∨ x ∈ flags := by
  induction flags with
  | nil => simp [insertSorted]
  | cons f rest ih =>
    unfold insertSorted
    split
    · simp
    · split
      · next h => simp [h]
      · simp [ih, or_left_comm]

theorem pairwise_insertSorted {flag : String} {flags : List String}
    (h : flags.Pairwise (· < ·)) : (insertSorted flag flags).Pairwise (· < ·) := by
  induction flags with
  | nil => simp [insertSorted]
  | cons f rest ih =>
    have ⟨hf, hrest⟩ := List.pairwise_cons.1 h
    unfold insertSorted
    split
    · next hlt =>
      refine List.pairwise_cons.2 ⟨?_, h⟩
      intro x hx
      rcases List.mem_cons.1 hx with rfl | hx
      · exact hlt
      · exact String.lt_trans hlt (hf x hx)
    · split
      · exact h
      · next hnlt hne =>
        refine List.pairwise_cons.2 ⟨?_, ih hrest⟩
        intro x hx
        rcases mem_insertSorted.1 hx with rfl | hx
        · refine Decidable.byContradiction fun hn => hne ?_
          exact String.le_antisymm (String.not_lt.1 hn) (String.not_lt.1 hnlt)
        · exact hf x hx

theorem eq_of_mem_iff {s t : List String} (hs : s.Pairwise (· < ·)) (ht : t.Pairwise (· < ·))
    (h : ∀ x, x ∈ s ↔ x ∈ t) : s = t := by
  induction s generalizing t with
  | nil =>
    cases t with
    | nil => rfl
    | cons b t => simpa using h b
  | cons a s ih =>
    cases t with
    | nil => simpa using h a
    | cons b t =>
      have ⟨ha, hs'⟩ := List.pairwise_cons.1 hs
      have ⟨hb, ht'⟩ := List.pairwise_cons.1 ht
      have hab : a = b := by
        rcases List.mem_cons.1 ((h a).1 (by simp)) with heq | hat
        · exact heq
        · rcases List.mem_cons.1 ((h b).2 (by simp)) with heq | hbs
          · exact heq.symm
          · exact absurd (String.lt_trans (hb a hat) (ha b hbs)) (String.lt_irrefl b)
      subst hab
      refine congrArg (a :: ·) (ih hs' ht' fun x => ?_)
      constructor
      · intro hx
        rcases List.mem_cons.1 ((h x).1 (List.mem_cons_of_mem _ hx)) with rfl | hxt
        · exact absurd (ha _ hx) (String.lt_irrefl _)
        · exact hxt
      · intro hx
        rcases List.mem_cons.1 ((h x).2 (List.mem_cons_of_mem _ hx)) with rfl | hxs
        · exact absurd (hb _ hx) (String.lt_irrefl _)
        · exact hxs

def empty : FlagSet := ⟨[], List.Pairwise.nil⟩

instance : Inhabited FlagSet := ⟨empty⟩

instance : Membership String FlagSet := ⟨fun s flag => flag ∈ s.flags⟩

instance (flag : String) (s : FlagSet) : Decidable (flag ∈ s) :=
  inferInstanceAs (Decidable (flag ∈ s.flags))

def contains (s : FlagSet) (flag : String) : Bool := decide (flag ∈ s)

def insert (s : FlagSet) (flag : String) : FlagSet :=
  ⟨insertSorted flag s.flags, pairwise_insertSorted s.sorted⟩

def erase (s : FlagSet) (flag : String) : FlagSet :=
  ⟨s.flags.filter (· != flag), s.sorted.filter _⟩

/-- Put a flag in or take it out. -/
def set (s : FlagSet) (enabled : Bool) (flag : String) : FlagSet :=
  if enabled then s.insert flag else s.erase flag

def insertAll (s : FlagSet) (flags : List String) : FlagSet := flags.foldl insert s

def eraseAll (s : FlagSet) (flags : List String) : FlagSet := flags.foldl erase s

def ofList (flags : List String) : FlagSet := empty.insertAll flags

def size (s : FlagSet) : Nat := s.flags.length

def isEmpty (s : FlagSet) : Bool := s.flags.isEmpty

theorem mem_def {flag : String} {s : FlagSet} : flag ∈ s ↔ flag ∈ s.flags := Iff.rfl

theorem ext {s t : FlagSet} (h : ∀ flag, flag ∈ s ↔ flag ∈ t) : s = t := by
  have hflags : s.flags = t.flags := eq_of_mem_iff s.sorted t.sorted h
  cases s
  cases t
  cases hflags
  rfl

@[simp] theorem contains_iff {s : FlagSet} {flag : String} : s.contains flag = true ↔ flag ∈ s := by
  simp [contains]

@[simp] theorem not_mem_empty {flag : String} : ¬ flag ∈ empty := by simp [mem_def, empty]

@[simp] theorem mem_insert {s : FlagSet} {flag x : String} :
    x ∈ s.insert flag ↔ x = flag ∨ x ∈ s := mem_insertSorted

@[simp] theorem mem_erase {s : FlagSet} {flag x : String} :
    x ∈ s.erase flag ↔ x ∈ s ∧ x ≠ flag := by
  simp [mem_def, erase]

@[simp] theorem mem_insertAll {s : FlagSet} {flags : List String} {x : String} :
    x ∈ s.insertAll flags ↔ x ∈ s ∨ x ∈ flags := by
  induction flags generalizing s with
  | nil => simp [insertAll]
  | cons f rest ih =>
    have := ih (s := s.insert f)
    simp only [insertAll, List.foldl_cons] at this ⊢
    rw [this]
    simp only [mem_insert, List.mem_cons]
    constructor
    · rintro ((h | h) | h) <;> simp [h]
    · rintro (h | h | h) <;> simp [h]

@[simp] theorem mem_eraseAll {s : FlagSet} {flags : List String} {x : String} :
    x ∈ s.eraseAll flags ↔ x ∈ s ∧ x ∉ flags := by
  induction flags generalizing s with
  | nil => simp [eraseAll]
  | cons f rest ih =>
    have := ih (s := s.erase f)
    simp only [eraseAll, List.foldl_cons] at this ⊢
    rw [this]
    simp only [mem_erase, List.mem_cons, not_or, and_assoc, ne_eq]

@[simp] theorem mem_ofList {flags : List String} {x : String} : x ∈ ofList flags ↔ x ∈ flags := by
  simp [ofList]

end FlagSet

end ServiceLoom

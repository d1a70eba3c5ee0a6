import Mathlib.Data.List.Induction
import ServiceLoom.Proofs.Lookup
import ServiceLoom.Recipe.Book

/-!
# Registering recipes

A registration under a new name adds a recipe at the end of a book, and one under a name that is
there fails and changes nothing. So a book that registrations lead to holds the first recipe of
every name, in the order in which the names came.
-/

namespace ServiceLoom.RecipeBook

variable {book : RecipeBook} {name : String} {calls : List (String × Recipe)}
  {call : String × Recipe}

/-- What a registration leaves, also where it fails. -/
def attempt (book : RecipeBook) (call : String × Recipe) : RecipeBook :=
  match book.register call.1 call.2 with
  | .ok book => book
  | .error _ => book

def ofCalls (calls : List (String × Recipe)) : RecipeBook := calls.foldl attempt {}

def registeredTwice (name : String) : Error := .configuration s!"spec '{name}' registered twice"

theorem attempt_of_mem (h : call.1 ∈ book.names) : book.attempt call = book := by
  rw [attempt, register, if_pos h]

theorem attempt_of_not_mem (h : call.1 ∉ book.names) :
    book.attempt call = ⟨book.recipes ++ [call]⟩ := by
  rw [attempt, register, if_neg h]

theorem ofCalls_concat : ofCalls (calls ++ [call]) = (ofCalls calls).attempt call := by
  rw [ofCalls, List.foldl_append]
  rfl

/-- Of all recipes called by a name a book has the first. -/
structure HoldsFirsts (calls : List (String × Recipe)) (book : RecipeBook) : Prop where
  distinct : book.names.Nodup
  sublist : book.recipes.Sublist calls
  lookup : ∀ name, book.recipes.lookup name = calls.lookup name

theorem HoldsFirsts.mem_names_iff (h : HoldsFirsts calls book) :
    name ∈ book.names ↔ name ∈ calls.map (·.1) := by
  rw [names, ← not_iff_not, ← lookup_eq_none_iff_not_mem, ← lookup_eq_none_iff_not_mem, h.lookup]

theorem HoldsFirsts.attempt (h : HoldsFirsts calls book) (call : String × Recipe) :
    HoldsFirsts (calls ++ [call]) (book.attempt call) := by
  by_cases hmem : call.1 ∈ book.names
  · rw [attempt_of_mem hmem]
    refine ⟨h.distinct, h.sublist.trans (List.sublist_append_left _ _), fun other => ?_⟩
    rw [h.lookup, List.lookup_append]
    cases hlookup : calls.lookup other with
    | some recipe => rfl
    | none =>
      have hne : other ∉ [call].map (·.1) := by
        rw [List.map_singleton, List.mem_singleton]
        rintro rfl
        exact lookup_eq_none_iff_not_mem.mp hlookup (h.mem_names_iff.mp hmem)
      rw [Option.none_or, lookup_eq_none_iff_not_mem.mpr hne]
  · rw [attempt_of_not_mem hmem]
    refine ⟨?_, h.sublist.append_right _, fun other => ?_⟩
    · rw [names, List.map_append, List.map_singleton, ← List.concat_eq_append]
      exact h.distinct.concat hmem
    · rw [List.lookup_append, List.lookup_append, h.lookup]

theorem holdsFirsts_ofCalls (calls : List (String × Recipe)) :
    HoldsFirsts calls (ofCalls calls) := by
  induction calls using List.reverseRecOn with
  | nil => exact ⟨List.nodup_nil, .slnil, fun _ => rfl⟩
  | append_singleton calls call ih =>
    rw [ofCalls_concat]
    exact ih.attempt call

theorem register_ofCalls (name : String) (recipe : Recipe) :
    (ofCalls calls).register name recipe =
      if name ∈ calls.map (·.1) then .error (registeredTwice name)
      else .ok ⟨(ofCalls calls).recipes ++ [(name, recipe)]⟩ := by
  rw [register]
  simp only [(holdsFirsts_ofCalls calls).mem_names_iff]
  rfl

/-- Recipes under distinct names are all taken. -/
theorem ofCalls_of_nodup (h : (calls.map (·.1)).Nodup) : ofCalls calls = ⟨calls⟩ := by
  induction calls using List.reverseRecOn with
  | nil => rfl
  | append_singleton calls call ih =>
    rw [List.map_append, List.map_singleton, ← List.concat_eq_append, List.nodup_concat] at h
    obtain ⟨hnew, hdistinct⟩ := h
    rw [ofCalls_concat, ih hdistinct, attempt_of_not_mem hnew]

/-- Registrations that have to succeed do so if the names are distinct and new. -/
theorem foldlM_register_of_nodup (h : ((book.recipes ++ calls).map (·.1)).Nodup) :
    calls.foldlM (fun book call => book.register call.1 call.2) book =
      .ok ⟨book.recipes ++ calls⟩ := by
  induction calls generalizing book with
  | nil => rw [List.append_nil]; rfl
  | cons call calls ih =>
    have hnew : call.1 ∉ book.names := by
      rw [List.map_append, List.map_cons, List.nodup_append] at h
      exact fun hmem => h.2.2 _ hmem _ List.mem_cons_self rfl
    rw [List.append_cons book.recipes call calls] at h ⊢
    rw [List.foldlM_cons, register, if_neg hnew]
    exact @ih ⟨book.recipes ++ [call]⟩ h

end ServiceLoom.RecipeBook

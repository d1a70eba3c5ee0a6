import Mathlib.Algebra.GroupWithZero.Nat
import ServiceLoom.Proofs.Comment.Delimiter

/-!
# Wrapping prose

A layout cuts tokens into lines: runs of neighbours, joined by single spaces, of which only a run of
one token may be wider than the width. Wrapping takes the greedy layout, and no layout has fewer
lines: where two layouts have begun the same number of lines, the line of the greedy one never
begins before that of the other.
-/

namespace ServiceLoom.Comment

open Text

def lineOf (run : List String) : String := String.intercalate " " run

structure Layout (width : Nat) (tokens : List String) (runs : List (List String)) : Prop where
  flatten : runs.flatten = tokens
  ne_nil : ∀ run ∈ runs, run ≠ []
  fits : ∀ run ∈ runs, (lineOf run).length ≤ width ∨ run.length = 1

/-- The greedy layout; `run` is the line that is being filled. -/
def greedyFrom (width : Nat) (run : List String) : List String → List (List String)
  | [] => [run]
  | token :: rest =>
    if (lineOf (run ++ [token])).length ≤ width then greedyFrom width (run ++ [token]) rest
    else run :: greedyFrom width [token] rest

def greedy (width : Nat) : List String → List (List String)
  | [] => []
  | token :: rest => greedyFrom width [token] rest

variable {width : Nat} {run tokens : List String} {runs : List (List String)}

/-! ## Lines -/

theorem joinWith_eq_intercalate (sep : List Char) (pieces : List (List Char)) :
    joinWith sep pieces = sep.intercalate pieces := by
  induction pieces with
  | nil => rfl
  | cons piece pieces ih =>
    cases pieces with
    | nil => simp [joinWith]
    | cons next pieces =>
      rw [joinWith, ih, List.intercalate_cons_cons]
      simp

theorem toList_lineOf (run : List String) :
    (lineOf run).toList = joinWith [' '] (run.map String.toList) := by
  have hspace : " ".toList = [' '] := rfl
  rw [lineOf, String.toList_intercalate, hspace, joinWith_eq_intercalate]

theorem toList_lineOf_concat (h : run ≠ []) (token : String) :
    (lineOf (run ++ [token])).toList = (lineOf run).toList ++ ' ' :: token.toList := by
  rw [toList_lineOf, toList_lineOf, List.map_append, List.map_singleton]
  apply joinWith_concat
  simpa using h

theorem lineOf_flatten (h : ∀ run ∈ runs, run ≠ []) :
    lineOf (runs.map lineOf) = lineOf runs.flatten := by
  rw [← String.toList_inj, toList_lineOf, toList_lineOf, List.map_map, List.map_flatten,
    ← List.flatMap_def]
  have hlines : String.toList ∘ lineOf = fun run => joinWith [' '] (run.map String.toList) :=
    funext toList_lineOf
  rw [hlines]
  apply joinWith_flatMap
  intro run hrun
  simpa using h run hrun

theorem length_lineOf (h : run ≠ []) :
    (lineOf run).length + 1 = (run.map (·.length + 1)).sum := by
  induction run using List.reverseRecOn with
  | nil => exact absurd rfl h
  | append_singleton run token ih =>
    by_cases hrun : run = []
    · subst hrun
      simp [lineOf]
    · have hlength := congrArg List.length (toList_lineOf_concat hrun token)
      simp only [String.length_toList, List.length_append, List.length_cons] at hlength
      have := ih hrun
      simp only [List.map_append, List.map_singleton, List.sum_append, List.sum_singleton]
      omega

theorem lineOf_ne_empty (h : run ≠ []) (htokens : ∀ token ∈ run, token ≠ "") :
    (lineOf run).toList ≠ [] := by
  obtain ⟨token, rest, rfl⟩ := List.exists_cons_of_ne_nil h
  have hlength := length_lineOf h
  have htoken : token.length ≠ 0 := by
    rw [Ne, String.length_eq_zero_iff]
    exact htokens token (by simp)
  rw [List.map_cons, List.sum_cons] at hlength
  intro hempty
  rw [← String.length_toList, hempty, List.length_nil] at hlength
  omega

/-! ## The greedy layout -/

theorem wrapFrom_eq (hrun : run ≠ []) (htokens : ∀ token ∈ run ++ tokens, token ≠ "") :
    wrapFrom width (lineOf run).toList (tokens.map String.toList) =
      (greedyFrom width run tokens).map fun run => (lineOf run).toList := by
  induction tokens generalizing run with
  | nil =>
    have hline := lineOf_ne_empty hrun (by simpa using htokens)
    simp [wrapFrom, greedyFrom, hline]
  | cons token rest ih =>
    have hline := lineOf_ne_empty hrun fun t ht => htokens t (List.mem_append_left _ ht)
    have hlonger := toList_lineOf_concat hrun token
    have hlength : (lineOf (run ++ [token])).length =
        (lineOf run).toList.length + 1 + token.toList.length := by
      rw [← String.length_toList, hlonger, List.length_append, List.length_cons]
      omega
    rw [List.map_cons, wrapFrom, if_neg (by simpa using hline), greedyFrom, hlength, ← hlonger]
    split
    · exact ih (by simp) (by simpa using htokens)
    · have hsingle : (lineOf [token]).toList = token.toList := by simp [lineOf]
      rw [List.map_cons, ← ih (by simp) fun t ht => htokens t (List.mem_append_right _ ht), hsingle]

theorem wrap_eq (h : ∀ token ∈ tokens, token ≠ "") :
    wrap width tokens = (greedy width tokens).map lineOf := by
  cases tokens with
  | nil => rfl
  | cons token rest =>
    have hfirst : wrapFrom width [] ((token :: rest).map String.toList) =
        wrapFrom width (lineOf [token]).toList (rest.map String.toList) := by
      simp [wrapFrom, lineOf]
    rw [wrap, hfirst, wrapFrom_eq (by simp) h, List.map_map]
    apply List.map_congr_left
    intro run _
    exact String.ofList_toList

theorem layout_greedyFrom (hrun : run ≠ [])
    (hfits : (lineOf run).length ≤ width ∨ run.length = 1) (tokens : List String) :
    Layout width (run ++ tokens) (greedyFrom width run tokens) := by
  induction tokens generalizing run with
  | nil => exact ⟨by simp [greedyFrom], by simpa [greedyFrom], by simpa [greedyFrom]⟩
  | cons token rest ih =>
    unfold greedyFrom
    split
    · rename_i hlonger
      have hrest := ih (List.concat_ne_nil token run) (Or.inl hlonger)
      rwa [List.append_assoc] at hrest
    · have hrest := ih (List.cons_ne_nil token []) (Or.inr rfl)
      refine ⟨?_, List.forall_mem_cons.mpr ⟨hrun, hrest.ne_nil⟩,
        List.forall_mem_cons.mpr ⟨hfits, hrest.fits⟩⟩
      rw [List.flatten_cons, hrest.flatten]
      rfl

theorem layout_greedy (width : Nat) (tokens : List String) :
    Layout width tokens (greedy width tokens) := by
  cases tokens with
  | nil => exact ⟨rfl, by simp [greedy], by simp [greedy]⟩
  | cons token rest => exact layout_greedyFrom (List.cons_ne_nil token []) (Or.inr rfl) rest

/-! ## No layout has fewer lines -/

theorem Layout.tail (h : Layout width tokens (run :: runs)) : Layout width runs.flatten runs where
  flatten := rfl
  ne_nil := fun r hr => h.ne_nil r (List.mem_cons_of_mem _ hr)
  fits := fun r hr => h.fits r (List.mem_cons_of_mem _ hr)

/-- A line that goes beyond a run that is full is too wide. -/
theorem not_fits_of_longer {before after : List String} {token : String} (hrun : run ≠ [])
    (hfull : ¬ (lineOf (run ++ [token])).length ≤ width) :
    ¬ ((lineOf (before ++ run ++ token :: after)).length ≤ width ∨
      (before ++ run ++ token :: after).length = 1) := by
  have hwide : (lineOf (before ++ run ++ token :: after)).length + 1 = _ :=
    length_lineOf (by simp)
  have hnarrow := length_lineOf (List.concat_ne_nil token run)
  have hpos := List.length_pos_iff.mpr hrun
  simp only [List.map_append, List.map_cons, List.map_nil, List.sum_append, List.sum_cons,
    List.sum_nil] at hwide hnarrow
  rw [List.length_append, List.length_append, List.length_cons]
  omega

theorem length_greedyFrom_le {before : List String} (hrun : run ≠ [])
    (h : Layout width (before ++ run ++ tokens) runs) :
    (greedyFrom width run tokens).length ≤ runs.length := by
  -- the other layout has as many lines behind it, and its next line begins with `before`
  induction tokens generalizing before run runs with
  | nil =>
    rw [greedyFrom, List.length_singleton, Nat.succ_le_iff, List.length_pos_iff]
    rintro rfl
    have hnil : [] = before ++ run ++ [] := h.flatten
    simp [hrun] at hnil
  | cons token rest ih =>
    unfold greedyFrom
    split
    · have hlonger : Layout width (before ++ (run ++ [token]) ++ rest) runs := by simpa using h
      exact ih (List.concat_ne_nil token run) hlonger
    · rename_i hfull
      cases runs with
      | nil =>
        have hnil : [] = before ++ run ++ token :: rest := h.flatten
        simp at hnil
      | cons first others =>
        have heq : first ++ others.flatten = before ++ run ++ token :: rest := h.flatten
        have hbehind : ∃ more, others.flatten = more ++ [token] ++ rest := by
          rcases List.append_eq_append_iff.mp heq with ⟨more, -, hothers⟩ | ⟨more, hfirst, hothers⟩
          · exact ⟨more, by simpa using hothers⟩
          · cases more with
            | nil => exact ⟨[], by simpa using hothers.symm⟩
            | cons next more =>
              obtain ⟨rfl, -⟩ := List.cons.inj hothers
              have hfits := h.fits first List.mem_cons_self
              rw [hfirst] at hfits
              exact absurd hfits (not_fits_of_longer hrun hfull)
        obtain ⟨more, hmore⟩ := hbehind
        have htail := h.tail
        rw [hmore] at htail
        exact Nat.succ_le_succ (ih (by simp) htail)

theorem length_greedy_le (h : Layout width tokens runs) :
    (greedy width tokens).length ≤ runs.length := by
  cases tokens with
  | nil => exact Nat.zero_le _
  | cons token rest =>
    have hfirst : Layout width ([] ++ [token] ++ rest) runs := h
    exact length_greedyFrom_le (List.cons_ne_nil token []) hfirst

/-- Wrapping loses and moves nothing, keeps to the width where a line can, and takes as few lines as
there can be. -/
theorem wrap_optimal (width : Nat) {tokens : List String} (h : ∀ token ∈ tokens, token ≠ "") :
    (∃ runs, Layout width tokens runs ∧ wrap width tokens = runs.map lineOf) ∧
    String.intercalate " " (wrap width tokens) = String.intercalate " " tokens ∧
    (∀ line ∈ wrap width tokens, line.length ≤ width ∨ line ∈ tokens) ∧
    ∀ others, Layout width tokens others → (wrap width tokens).length ≤ others.length := by
  have hlayout := layout_greedy width tokens
  have hwrap : wrap width tokens = _ := wrap_eq h
  refine ⟨⟨greedy width tokens, hlayout, hwrap⟩, ?_, ?_, ?_⟩
  · rw [hwrap]
    have hjoined := lineOf_flatten hlayout.ne_nil
    rwa [hlayout.flatten] at hjoined
  · intro line hline
    rw [hwrap] at hline
    obtain ⟨run, hrun, rfl⟩ := List.mem_map.mp hline
    rcases hlayout.fits run hrun with hnarrow | hsingle
    · exact Or.inl hnarrow
    · obtain ⟨token, rfl⟩ := List.length_eq_one_iff.mp hsingle
      right
      have htoken := List.mem_flatten_of_mem hrun List.mem_cons_self
      rw [hlayout.flatten] at htoken
      simpa [lineOf] using htoken
  · intro others hothers
    rw [hwrap, List.length_map]
    exact length_greedy_le hothers

theorem wrap_optimal_ledger :
    (∀ token ∈ ["a", "ledger entry", "of", "one", "day"], token ≠ "") ∧
      wrap 6 ["a", "ledger entry", "of", "one", "day"] = ["a", "ledger entry", "of one", "day"] ∧
      ∀ others, Layout 6 ["a", "ledger entry", "of", "one", "day"] others → 4 ≤ others.length := by
  have htokens : ∀ token ∈ ["a", "ledger entry", "of", "one", "day"], token ≠ "" := by decide
  have hwrap : wrap 6 ["a", "ledger entry", "of", "one", "day"] =
      ["a", "ledger entry", "of one", "day"] := by decide
  obtain ⟨_, _, _, hleast⟩ := wrap_optimal 6 htokens
  rw [hwrap] at hleast
  exact ⟨htokens, hwrap, hleast⟩

/-! ## The prose of a comment -/

theorem ne_empty_of_mem_prose {lines : List String} {token : String}
    (h : token ∈ (classify lines).prose) : token ≠ "" := by
  have hreading := reading_pieces (lines.flatMap lineWords)
  rw [classify_eq] at h
  obtain ⟨p, hp, rfl⟩ := exists_piece_of_mem (List.mem_append_right _ h)
  have hword := hreading.isWord (fun w => isWord_of_mem_flatMap) hp
  intro hempty
  have hwords := words_joinWith hword
  rw [← Piece.text, String.ofList_eq_empty_iff.mp hempty] at hwords
  exact (hreading.isToken p hp).ne_nil hwords.symm

/-- What a template is given of a comment is its prose in as few lines as there can be. -/
theorem docs_optimal (lines : List String) :
    ∃ runs, Layout Comment.width (classify lines).prose runs ∧
      (classify lines).docs = runs.map lineOf ∧
      ∀ others, Layout Comment.width (classify lines).prose others →
        runs.length ≤ others.length :=
  ⟨greedy Comment.width (classify lines).prose, layout_greedy _ _,
    wrap_eq fun _ => ne_empty_of_mem_prose, fun _ => length_greedy_le⟩

end ServiceLoom.Comment

import ServiceLoom.Proofs.Recipe.Registration
import ServiceLoom.Proofs.Recipe.Report
import ServiceLoom.Proofs.Recipe.Steps

/-!
# Recipes leave each other alone

A recipe that is put in, taken out or exchanged changes no contribution but its own, so neither a
failure nor a gate of one recipe reaches another. Services leave each other alone as well.
-/

namespace ServiceLoom.RecipeBook

variable {book : RecipeBook} {services : List Service} {before after : List (String × Recipe)}
  {call : String × Recipe}

/-- The contributions of some recipes are those that these recipes make by themselves. -/
theorem filter_contributions (p : String → Bool) :
    (book.contributions services).filter (p ·.recipe) =
      contributions ⟨book.recipes.filter (p ·.1)⟩ services := by
  have hown (s : Service) (entry : String × Recipe) :
      (Contribution.of? s entry).filter (p ·.recipe) =
        if p entry.1 then Contribution.of? s entry else none := by
    cases h : Contribution.of? s entry with
    | none => simp
    | some c => simp [Option.filter, Contribution.recipe_of_of? h]
  simp only [contributions, List.filter_flatMap, List.filter_filterMap, List.filterMap_filter, hown]

theorem contributions_of_not_mem (h : call.1 ∉ (before ++ after).map (·.1)) :
    (contributions ⟨before ++ call :: after⟩ services).filter (·.recipe ≠ call.1) =
        contributions ⟨before ++ after⟩ services ∧
      (contributions ⟨before ++ call :: after⟩ services).filter (·.recipe = call.1) =
        contributions ⟨[call]⟩ services := by
  have hother : ∀ entry ∈ before ++ after, entry.1 ≠ call.1 := by
    rintro entry hentry heq
    exact h (List.mem_map.mpr ⟨entry, hentry, heq⟩)
  obtain ⟨hbefore, hafter⟩ := List.forall_mem_append.mp hother
  constructor
  · rw [filter_contributions fun name => decide (name ≠ call.1)]
    have hkept (entries : List (String × Recipe)) (hne : ∀ entry ∈ entries, entry.1 ≠ call.1) :
        entries.filter (fun entry => decide (entry.1 ≠ call.1)) = entries :=
      List.filter_eq_self.mpr fun entry hentry => decide_eq_true (hne entry hentry)
    rw [List.filter_append, List.filter_cons_of_neg (by simp), hkept before hbefore,
      hkept after hafter]
  · rw [filter_contributions fun name => decide (name = call.1)]
    have hdropped (entries : List (String × Recipe)) (hne : ∀ entry ∈ entries, entry.1 ≠ call.1) :
        entries.filter (fun entry => decide (entry.1 = call.1)) = [] :=
      List.filter_eq_nil_iff.mpr fun entry hentry => by simpa using hne entry hentry
    rw [List.filter_append, List.filter_cons_of_pos (by simp), hdropped before hbefore,
      hdropped after hafter, List.nil_append]

theorem generateAll_append (services more : List Service) :
    book.generateAll (services ++ more) = book.generateAll services ++ book.generateAll more := by
  simp only [generateAll_eq, contributions, List.flatMap_append, Report.ofContributions_append]

/-- Registrations lead to books with distinct names, and to all of them. The report of a book is
what its recipes contribute. With one recipe more, less or another one in its place the
contributions of the others stay as they are, and the reports of two lists of services follow each
other. -/
theorem generateAll_isolates (calls : List (String × Recipe)) (services : List Service) :
    HoldsFirsts calls (ofCalls calls) ∧
    (∀ name recipe, (ofCalls calls).register name recipe =
      if name ∈ calls.map (·.1) then .error (registeredTwice name)
      else .ok ⟨(ofCalls calls).recipes ++ [(name, recipe)]⟩) ∧
    ((calls.map (·.1)).Nodup → ofCalls calls = ⟨calls⟩) ∧
    (∀ book : RecipeBook,
      book.generateAll services = Report.ofContributions (book.contributions services) ∧
      ∀ more, book.generateAll (services ++ more) =
        book.generateAll services ++ book.generateAll more) ∧
    ∀ before call after, call.1 ∉ (before ++ after).map (·.1) →
      (contributions ⟨before ++ call :: after⟩ services).filter (·.recipe ≠ call.1) =
          contributions ⟨before ++ after⟩ services ∧
        (contributions ⟨before ++ call :: after⟩ services).filter (·.recipe = call.1) =
          contributions ⟨[call]⟩ services ∧
        ∀ other, other.1 ∉ (before ++ after).map (·.1) →
          (contributions ⟨before ++ other :: after⟩ services).filter (·.recipe ≠ other.1) =
            (contributions ⟨before ++ call :: after⟩ services).filter (·.recipe ≠ call.1) := by
  refine ⟨holdsFirsts_ofCalls calls, register_ofCalls, ofCalls_of_nodup,
    fun book => ⟨generateAll_eq, generateAll_append services⟩, ?_⟩
  intro before call after hcall
  obtain ⟨hothers, hown⟩ := contributions_of_not_mem hcall
  refine ⟨hothers, hown, fun other hother => ?_⟩
  rw [(contributions_of_not_mem hother).1, hothers]

section Roster

open Recipe (roster rosterRecipe leaving refusing)

/-- The second recipe fails, and the third call is refused. -/
def rosterCalls : List (String × Recipe) :=
  [("plain", rosterRecipe true []), ("refusing", rosterRecipe true [refusing]),
    ("plain", rosterRecipe true [leaving]), ("closed", rosterRecipe false []),
    ("leaving", rosterRecipe true [leaving])]

theorem generateAll_isolates_roster :
    (ofCalls rosterCalls).names = ["plain", "refusing", "closed", "leaving"] ∧
      ((ofCalls rosterCalls).names).Nodup ∧
      ofCalls (rosterCalls.drop 1) = ⟨rosterCalls.drop 1⟩ ∧
      (ofCalls rosterCalls).generateAll [roster] =
        ⟨[⟨⟨"txt", "", "roster.txt", false, false⟩, "# roster\nclubsRosterService"⟩,
            ⟨⟨"txt", "", "roster.txt", false, false⟩, "# roster\nclubsRosterServiceLeave"⟩],
          [⟨"refusing", "RosterService", .generatorFailed "refusing" "Leave"⟩]⟩ ∧
      (contributions ⟨rosterCalls.drop 1⟩ [roster]).filter (·.recipe ≠ "refusing") =
        contributions ⟨rosterCalls.drop 2⟩ [roster] ∧
      (contributions ⟨("refusing", rosterRecipe false []) :: rosterCalls.drop 2⟩ [roster]).filter
          (·.recipe ≠ "refusing") =
        (contributions ⟨rosterCalls.drop 1⟩ [roster]).filter (·.recipe ≠ "refusing") := by
  obtain ⟨hfirsts, -⟩ := generateAll_isolates rosterCalls [roster]
  obtain ⟨-, -, hdistinct, -, hothers⟩ := generateAll_isolates (rosterCalls.drop 1) [roster]
  have hnew : "refusing" ∉ (rosterCalls.drop 2).map (·.1) := by decide
  obtain ⟨hkept, -, hreplaced⟩ := hothers [] ("refusing", rosterRecipe true [refusing])
    (rosterCalls.drop 2) hnew
  have hnames : (ofCalls rosterCalls).names = ["plain", "refusing", "closed", "leaving"] := by
    decide
  have hreport : (ofCalls rosterCalls).generateAll [roster] =
      ⟨[⟨⟨"txt", "", "roster.txt", false, false⟩, "# roster\nclubsRosterService"⟩,
          ⟨⟨"txt", "", "roster.txt", false, false⟩, "# roster\nclubsRosterServiceLeave"⟩],
        [⟨"refusing", "RosterService", .generatorFailed "refusing" "Leave"⟩]⟩ := by
    decide
  exact ⟨hnames, hfirsts.distinct, hdistinct (by decide), hreport, hkept,
    hreplaced ("refusing", rosterRecipe false []) hnew⟩

end Roster

end ServiceLoom.RecipeBook

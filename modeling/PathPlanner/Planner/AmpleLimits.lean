import PathPlanner.Planner.Budgets
import PathPlanner.Planner.Outcome

set_option autoImplicit false

namespace PathPlanner

open Mapping EnumerateSets BuildPool Enumerate

namespace Analyse

variable {state : PlannerState} {limits : PlannerLimits} {task : EnumerationTask}

end Analyse

namespace PlanCollective

open Analyse

variable {state : PlannerState} {limits : PlannerLimits}

-- Every recorded plan comes from an analysis that starts with nothing blocked.
theorem analyse_all_plans (stateSound : PlannerState.Sound state) (left index : Nat) (scratch : SearchScratch)
    (ready : scratch.Ready) (position : Nat) (plan : EdgePlan)
    (stored : (analyseAll state limits left index scratch).1[position]? = some plan) :
    EdgeVerdict state limits (index + position) plan := by
  induction left generalizing index scratch position with
  | zero => simp [analyseAll] at stored
  | succ left ih =>
      obtain ⟨verdict, after⟩ := analyse_logical_edge_verdict state stateSound limits scratch ready index
      rw [analyseAll] at stored
      generalize analyseLogicalEdge state limits scratch index = analysed at verdict after stored
      obtain ⟨first, later⟩ := analysed
      dsimp only at verdict after stored
      have split : ∀ others : List EdgePlan, (first :: others)[position]? = some plan →
          position = 0 ∧ plan = first ∨ ∃ rest, position = rest + 1 ∧ others[rest]? = some plan := by
        intro others found
        cases position with
        | zero => exact Or.inl ⟨rfl, (Option.some.inj found).symm⟩
        | succ rest => exact Or.inr ⟨rest, rfl, found⟩
      split_ifs at stored
      · rcases split _ stored with ⟨rfl, rfl⟩ | ⟨rest, rfl, found⟩
        · exact verdict
        · simp at found
      · rcases split _ stored with ⟨rfl, rfl⟩ | ⟨rest, rfl, found⟩
        · exact verdict
        · have there := ih (index + 1) later after rest found
          rwa [show index + (rest + 1) = index + 1 + rest by omega]

theorem analyse_all_length (left index : Nat) (scratch : SearchScratch)
    (passed : ∀ plan ∈ (analyseAll state limits left index scratch).1, plan.failed = false) :
    (analyseAll state limits left index scratch).1.length = left := by
  induction left generalizing index scratch with
  | zero => rfl
  | succ left ih =>
      rw [analyseAll] at passed ⊢
      generalize analyseLogicalEdge state limits scratch index = analysed at passed ⊢
      obtain ⟨first, later⟩ := analysed
      dsimp only at passed ⊢
      have good : first.failed = false := by
        refine passed first ?_
        split_ifs <;> simp
      rw [good, Bool.false_and, if_neg (by decide)] at passed ⊢
      dsimp only at passed ⊢
      rw [List.length_cons, ih (index + 1) later fun plan member => passed plan (List.mem_cons_of_mem _ member)]

end PlanCollective

end PathPlanner

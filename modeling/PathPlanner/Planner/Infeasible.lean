import PathPlanner.Planner.OutcomeSound

set_option autoImplicit false

namespace PathPlanner

open Mapping SolveGlobal Ranking Analyse

namespace PlanCollective

variable {request : PlanningRequest} {cap : Nat}

-- The verdict recorded for one logical edge holds of every set of paths, whatever the limits.
theorem proven_infeasible_edge_sound (input : BuiltRequest) (limits : PlannerLimits) (room : 1 ≤ limits.maxSetAlternatives)
    (position : Nat) (logical : LogicalEdge) (listed : input.request.collective.logicalEdges[position]? = some logical)
    (plan : EdgePlan) (stored : (recorded input.request limits)[position]? = some plan) (failed : plan.failed = true)
    (proven : plan.kind = .provenInfeasible) (source target : EndpointBinding) (left : BoundTo input.request logical.src source)
    (right : BoundTo input.request logical.dst target) (apart : source.node ≠ target.node) :
    ¬ ∃ routes, AdmissibleSet input.request source target routes := by
  rintro ⟨routes, admissible⟩
  have verdict := recorded_verdict input.sound position plan stored
  have logicalIs : (initialState input.request limits).request.collective.logicalEdges.getD position {} = logical := by
    rw [List.getD_eq_getElem?_getD]
    change (input.request.collective.logicalEdges[position]?).getD {} = logical
    rw [listed, Option.getD_some]
  have holds := verdict.proven
  rw [logicalIs] at holds
  exact holds failed proven room source target left right apart routes admissible

-- A root bound below its leaf: no edge leads up.
def uphill : BuiltRequest :=
  .of (Sample.request .tree (Sample.star ["p", "q"]) 1 (Sample.fabric ["a", "b"] [Sample.edge "e" "a" "b" 1 10])
    [Sample.binding "p" "b", Sample.binding "q" "a"]) (draft_accepted _ (by decide +kernel))

theorem uphill_unreachable :
    ¬ ∃ routes, AdmissibleSet uphill.request (Sample.binding "p" "b") (Sample.binding "q" "a") routes := by
  have stored : (recorded uphill.request {})[0]? = some ((recorded uphill.request {}).getD 0 {}) := by
    rw [BuiltRequest.drafted, List.getD_eq_getElem?_getD, List.getElem?_eq_getElem (by decide +kernel), Option.getD_some]
  refine proven_infeasible_edge_sound uphill {} (by decide) 0 ⟨⟨text "p"⟩, ⟨text "q"⟩⟩ ?_ _ stored ?_ ?_
    (Sample.binding "p" "b") (Sample.binding "q" "a") ⟨?_, rfl⟩ ⟨?_, rfl⟩ (by decide +kernel)
  all_goals
    rw [BuiltRequest.drafted]
    decide +kernel

theorem planned_fits (sound : PlanningRequest.Sound request) (limits : PlannerLimits)
    (planned : (planCollective request limits).plan.isSome = true) : ∃ assignment, FittingAssignment request assignment := by
  by_cases passed : Passed request limits
  · rcases outcome_concluded sound passed with ⟨_, none, _, _⟩ | ⟨_, _, _, _, none, _, _⟩ | ⟨best, found, _, _, _, _⟩
    · simp [none] at planned
    · simp [none] at planned
    · obtain ⟨choice, feasible, _⟩ := (solution_solved sound passed).found best found
      obtain ⟨assignment, _, fits, _⟩ := feasible_assignment sound (recorded_stocks sound passed) choice feasible
      exact ⟨assignment, fits⟩
  · simp [(outcome_failed sound passed).2.1] at planned

-- Two leaves share a node that two edges of unit capacity reach.
def twoLeaves : BuiltRequest :=
  .of (Sample.request .tree (Sample.star ["p", "q", "r"]) 1
    (Sample.fabric ["a", "b"] [Sample.edge "e1" "a" "b" 1 10, Sample.edge "e2" "a" "b" 1 20])
    [Sample.binding "p" "a", Sample.binding "q" "b", Sample.binding "r" "b"]) (draft_accepted _ (by decide +kernel))

theorem two_leaves_planned : (planCollective twoLeaves.request {}).plan.isSome = true := by
  rw [BuiltRequest.drafted]
  decide +kernel

end PlanCollective

end PathPlanner

import PathPlanner.Planner.Selection

set_option autoImplicit false

namespace PathPlanner

open Mapping SolveGlobal Ranking Analyse

namespace PlanCollective

variable {request : PlanningRequest} {limits : PlannerLimits}

-- The plans recorded for the logical edges of a request.
def recorded (request : PlanningRequest) (limits : PlannerLimits) : List EdgePlan :=
  (analyseAll (initialState request limits) limits request.collective.logicalEdges.length 0 {}).1

def solution (request : PlanningRequest) (limits : PlannerLimits) : GlobalResult :=
  solveGlobal (recorded request limits) (initialState request limits).spare limits.maxGlobalNodes

def Passed (request : PlanningRequest) (limits : PlannerLimits) : Prop :=
  ∀ plan ∈ recorded request limits, plan.failed = false

theorem initial_sound (sound : PlanningRequest.Sound request) : PlannerState.Sound (initialState request limits) := ⟨sound, rfl⟩

theorem recorded_verdict (sound : PlanningRequest.Sound request) (position : Nat) (plan : EdgePlan)
    (stored : (recorded request limits)[position]? = some plan) :
    EdgeVerdict (initialState request limits) limits position plan := by
  have verdict := analyse_all_plans (initial_sound sound) _ 0 {} initial_ready position plan stored
  rwa [Nat.zero_add] at verdict

theorem analyse_all_supported (state : PlannerState) (left index : Nat) (scratch : SearchScratch) :
    ∀ plan ∈ (analyseAll state limits left index scratch).1, plan.kind ≠ .unsupportedConstraint := by
  induction left generalizing index scratch with
  | zero => simp [analyseAll]
  | succ left ih =>
      have first := analyse_logical_edge_supported state limits scratch index
      rw [analyseAll]
      dsimp only
      split_ifs
      · intro plan member
        rw [List.mem_singleton.mp member]
        exact first
      · intro plan member
        rcases List.mem_cons.mp member with rfl | later
        · exact first
        · exact ih _ _ plan later

theorem recorded_supported (plan : EdgePlan) (listed : plan ∈ recorded request limits) : plan.kind ≠ .unsupportedConstraint :=
  analyse_all_supported _ _ _ _ plan listed

theorem recorded_length (passed : Passed request limits) :
    (recorded request limits).length = request.collective.logicalEdges.length := analyse_all_length _ _ _ passed

theorem recorded_stocks (sound : PlanningRequest.Sound request) (passed : Passed request limits) :
    Stocks request limits.maxSetAlternatives request.collective.logicalEdges (recorded request limits) := by
  refine List.forall₂_iff_get.mpr ⟨(recorded_length passed).symm, fun position left right => ?_⟩
  have stored : (recorded request limits)[position]? = some ((recorded request limits).get ⟨position, right⟩) := by
    simp [right]
  have verdict := recorded_verdict sound position _ stored
  have member := passed _ (List.mem_of_getElem? stored)
  obtain ⟨task, edgeTask, kept⟩ := verdict.kept member
  have logical : (initialState request limits).request.collective.logicalEdges.getD position {} =
      request.collective.logicalEdges.get ⟨position, left⟩ := by
    simp [initialState, List.getD_eq_getElem?_getD, left]
  rw [logical] at edgeTask
  exact verdict_stocked (initial_sound sound) edgeTask _ member kept

theorem recorded_distinct (sound : PlanningRequest.Sound request) (passed : Passed request limits) :
    Distinct (recorded request limits) := stocks_distinct (recorded_stocks sound passed)

theorem solution_solved (sound : PlanningRequest.Sound request) (passed : Passed request limits) :
    Solved (recorded request limits) (stateOf request).spare limits.maxGlobalNodes (solution request limits) :=
  solve_global_solved (recorded_distinct sound passed) _ _

theorem denials_nonempty (failed : ¬ Passed request limits) :
    ((recorded request limits).filter EdgePlan.failed).map denialOf ≠ [] := by
  unfold Passed at failed
  push Not at failed
  obtain ⟨plan, member, bad⟩ := failed
  intro empty
  rw [List.map_eq_nil_iff, List.filter_eq_nil_iff] at empty
  exact empty plan member (by simpa using bad)

theorem denials_empty (passed : Passed request limits) : ((recorded request limits).filter EdgePlan.failed).map denialOf = [] := by
  rw [List.map_eq_nil_iff, List.filter_eq_nil_iff]
  intro plan member
  simp [passed plan member]

theorem outcome_failed (sound : PlanningRequest.Sound request) (failed : ¬ Passed request limits) :
    (planCollective request limits).denials = ((recorded request limits).filter EdgePlan.failed).map denialOf ∧
      (planCollective request limits).plan = none ∧ (planCollective request limits).optimal = false := by
  have some : ((analyseAll (initialState request limits) limits request.collective.logicalEdges.length 0 {}).1.filter
      EdgePlan.failed).map denialOf ≠ [] := denials_nonempty failed
  unfold planCollective
  rw [sound.validated]
  dsimp only
  rw [if_pos some]
  exact ⟨rfl, rfl, rfl⟩

def assembled (request : PlanningRequest) (limits : PlannerLimits) (best : GlobalCandidate) : Plan :=
  assemble request (perPathShare request) (recorded request limits) (chosenSets (recorded request limits) best.choice)

-- The answer once every logical edge has passed.
inductive Concluded (request : PlanningRequest) (limits : PlannerLimits) (outcome : PlanningOutcome) : Prop where
  | denied (none : (solution request limits).best = none) (plan : outcome.plan = Option.none) (optimal : outcome.optimal = false)
      (denials : outcome.denials = [globalDenial (recorded request limits) (solution request limits)])
  | rejected (best : GlobalCandidate) (status : Status) (found : (solution request limits).best = some best)
      (invalid : validatePlan (assembled request limits best) request = .error status) (plan : outcome.plan = Option.none)
      (optimal : outcome.optimal = false) (denials : outcome.denials = [selfCheckDenial status])
  | planned (best : GlobalCandidate) (found : (solution request limits).best = some best)
      (valid : validatePlan (assembled request limits best) request = .ok ())
      (plan : outcome.plan = some (assembled request limits best))
      (optimal : outcome.optimal = (solution request limits).exhaustive) (denials : outcome.denials = [])

theorem outcome_concluded (sound : PlanningRequest.Sound request) (passed : Passed request limits) :
    Concluded request limits (planCollective request limits) := by
  have empty := denials_empty passed
  unfold planCollective
  rw [sound.validated]
  dsimp only
  change Concluded request limits (if ((recorded request limits).filter EdgePlan.failed).map denialOf ≠ [] then _ else
    concludeGlobal _ _ (recorded request limits) _)
  rw [if_neg (not_not.mpr empty)]
  unfold concludeGlobal
  dsimp only
  have searched : solveGlobal (recorded request limits) (initialState request limits).spare limits.maxGlobalNodes = solution request limits := rfl
  have own : (initialState request limits).request = request := rfl
  rw [searched, own]
  cases found : (solution request limits).best with
  | none => exact .denied found rfl rfl rfl
  | some best =>
      dsimp only
      have built : assemble request (initialState request limits).perPathDemand (recorded request limits)
          (chosenSets (recorded request limits) best.choice) = assembled request limits best := rfl
      rw [built]
      cases valid : validatePlan (assembled request limits best) request with
      | error status => exact .rejected best status found valid rfl rfl rfl
      | ok _ => exact .planned best found valid rfl rfl empty

end PlanCollective

end PathPlanner

import PathPlanner.Planner.AssembledValid
import PathPlanner.Planner.Infeasible

set_option autoImplicit false

namespace PathPlanner

open Mapping SolveGlobal Ranking

namespace PlanCollective

section Reading

variable (request : PlanningRequest)

-- The route a path of a plan follows; an edge outside the fabric reads as a position past its end.
def routeOf (path : PathPlan) : Route :=
  path.hops.map fun hop => (request.fabric.edgePositions.find hop.edge).getD request.fabric.edges.length

-- The routes that a plan gives to every logical edge, in their order.
def assignmentOf (plan : Plan) : Assignment :=
  (List.range request.collective.logicalEdges.length).map fun index =>
    (ValidatePlan.siblingsOf plan.paths (index + 1)).map (routeOf request)

-- What a plan promises, in terms of the request and of the edges its hops name.
structure PlanContract (plan : Plan) : Prop where
  fitting : FittingAssignment request (assignmentOf request plan)
  hops : ∀ path ∈ plan.paths, path.hops = (routeOf request path).map (hopOf request)
  cost : ∀ path ∈ plan.paths, path.cost.toNat = routeCost request (routeOf request path)
  ends : ∀ path ∈ plan.paths, ∃ index < request.collective.logicalEdges.length, path.logicalEdge.value.toNat = index + 1 ∧
    path.src = (request.collective.logicalEdges.getD index {}).src ∧
    path.dst = (request.collective.logicalEdges.getD index {}).dst

end Reading

variable {request : PlanningRequest} {limits : PlannerLimits} {plan : Plan} {assignment : Assignment}

theorem route_of_path_for (sound : PlanningRequest.Sound request) (id index : Nat) (route : Route)
    (stored : ∀ edge ∈ route, edge < request.fabric.edges.length) :
    routeOf request (pathFor request id index route) = route := by
  rw [routeOf, pathFor, List.map_map]
  refine (List.map_congr_left fun edge member => ?_).trans (List.map_id route)
  have found := (sound.fabric.edgeAt _ edge).mpr (FabricGraph.edge_id_stored request.fabric edge (stored edge member))
  simp only [Function.comp_apply, hop_edge_id, found, Option.getD_some, id_eq]

theorem assignment_of_paths_for (sound : PlanningRequest.Sound request) (fitting : FittingAssignment request assignment)
    (paths : plan.paths = pathsFor request assignment) : assignmentOf request plan = assignment := by
  refine List.ext_getElem ?_ fun index left right => ?_
  · rw [assignmentOf, List.length_map, List.length_range, fitting.admissible.length_eq]
  · obtain ⟨numbered, routes, siblings⟩ := siblings_for sound fitting index
    obtain ⟨_, _, _, _, admissible⟩ := admissible_at fitting index right
    have here : assignment.getD index [] = assignment[index] := by
      rw [List.getD_eq_getElem?_getD, List.getElem?_eq_getElem right, Option.getD_some]
    rw [here] at routes admissible
    simp only [assignmentOf, List.getElem_map, List.getElem_range, paths, siblings, List.map_map]
    refine (List.map_congr_left fun entry member => ?_).trans routes
    refine route_of_path_for sound _ _ _ (admissible.compliant entry.2 ?_).stored
    rw [← routes]
    exact List.mem_map_of_mem member

-- A plan is returned exactly as it was assembled from a fitting assignment.
theorem planned_assembles (sound : PlanningRequest.Sound request) (planned : (planCollective request limits).plan = some plan) :
    ∃ best assignment, (solution request limits).best = some best ∧ plan = assembled request limits best ∧
      Assembles request (recorded request limits) (chosenSets (recorded request limits) best.choice) assignment ∧
      (planCollective request limits).optimal = (solution request limits).exhaustive := by
  by_cases passed : Passed request limits
  · rcases outcome_concluded sound passed with ⟨_, none, _, _⟩ | ⟨_, _, _, _, none, _, _⟩ | ⟨best, found, _, returned, optimal, _⟩
    · simp [none] at planned
    · simp [none] at planned
    · obtain ⟨assignment, assembles⟩ := assembled_from request sound passed best found
      rw [returned, Option.some.injEq] at planned
      exact ⟨best, assignment, found, planned.symm, assembles, optimal⟩
  · simp [(outcome_failed sound passed).2.1] at planned

theorem planned_valid (input : BuiltRequest) (planned : (planCollective input.request limits).plan = some plan) :
    validatePlan plan input.request = .ok () := by
  obtain ⟨best, assignment, _, rfl, assembles, _⟩ := planned_assembles input.sound planned
  exact assemble_valid input.sound input.named assembles

-- Every path of an assembled plan stands for a compliant route of its logical edge.
theorem assembled_path (sound : PlanningRequest.Sound request) (best : GlobalCandidate)
    (assembles : Assembles request (recorded request limits) (chosenSets (recorded request limits) best.choice) assignment) :
    ∀ path ∈ (assembled request limits best).paths, ∃ id index route, index < assignment.length ∧
      (∃ source target, CompliantRoute request source target route) ∧ path = pathFor request id index route := by
  have paths : (assembled request limits best).paths = pathsFor request assignment := assembles.paths sound
  intro path member
  rw [paths] at member
  obtain ⟨position, stored⟩ := List.mem_iff_getElem?.mp member
  obtain ⟨placedAt, found, eq⟩ := paths_for_get assignment position path stored
  have listed := List.mem_of_getElem? found
  have inside := placed_inside assignment placedAt listed
  obtain ⟨source, target, _, _, admissible⟩ := admissible_at assembles.fitting placedAt.1 inside
  exact ⟨_, _, _, inside, ⟨source, target, admissible.compliant _ ((placed_mem assignment placedAt).mp listed)⟩, eq⟩

-- Every plan the planner returns keeps the whole contract, whatever the limits.
theorem planner_safe (input : BuiltRequest) (limits : PlannerLimits) (plan : Plan)
    (planned : (planCollective input.request limits).plan = some plan) : PlanContract input.request plan := by
  obtain ⟨best, assignment, _, rfl, assembles, _⟩ := planned_assembles input.sound planned
  have fitting := assembles.fitting
  have paths : (assembled input.request limits best).paths = pathsFor input.request assignment := assembles.paths input.sound
  have entry := assembled_path input.sound best assembles
  refine ⟨by rwa [assignment_of_paths_for input.sound fitting paths], fun path member => ?_, fun path member => ?_,
    fun path member => ?_⟩
  · obtain ⟨id, index, route, _, ⟨_, _, compliant⟩, rfl⟩ := entry path member
    rw [route_of_path_for input.sound id index route compliant.stored]
    rfl
  · obtain ⟨id, index, route, _, ⟨_, _, compliant⟩, rfl⟩ := entry path member
    rw [route_of_path_for input.sound id index route compliant.stored]
    exact route_cost_word route
  · obtain ⟨id, index, route, inside, _, rfl⟩ := entry path member
    rw [← fitting.admissible.length_eq] at inside
    exact ⟨index, inside, path_for_edge input.sound id index route inside, rfl, rfl⟩

-- The plan of the two leaves, each over an edge of its own.
def twoLeavesPlan : Plan := (planCollective twoLeaves.request {}).plan.getD {}

theorem two_leaves_plan : (planCollective twoLeaves.request {}).plan = some twoLeavesPlan := by
  obtain ⟨plan, planned⟩ := Option.isSome_iff_exists.mp two_leaves_planned
  rw [twoLeavesPlan, planned, Option.getD_some]

theorem two_leaves_safe : PlanContract twoLeaves.request twoLeavesPlan := planner_safe twoLeaves {} twoLeavesPlan two_leaves_plan

-- What the planner assembles, its own validator accepts; the self check never denies.
theorem self_check_passes (input : BuiltRequest) (limits : PlannerLimits) :
    (∀ best, Passed input.request limits → (solution input.request limits).best = some best →
      validatePlan (assembled input.request limits best) input.request = .ok ()) ∧
    ∀ denial ∈ (planCollective input.request limits).denials, denial.kind ≠ .unsupportedConstraint := by
  have valid : ∀ best, Passed input.request limits → (solution input.request limits).best = some best →
      validatePlan (assembled input.request limits best) input.request = .ok () := by
    intro best passed found
    obtain ⟨assignment, assembles⟩ := assembled_from input.request input.sound passed best found
    exact assemble_valid input.sound input.named assembles
  refine ⟨valid, fun denial listed => ?_⟩
  by_cases passed : Passed input.request limits
  · rcases outcome_concluded input.sound passed with ⟨_, _, _, denials⟩ | ⟨best, _, found, invalid, _, _, _⟩ | ⟨_, _, _, _, _, denials⟩
    · rw [denials, List.mem_singleton] at listed
      rw [listed, globalDenial]
      split_ifs <;> simp
    · rw [valid best passed found] at invalid
      cases invalid
    · rw [denials] at listed
      simp at listed
  · rw [(outcome_failed input.sound passed).1] at listed
    obtain ⟨edgePlan, kept, rfl⟩ := List.mem_map.mp listed
    exact recorded_supported edgePlan (List.mem_of_mem_filter kept)

end PlanCollective

end PathPlanner

import PathPlanner.Planner.AmpleLimits
import PathPlanner.Objective

set_option autoImplicit false

namespace PathPlanner

open Mapping Walk EnumerateSets

namespace Ranking

variable (request : PlanningRequest)

-- The planner state of a request; nothing below depends on its budgets.
def stateOf : PlannerState := PlanCollective.initialState request {}

-- The form in which the planner compares sets of routes.
def setFor (routes : List Route) : PathSet := setOf (stateOf request) (routes.map (stateOf request).candidateOf)

def Before (lhs rhs : List Route) : Prop := pathSetLess (setFor request lhs) (setFor request rhs)

def LocalFirst (logical : LogicalEdge) (routes : List Route) : Prop :=
  AdmissibleFor request logical routes ∧ ∀ other, AdmissibleFor request logical other → ¬ Before request other routes

-- As many sets as are kept come strictly before this one.
def Outranked (cap : Nat) (logical : LogicalEdge) (routes : List Route) : Prop :=
  ∃ others : List (List Route), others.length = cap ∧ others.Pairwise (fun lhs rhs => ¬ lhs.Perm rhs) ∧
    ∀ other ∈ others, AdmissibleFor request logical other ∧ Before request other routes

def WithinCap (cap : Nat) (assignment : Assignment) : Prop :=
  List.Forall₂ (fun logical routes => ¬ Outranked request cap logical routes) request.collective.logicalEdges assignment

-- The first four components of the objective, with the total cost as the planner sums it.
abbrev SearchKey := Nat ×ₗ Nat ×ₗ Nat ×ₗ Natᵒᵈ

def searchKey (assignment : Assignment) : SearchKey :=
  toLex (min kCostCeiling (totalCost request assignment), toLex (siblingConflicts request assignment,
    toLex (largestCost request assignment, OrderDual.toDual (headroom request assignment))))

-- Assignments are explored in the order of their sets, edge by edge.
def setKeys (assignment : Assignment) : List PathSetKey := assignment.map fun routes => pathSetKey (setFor request routes)

def FirstsFit : Prop :=
  ∃ firsts : Assignment, List.Forall₂ (LocalFirst request) request.collective.logicalEdges firsts ∧ Fits request firsts.flatten

-- The assignment that the search for an answer prefers, whatever its budgets.
def Foremost (cap : Nat) (assignment : Assignment) : Prop :=
  List.Forall₂ (LocalFirst request) request.collective.logicalEdges assignment ∧ FirstsFit request ∨
    ¬ FirstsFit request ∧ WithinCap request cap assignment ∧
      ∀ other, FittingAssignment request other → WithinCap request cap other →
        searchKey request assignment < searchKey request other ∨
          searchKey request assignment = searchKey request other ∧ setKeys request assignment ≤ setKeys request other

theorem state_of_sound (sound : PlanningRequest.Sound request) : PlannerState.Sound (stateOf request) := ⟨sound, rfl⟩

theorem set_of_state (state : PlannerState) (sound : PlannerState.Sound state) (routes : List Route) :
    setOf state (routes.map state.candidateOf) = setFor state.request routes := by
  obtain ⟨request, demand, expansions, budget⟩ := state
  have share : demand = perPathShare request := sound.share
  subst share
  rfl

variable {request}

theorem candidate_key_route (route : Route) : candidateKey ((stateOf request).candidateOf route) = routeKey request route := rfl

theorem set_for_paths (routes : List Route) :
    (setFor request routes).paths = (canonicalOrder request routes).map (stateOf request).candidateOf := by
  have perm : (sortCandidates (routes.map (stateOf request).candidateOf)).Perm
      ((canonicalOrder request routes).map (stateOf request).candidateOf) :=
    (sort_candidates_perm _).trans ((canonical_order_perm request routes).symm.map _)
  have routed : ((canonicalOrder request routes).map (stateOf request).candidateOf).Pairwise
      (fun first second => candidateKey first ≤ candidateKey second) :=
    List.pairwise_map.mpr (canonical_order_sorted request routes)
  refine List.Perm.eq_of_pairwise ?_ (sort_candidates_sorted _) routed perm
  intro a b left right below above
  obtain ⟨first, _, rfl⟩ := List.mem_map.mp (perm.mem_iff.mp left)
  obtain ⟨second, _, rfl⟩ := List.mem_map.mp right
  rw [route_key_injective request first second (le_antisymm below above)]

theorem set_for_congr (lhs rhs : List Route) (perm : lhs.Perm rhs) : setFor request lhs = setFor request rhs := by
  have paths : (setFor request lhs).paths = (setFor request rhs).paths := by
    rw [set_for_paths, set_for_paths, canonical_order_congr request lhs rhs perm]
  change sortCandidates _ = sortCandidates _ at paths
  unfold setFor EnumerateSets.setOf buildPathSet
  simp only [paths]

theorem set_for_signature (routes : List Route) : (setFor request routes).signature = (canonicalOrder request routes).flatten := by
  have paths : sortCandidates (routes.map (stateOf request).candidateOf) = _ := @set_for_paths request routes
  change (sortCandidates (routes.map (stateOf request).candidateOf)).flatMap Candidate.edges = _
  rw [paths]
  exact flat_map_edges _ _

end Ranking

end PathPlanner

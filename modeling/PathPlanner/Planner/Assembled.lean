import PathPlanner.Planner.OutcomeSound
import PathPlanner.Names
import PathPlanner.PlanCapacity

set_option autoImplicit false

namespace PathPlanner

open Mapping SolveGlobal Ranking

namespace PlanCollective

variable (request : PlanningRequest)

-- The plan that an assignment stands for, in terms of the request alone.
def pathFor (id index : Nat) (route : Route) : PathPlan where
  id := ⟨UInt64.ofNat id⟩
  logicalEdge := ⟨UInt64.ofNat (index + 1)⟩
  src := (request.collective.logicalEdges.getD index {}).src
  dst := (request.collective.logicalEdges.getD index {}).dst
  stage := UInt32.ofNat (request.collective.logicalEdgeStage.getD index 0)
  hops := route.map (hopOf request)
  cost := UInt64.ofNat (routeCost request route)
  bottleneckMbps := UInt64.ofNat ((stateOf request).pathBottleneck route)
  domainSignature := routeSignature request route
  weakestEvidence := (stateOf request).pathEvidence route

-- Every route beside the position of its logical edge.
def placedFrom (index : Nat) : Assignment → List (Nat × Route)
  | [] => []
  | routes :: rest => routes.map (fun route => (index, route)) ++ placedFrom (index + 1) rest

def placed (assignment : Assignment) : List (Nat × Route) := placedFrom 0 assignment

def pathsFor (assignment : Assignment) : List PathPlan :=
  (placed assignment).mapIdx fun position entry => pathFor request (position + 1) entry.1 entry.2

theorem placed_from_routes (assignment : Assignment) (start : Nat) :
    (placedFrom start assignment).map Prod.snd = assignment.flatten := by
  induction assignment generalizing start with
  | nil => rfl
  | cons routes rest ih =>
      rw [placedFrom, List.map_append, ih, List.map_map, List.flatten_cons]
      exact congrArg (· ++ rest.flatten) (List.map_id routes)

theorem placed_routes (assignment : Assignment) : (placed assignment).map Prod.snd = assignment.flatten :=
  placed_from_routes assignment 0

theorem placed_from_beyond (assignment : Assignment) (start index : Nat) (below : index < start) :
    (placedFrom start assignment).filter (fun entry => entry.1 = index) = [] := by
  induction assignment generalizing start with
  | nil => rfl
  | cons routes rest ih =>
      rw [placedFrom, List.filter_append, ih (start + 1) (by omega), List.append_nil, List.filter_eq_nil_iff]
      intro entry member
      obtain ⟨route, _, rfl⟩ := List.mem_map.mp member
      simp only [decide_eq_true_eq]
      omega

theorem placed_from_filter (assignment : Assignment) (start index : Nat) :
    (placedFrom start assignment).filter (fun entry => entry.1 = start + index) =
      (assignment.getD index []).map fun route => (start + index, route) := by
  induction assignment generalizing start index with
  | nil => rfl
  | cons routes rest ih =>
      rw [placedFrom, List.filter_append]
      cases index with
      | zero =>
          rw [placed_from_beyond rest (start + 1) (start + 0) (by omega), List.append_nil, List.getD_cons_zero,
            List.filter_eq_self.mpr]
          · simp
          · intro entry member
            obtain ⟨route, _, rfl⟩ := List.mem_map.mp member
            simp
      | succ index =>
          have here : (routes.map fun route => (start, route)).filter (fun entry => entry.1 = start + (index + 1)) = [] := by
            rw [List.filter_eq_nil_iff]
            intro entry member
            obtain ⟨route, _, rfl⟩ := List.mem_map.mp member
            simp
          have shift : start + (index + 1) = start + 1 + index := by omega
          rw [here, List.nil_append, List.getD_cons_succ, shift, ih]

theorem placed_filter (assignment : Assignment) (index : Nat) :
    (placed assignment).filter (fun entry => entry.1 = index) = (assignment.getD index []).map fun route => (index, route) := by
  have all := placed_from_filter assignment 0 index
  simp only [Nat.zero_add] at all
  exact all

theorem placed_mem (assignment : Assignment) (entry : Nat × Route) :
    entry ∈ placed assignment ↔ entry.2 ∈ assignment.getD entry.1 [] := by
  have listed : entry ∈ placed assignment ↔ entry ∈ (placed assignment).filter fun other => other.1 = entry.1 := by
    simp
  rw [listed, placed_filter, List.mem_map]
  constructor
  · rintro ⟨route, member, same⟩
    rwa [← same]
  · intro member
    exact ⟨entry.2, member, rfl⟩

theorem placed_inside (assignment : Assignment) (entry : Nat × Route) (member : entry ∈ placed assignment) :
    entry.1 < assignment.length := by
  have kept := (placed_mem assignment entry).mp member
  by_contra outside
  rw [List.getD_eq_getElem?_getD, List.getElem?_eq_none (by omega)] at kept
  simp at kept

-- What the assembled plan is built from: labelled plans and the sets of a fitting assignment.
structure Assembles (plans : List EdgePlan) (sets : List PathSet) (assignment : Assignment) : Prop where
  labelled : ∀ index plan, plans[index]? = some plan → Analyse.Labelled (stateOf request) index plan
  plansCount : plans.length = request.collective.logicalEdges.length
  sets : sets = assignment.map (setFor request)
  ordered : ∀ routes ∈ assignment, canonicalOrder request routes = routes
  fitting : FittingAssignment request assignment

theorem assembled_from {limits : PlannerLimits} (sound : PlanningRequest.Sound request) (passed : Passed request limits)
    (best : GlobalCandidate) (found : (solution request limits).best = some best) :
    ∃ assignment, Assembles request (recorded request limits) (chosenSets (recorded request limits) best.choice) assignment := by
  obtain ⟨choice, feasible, rfl⟩ := (solution_solved sound passed).found best found
  obtain ⟨assignment, sets, fitting, ordered⟩ := feasible_assignment sound (recorded_stocks sound passed) choice feasible
  refine ⟨assignment, fun index plan stored => ?_, recorded_length passed, ?_, ordered, fitting⟩
  · have labelled := (recorded_verdict sound index plan stored).labelled
    exact ⟨labelled.id, labelled.src, labelled.dst, labelled.stage⟩
  · rw [← sets]
    exact chosen_sets_eq _ choice feasible.1.length_eq.ge

variable {request}

theorem set_paths_ordered (routes : List Route) (ordered : canonicalOrder request routes = routes) :
    (setFor request routes).paths = routes.map (stateOf request).candidateOf := by
  rw [set_for_paths, ordered]

theorem chosen_placed_from (plans : List EdgePlan) (planAt : Nat → EdgePlan) (assignment : Assignment) (start : Nat)
    (count : plans.length = assignment.length) (named : ∀ index plan, plans[index]? = some plan → planAt (start + index) = plan)
    (ordered : ∀ routes ∈ assignment, canonicalOrder request routes = routes) :
    chosenCandidates plans (assignment.map (setFor request)) =
      (placedFrom start assignment).map fun entry => (planAt entry.1, (stateOf request).candidateOf entry.2) := by
  induction assignment generalizing plans start with
  | nil => simp [chosenCandidates, placedFrom]
  | cons routes rest ih =>
      cases plans with
      | nil => simp at count
      | cons plan others =>
          have first : planAt start = plan := named 0 plan rfl
          have later := ih others (start + 1) (by simpa using count)
            (fun index other stored => by
              rw [Nat.add_assoc, Nat.add_comm 1 index]
              exact named (index + 1) other stored)
            (fun other member => ordered other (List.mem_cons_of_mem _ member))
          have paths := set_paths_ordered routes (ordered routes (by simp))
          rw [placedFrom, List.map_append, ← later, List.map_map]
          simp only [chosenCandidates, List.map_cons, List.zip_cons_cons, List.flatMap_cons, paths, List.map_map]
          congr 1
          exact List.map_congr_left fun route _ => by simp [first]

namespace Assembles

variable {plans : List EdgePlan} {sets : List PathSet} {assignment : Assignment}

theorem count (assembles : Assembles request plans sets assignment) :
    assignment.length = request.collective.logicalEdges.length := assembles.fitting.admissible.length_eq.symm

theorem labelled_at (assembles : Assembles request plans sets assignment) (index : Nat) (inside : index < assignment.length) :
    Analyse.Labelled (stateOf request) index (plans.getD index {}) := by
  have stored : plans[index]? = some (plans.getD index {}) := by
    have short : index < plans.length := by
      rw [assembles.plansCount, ← assembles.count]
      exact inside
    simp [List.getD_eq_getElem?_getD, short]
  exact assembles.labelled index _ stored

theorem chosen_placed (assembles : Assembles request plans sets assignment) :
    chosenCandidates plans sets =
      (placed assignment).map fun entry => (plans.getD entry.1 {}, (stateOf request).candidateOf entry.2) := by
  rw [assembles.sets]
  refine chosen_placed_from plans (fun index => plans.getD index {}) assignment 0 ?_ ?_ assembles.ordered
  · rw [assembles.plansCount, assembles.count]
  · intro index plan stored
    rw [Nat.zero_add, List.getD_eq_getElem?_getD, stored, Option.getD_some]

theorem paths (assembles : Assembles request plans sets assignment) (sound : PlanningRequest.Sound request) :
    pathEntries request (chosenCandidates plans sets) = pathsFor request assignment := by
  rw [assembles.chosen_placed, pathEntries, pathsFor, List.mapIdx_eq_zipIdx_map, List.mapIdx_eq_zipIdx_map, List.zipIdx_map,
    List.map_map]
  refine List.map_congr_left fun numbered member => ?_
  obtain ⟨entry, position⟩ := numbered
  have listed : entry ∈ placed assignment := List.fst_mem_of_mem_zipIdx member
  have label := assembles.labelled_at entry.1 (placed_inside assignment entry listed)
  have signature := PlannerState.Sound.signature_eq (state_of_sound request sound) entry.2
  simp only [Function.comp_apply, Prod.map_apply, id_eq]
  unfold pathEntry pathFor
  rw [label.id, label.src, label.dst, label.stage, signature]
  rfl

end Assembles

section Routes

variable {source target : EndpointBinding} {route : Route}

theorem hop_edge_id (index : EdgeIndex) : (hopOf request index).edge = (request.fabric.edge index).id := rfl

theorem hop_edges_distinct (sound : PlanningRequest.Sound request) (start : NodeId)
    (stored : ∀ index ∈ route, index < request.fabric.edges.length) (simple : (Walk.visited (headOf request) start route).Nodup) :
    ((route.map (hopOf request)).map Hop.edge).Nodup := by
  rw [List.map_map]
  refine (Walk.simple_arcs _ _ _ simple).map_on fun first left second right same => ?_
  exact sound.fabric.edge_id_injective first second (stored first left) (stored second right) same

theorem walk_hops_simple (sound : PlanningRequest.Sound request) (start finish : NodeId)
    (stored : ∀ index ∈ route, index < request.fabric.edges.length)
    (walk : Walk.IsWalk (tailOf request) (headOf request) start route finish)
    (simple : (Walk.visited (headOf request) start route).Nodup) : hopsAreSimple (route.map (hopOf request)) = true := by
  have targets : (route.map (hopOf request)).map Hop.target = route.map (headOf request) := by
    rw [List.map_map]
    rfl
  have visits := List.nodup_cons.mp simple
  simp only [hopsAreSimple, Bool.and_eq_true, decide_eq_true_eq]
  refine ⟨⟨hop_edges_distinct sound start stored simple, by rw [targets]; exact visits.2⟩, ?_⟩
  cases route with
  | nil => rfl
  | cons first rest =>
      have begins : (hopOf request first).source = start := walk.1
      simp only [List.map_cons, begins]
      rw [← List.map_cons, List.all_map, List.all_eq_true]
      intro index member
      simp only [Function.comp_apply, ne_eq, decide_eq_true_eq]
      intro same
      exact visits.1 (List.mem_map.mpr ⟨index, member, same⟩)

theorem hops_simple (sound : PlanningRequest.Sound request) (compliant : CompliantRoute request source target route) :
    hopsAreSimple (route.map (hopOf request)) = true :=
  walk_hops_simple sound source.node target.node compliant.stored compliant.walk compliant.simple

theorem hops_ends (compliant : CompliantRoute request source target route) :
    ValidatePlan.Ends source target (route.map (hopOf request)) := by
  cases route with
  | nil => exact compliant.walk
  | cons first rest =>
      have last := Walk.finish_last _ _ _ _ _ (by simp) compliant.walk
      refine ⟨compliant.walk.1, ?_⟩
      rw [← last]
      simp only [← List.map_cons, List.getLast_map]
      rfl

theorem hops_contiguous (start finish : NodeId) (walk : Walk.IsWalk (tailOf request) (headOf request) start route finish) :
    ValidatePlan.Contiguous (route.map (hopOf request)) := by
  induction route generalizing start with
  | nil => exact List.isChain_nil
  | cons first rest ih =>
      refine List.isChain_cons.mpr ⟨fun following next => ?_, ih _ walk.2⟩
      cases rest with
      | nil => simp at next
      | cons second rest =>
          simp only [List.map_cons, List.head?_cons, Option.mem_some_iff] at next
          rw [← next]
          exact walk.2.1

theorem hop_clear (sound : PlanningRequest.Sound request) (sourceBound : source ∈ request.bindings)
    (targetBound : target ∈ request.bindings) (compliant : CompliantRoute request source target route) (index : EdgeIndex)
    (member : index ∈ route) :
    ValidatePlan.HopClear request source target (hopOf request index) (request.fabric.edge index) := by
  have usable := compliant.edges index member
  have free : ∀ node ∈ Walk.visited (headOf request) source.node route, nodeForbidden request.policy node = false := by
    intro node visited
    rw [← Bool.not_eq_true, node_forbidden_iff _ sound.policy]
    exact (compliant.nodes node visited).allowed
  have head : headOf request index ∈ Walk.visited (headOf request) source.node route :=
    List.mem_cons_of_mem _ (List.mem_map.mpr ⟨index, member, rfl⟩)
  refine ⟨rfl, rfl, free _ (Walk.tails_visited _ _ _ _ _ compliant.walk index member), free _ head, ?_,
    (tier_outside_iff _ sound.policy _).mpr usable.tierInside, (domain_forbidden_iff _ _ _).mpr usable.domainFree,
    usable.evidence, fun zero => (usable.unverified zero).1, fun positive => usable.verified positive.ne',
    (binding_allows_iff request source (sound.bindings source sourceBound) _).mpr (compliant.sourcePermits index member),
    (binding_allows_iff request target (sound.bindings target targetBound) _).mpr (compliant.targetPermits index member)⟩
  rw [← Bool.not_eq_true, tier_forbidden_iff _ sound.policy]
  exact usable.tierFree

theorem hop_domains_route (sound : PlanningRequest.Sound request) (stored : ∀ index ∈ route, index < request.fabric.edges.length) :
    ValidatePlan.hopDomainsOf request (route.map (hopOf request)) =
      if request.policy.domainDiversity = .none then []
      else (route.filter fun index => (request.fabric.edge index).failureDomain.valid).map (hopDomain request) := by
  induction route with
  | nil => simp [ValidatePlan.hopDomainsOf]
  | cons first rest ih =>
      have found := sound.fabric.find_edge_index first (stored first (by simp))
      have later := ih fun index member => stored index (List.mem_cons_of_mem _ member)
      rw [ValidatePlan.hopDomainsOf] at later ⊢
      rw [List.map_cons, List.filterMap_cons, ValidatePlan.hopDomainOf, hop_edge_id, found, later]
      by_cases none : request.policy.domainDiversity = .none
      · simp [none]
      · cases valid : (request.fabric.edge first).failureDomain.valid with
        | false => simp [none, valid]
        | true => simp [none, valid, hopDomain]

theorem hops_signature (sound : PlanningRequest.Sound request) (stored : ∀ index ∈ route, index < request.fabric.edges.length) :
    signatureOf request.policy (ValidatePlan.hopDomainsOf request (route.map (hopOf request))) = routeSignature request route := by
  rw [hop_domains_route sound stored, routeSignature]
  by_cases none : request.policy.domainDiversity = .none
  · simp [none, signatureOf]
  · rw [if_neg none]

theorem hops_declared (sound : PlanningRequest.Sound request) (stored : ∀ index ∈ route, index < request.fabric.edges.length)
    (required : request.policy.domainDiversity = .required) (declared : DomainsDeclared request route) :
    (ValidatePlan.hopDomainsOf request (route.map (hopOf request))).length = (route.map (hopOf request)).length := by
  rw [hop_domains_route sound stored, if_neg (by simp [required]), List.length_map, List.length_map,
    List.filter_eq_self.mpr declared]

theorem route_cost_word (route : Route) : (UInt64.ofNat (routeCost request route)).toNat = routeCost request route := by
  have bound : routeCost request route ≤ kCostCeiling := by
    rw [routeCost, saturating_sum_eq]
    exact min_le_left _ _
  have word : kCostCeiling < 2 ^ 64 := by decide
  rw [UInt64.toNat_ofNat_of_lt' (lt_of_le_of_lt bound word)]

end Routes

end PlanCollective

end PathPlanner

import PathPlanner.Planner.Assembled
import PathPlanner.Planner.SearchSound

set_option autoImplicit false

namespace PathPlanner

open Mapping Walk ShortestPath

namespace FindPath

-- No demand is placed, and the enumeration is not used.
def stateOf (request : PlanningRequest) : PlannerState where
  request
  perPathDemand := 0
  maxExpansions := max 1 request.policy.maxSearchExpansions
  enumerationBudget := 0

def search (request : PlanningRequest) (source target : NodeIndex) : SearchOutcome × SearchScratch :=
  shortestPath (stateOf request) {} source target {} {}

def answer (request : PlanningRequest) (source target : NodeIndex) : Result (List Hop) :=
  let (found, scratch) := search request source target
  if found.found = false then
    if scratch.budgetExceeded then
      .error (failure .searchBudgetExceeded "the search stopped at its declared bound before deciding")
    else .error (failure .noPath "no compliant path exists")
  else
    let hops := found.edges.map (PlanCollective.hopOf request)
    if hopsAreSimple hops = false then
      .error (failure .internalError "the search produced a path that is not simple")
    else .ok hops

end FindPath

-- The limits are taken and not looked at.
def findPath (request : PlanningRequest) (source destination : NodeId) (_limits : PlannerLimits) : Result (List Hop) :=
  match request.validate with
  | .error status => .error status
  | .ok () =>
      match request.fabric.nodeIndex source, request.fabric.nodeIndex destination with
      | none, _ => .error (failure .unknownEndpointNode "source node is not in the fabric")
      | some _, none => .error (failure .unknownEndpointNode "destination node is not in the fabric")
      | some sourceIndex, some targetIndex => FindPath.answer request sourceIndex targetIndex

namespace FindPath

-- A walk between two nodes that the policy allows, within its hop and cost limits.
structure CompliantWalk (request : PlanningRequest) (source destination : NodeId) (route : Route) : Prop where
  stored : ∀ index ∈ route, index < request.fabric.edges.length
  walk : IsWalk (tailOf request) (headOf request) source route destination
  hops : route.length ≤ request.policy.maxHops
  nodes : ∀ node ∈ visited (headOf request) source route, NodeUsable request node
  edges : ∀ index ∈ route, EdgeUsable request (request.fabric.edge index)
  cost : routeCost request route ≤ request.policy.maxPathCost

def Minimal (request : PlanningRequest) (source destination : NodeId) (route : Route) : Prop :=
  ∀ other, CompliantWalk request source destination other → routeCost request route < routeCost request other ∨
    routeCost request route = routeCost request other ∧ route.length ≤ other.length

-- The search gave up because its expansions ran out.
def RanOut (request : PlanningRequest) (source destination : NodeId) : Prop :=
  ∃ sourceIndex targetIndex, request.fabric.nodeIndex source = some sourceIndex ∧
    request.fabric.nodeIndex destination = some targetIndex ∧ (search request sourceIndex targetIndex).2.budgetExceeded = true

structure ExactAnswer (request : PlanningRequest) (source destination : NodeId) (answer : Result (List Hop)) : Prop where
  success : ∀ hops, answer = .ok hops → ∃ route, hops = route.map (PlanCollective.hopOf request) ∧
    CompliantWalk request source destination route ∧ (visited (headOf request) source route).Nodup ∧
    route.length ≤ request.policy.maxHops ∧ Minimal request source destination route
  missing : ∀ status, answer = .error status → status.code = .noPath → ∀ route, ¬ CompliantWalk request source destination route
  errors : ∀ status, answer = .error status → status.code = .noPath ∨ status.code = .searchBudgetExceeded
  exhausted : RanOut request source destination ↔ ∃ status, answer = .error status ∧ status.code = .searchBudgetExceeded

variable {request : PlanningRequest}

def queryOf (source target : NodeIndex) : Query := ⟨{}, {}, {}, source, target⟩

-- The checks of a hop do not look at the state's demand, which is zero here.
theorem usable_iff (sound : PlanningRequest.Sound request) (source target : NodeIndex) (index : EdgeIndex) :
    Usable (stateOf request) (queryOf source target) index ↔ index < request.fabric.edges.length ∧
      EdgeUsable request (request.fabric.edge index) ∧ NodeUsable request (headOf request index) := by
  have whole : PlannerState.Sound (PlanCollective.initialState request {}) := ⟨sound, rfl⟩
  have edge : (stateOf request).edgeStaticallyUsable index = true ↔ EdgeUsable request (request.fabric.edge index) :=
    whole.edge_usable_iff index
  have node : ∀ next, request.fabric.nodeIndex (headOf request index) = some next →
      ((stateOf request).nodeAllowed next = true ↔ NodeUsable request (headOf request index)) := fun next found =>
    whole.node_allowed_iff _ next found
  have passes : ∀ next, hopUsable (stateOf request) {} {} {} index next = true ↔
      (stateOf request).nodeAllowed next = true ∧ (stateOf request).edgeStaticallyUsable index = true := by
    intro next
    have clear := BlockSet.initial_clear
    have carries : (stateOf request).edgeCarriesDemand index = true := by simp [PlannerState.edgeCarriesDemand, stateOf]
    have free : ∀ edge, bindingAllowsEdge (stateOf request).fabric {} edge = true := fun edge => by simp [bindingAllowsEdge]
    simp [hopUsable, clear.1 index, clear.2 next, carries, free]
  constructor
  · rintro ⟨stored, next, found, usable⟩
    obtain ⟨nodeOk, edgeOk⟩ := (passes next).mp usable
    exact ⟨stored, edge.mp edgeOk, (node next found).mp nodeOk⟩
  · rintro ⟨stored, edgeOk, nodeOk⟩
    obtain ⟨next, found⟩ := whole.head_index index stored
    exact ⟨stored, next, found, (passes next).mpr ⟨(node next found).mpr nodeOk, edge.mpr edgeOk⟩⟩

theorem open_walk_iff (sound : PlanningRequest.Sound request) (sourceIndex targetIndex : NodeIndex) (source destination : NodeId)
    (usable : NodeUsable request source) (route : Route) :
    OpenWalk (stateOf request) (queryOf sourceIndex targetIndex) source destination route ↔
      CompliantWalk request source destination route := by
  constructor
  · intro opens
    have each := fun index member => (usable_iff sound sourceIndex targetIndex index).mp (opens.usable index member)
    refine ⟨fun index member => (each index member).1, opens.walk, opens.hops, fun node member => ?_,
      fun index member => (each index member).2.1, opens.cost⟩
    simp only [visited, List.mem_cons, List.mem_map] at member
    rcases member with rfl | ⟨index, inRoute, rfl⟩
    · exact usable
    · exact (each index inRoute).2.2
  · intro compliant
    refine ⟨compliant.walk, fun index member => (usable_iff sound sourceIndex targetIndex index).mpr
      ⟨compliant.stored index member, compliant.edges index member, compliant.nodes _ ?_⟩, compliant.hops, compliant.cost⟩
    simp only [visited, List.mem_cons, List.mem_map]
    exact Or.inr ⟨index, member, rfl⟩

theorem search_budget (source target : NodeIndex) :
    (search request source target).2.budgetExceeded = (search request source target).1.budgetExceeded := by
  unfold search shortestPath
  split_ifs <;> simp

-- A search from a node the policy excludes finds nothing and spends nothing.
theorem search_barred (source target : NodeIndex) (apart : source ≠ target)
    (barred : (stateOf request).nodeAllowed source = false) : search request source target = ({}, {}) := by
  unfold search shortestPath
  rw [if_neg apart, if_pos (Or.inl barred)]

theorem missing_exact (source destination : NodeId) (detail : String) (none : ∀ route, ¬ CompliantWalk request source destination route)
    (calm : ¬ RanOut request source destination) : ExactAnswer request source destination (.error (failure .noPath detail)) := by
  have code : ∀ status, (.error (failure .noPath detail) : Result (List Hop)) = .error status → status.code = .noPath :=
    fun status is => (Except.error.inj is) ▸ rfl
  refine ⟨fun hops never => by simp at never, fun _ _ _ => none, fun status is => Or.inl (code status is), ?_⟩
  refine ⟨fun spent => absurd spent calm, fun ⟨status, is, spent⟩ => ?_⟩
  rw [code status is] at spent
  exact ErrorCode.noConfusion spent

theorem spent_exact (source destination : NodeId) (detail : String) (spent : RanOut request source destination) :
    ExactAnswer request source destination (.error (failure .searchBudgetExceeded detail)) := by
  have code : ∀ status, (.error (failure .searchBudgetExceeded detail) : Result (List Hop)) = .error status →
      status.code = .searchBudgetExceeded := fun status is => (Except.error.inj is) ▸ rfl
  refine ⟨fun hops never => by simp at never, fun status is other => ?_, fun status is => Or.inr (code status is),
    fun _ => ⟨_, rfl, rfl⟩, fun _ => spent⟩
  rw [code status is] at other
  exact ErrorCode.noConfusion other

theorem find_path_exact (input : BuiltRequest) (limits : PlannerLimits) (source destination : NodeId)
    (sourceListed : source ∈ input.request.fabric.nodes.map Node.id)
    (destinationListed : destination ∈ input.request.fabric.nodes.map Node.id) (apart : source ≠ destination) :
    ExactAnswer input.request source destination (findPath input.request source destination limits) := by
  have sound := input.sound
  have indexed : ∀ id ∈ input.request.fabric.nodes.map Node.id, ∃ position, input.request.fabric.nodeIndex id = some position := by
    intro id listed
    obtain ⟨record, member, rfl⟩ := List.mem_map.mp listed
    obtain ⟨position, found, _⟩ := sound.fabric.node_index_of record member
    exact ⟨position, found⟩
  obtain ⟨sourceIndex, sourceFound⟩ := indexed source sourceListed
  obtain ⟨targetIndex, targetFound⟩ := indexed destination destinationListed
  have indexApart : sourceIndex ≠ targetIndex := by
    rintro rfl
    exact apart (sound.fabric.node_index_injective _ _ _ sourceFound targetFound)
  have whole : PlannerState.Sound (PlanCollective.initialState input.request {}) := ⟨sound, rfl⟩
  have allowedIff : (stateOf input.request).nodeAllowed sourceIndex = true ↔ NodeUsable input.request source :=
    whole.node_allowed_iff source sourceIndex sourceFound
  have ranOut : RanOut input.request source destination ↔ (search input.request sourceIndex targetIndex).1.budgetExceeded = true := by
    rw [← search_budget]
    constructor
    · rintro ⟨first, second, foundFirst, foundSecond, spent⟩
      rw [sourceFound, Option.some.injEq] at foundFirst
      rw [targetFound, Option.some.injEq] at foundSecond
      rwa [foundFirst, foundSecond]
    · exact fun spent => ⟨sourceIndex, targetIndex, sourceFound, targetFound, spent⟩
  have unfolded : findPath input.request source destination limits = answer input.request sourceIndex targetIndex := by
    rw [findPath, sound.validated, sourceFound, targetFound]
  rw [unfolded]
  by_cases allowed : (stateOf input.request).nodeAllowed sourceIndex = true
  · have usable := allowedIff.mp allowed
    have same := open_walk_iff sound sourceIndex targetIndex source destination usable
    have exact : Exact (stateOf input.request) (queryOf sourceIndex targetIndex) source destination
        (search input.request sourceIndex targetIndex).1 :=
      shortest_path_exact (stateOf input.request) sound.fabric (queryOf sourceIndex targetIndex) {} rfl source destination
        sourceFound targetFound allowed
    have budget := @search_budget input.request sourceIndex targetIndex
    unfold answer
    generalize search input.request sourceIndex targetIndex = result at exact ranOut budget
    obtain ⟨found, scratch⟩ := result
    dsimp only at exact ranOut budget ⊢
    rw [budget]
    cases reached : found.found with
    | false =>
        rw [if_pos rfl]
        cases spent : found.budgetExceeded with
        | true =>
            rw [if_pos rfl]
            exact spent_exact source destination _ (ranOut.mpr spent)
        | false =>
            rw [if_neg Bool.false_ne_true]
            refine missing_exact source destination _ (fun route compliant => ?_) fun gone => ?_
            · exact exact.missed reached spent route ((same route).mpr compliant)
            · exact Bool.noConfusion (spent.symm.trans (ranOut.mp gone))
    | true =>
        obtain ⟨opens, _, best⟩ := exact.reached reached
        have simple := best_simple source destination found.edges opens best
        have compliant := (same found.edges).mp opens
        have hopsSimple := PlanCollective.walk_hops_simple sound source destination compliant.stored compliant.walk simple
        rw [if_neg (by simp), if_neg (by simp [hopsSimple])]
        refine ⟨fun hops is => ⟨found.edges, (Except.ok.inj is).symm, compliant, simple, compliant.hops, fun other walk =>
          best other ((same other).mpr walk)⟩, fun status never => by simp at never, fun status never => by simp at never, ?_⟩
        rw [ranOut, exact.certain reached]
        exact ⟨fun never => Bool.noConfusion never, fun ⟨_, never, _⟩ => by simp at never⟩
  · have barred : (stateOf input.request).nodeAllowed sourceIndex = false := by simpa using allowed
    rw [search_barred sourceIndex targetIndex indexApart barred] at ranOut
    unfold answer
    rw [search_barred sourceIndex targetIndex indexApart barred]
    refine missing_exact source destination _ (fun route compliant => ?_) fun gone => Bool.noConfusion (ranOut.mp gone)
    exact allowed (allowedIff.mpr (compliant.nodes source (by simp [visited])))

-- The direct edge is dearer than the way around.
def aroundRequest : BuiltRequest :=
  .of (Sample.request .tree (Sample.star ["p", "q"]) 1
    (Sample.fabric ["a", "b", "c"] [Sample.edge "e1" "a" "b" 10 5, Sample.edge "e2" "a" "c" 10 20, Sample.edge "e3" "b" "c" 10 5])
    [Sample.binding "p" "a", Sample.binding "q" "c"]) (draft_accepted _ (by decide +kernel))

theorem around_exact : ExactAnswer aroundRequest.request ⟨text "a"⟩ ⟨text "c"⟩
    (findPath aroundRequest.request ⟨text "a"⟩ ⟨text "c"⟩ {}) := by
  refine find_path_exact aroundRequest {} ⟨text "a"⟩ ⟨text "c"⟩ ?_ ?_ (by decide)
  all_goals
    rw [BuiltRequest.drafted]
    decide +kernel

example : ((findPath aroundRequest.request ⟨text "a"⟩ ⟨text "c"⟩ {}).toOption.getD []).map Hop.edge =
    [⟨text "e1"⟩, ⟨text "e3"⟩] := by
  rw [BuiltRequest.drafted]
  decide +kernel

end FindPath

end PathPlanner

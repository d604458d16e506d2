import PathPlanner.Planner.Assembled

set_option autoImplicit false

namespace PathPlanner

open Mapping SolveGlobal Ranking

namespace PlanCollective

variable {request : PlanningRequest}

variable {plans : List EdgePlan} {sets : List PathSet} {assignment : Assignment}

-- The admissible set that the assignment holds for one logical edge.
theorem admissible_at (fitting : FittingAssignment request assignment) (index : Nat) (inside : index < assignment.length) :
    ∃ source target, BoundTo request (request.collective.logicalEdges.getD index {}).src source ∧
      BoundTo request (request.collective.logicalEdges.getD index {}).dst target ∧
      AdmissibleSet request source target (assignment.getD index []) := by
  have known : index < request.collective.logicalEdges.length := fitting.admissible.length_eq.symm ▸ inside
  have here := fitting.admissible.get known inside
  have logical : request.collective.logicalEdges.getD index {} = request.collective.logicalEdges.get ⟨index, known⟩ := by
    simp [List.getD_eq_getElem?_getD, known]
  have routes : assignment.getD index [] = assignment.get ⟨index, inside⟩ := by
    simp [List.getD_eq_getElem?_getD, inside]
  rw [logical, routes]
  exact here.admissible

theorem routes_count (fitting : FittingAssignment request assignment) :
    assignment.flatten.length = request.collective.logicalEdges.length * request.policy.pathsPerLogicalEdge := by
  have each : ∀ amount ∈ assignment.map List.length, amount = request.policy.pathsPerLogicalEdge := by
    intro amount listed
    obtain ⟨routes, member, rfl⟩ := List.mem_map.mp listed
    obtain ⟨index, inside, rfl⟩ := List.getElem_of_mem member
    obtain ⟨_, _, _, _, admissible⟩ := admissible_at fitting index inside
    have count := admissible.count
    rwa [List.getD_eq_getElem?_getD, List.getElem?_eq_getElem inside, Option.getD_some] at count
  rw [List.length_flatten, List.eq_replicate_of_mem each, List.sum_replicate, List.length_map, smul_eq_mul,
    ← fitting.admissible.length_eq]

theorem paths_for_length (assignment : Assignment) : (pathsFor request assignment).length = assignment.flatten.length := by
  rw [pathsFor, List.length_mapIdx, ← placed_routes, List.length_map]

theorem paths_for_few (sound : PlanningRequest.Sound request) (fitting : FittingAssignment request assignment) :
    (pathsFor request assignment).length ≤ kMaxLogicalEdges * kMaxPathsPerLogicalEdge := by
  rw [paths_for_length, routes_count fitting]
  exact Nat.mul_le_mul sound.collective.bounded sound.policy.paths.2

-- The entry at one position of the table of paths.
theorem paths_for_get (assignment : Assignment) (position : Nat) (path : PathPlan)
    (stored : (pathsFor request assignment)[position]? = some path) :
    ∃ entry, (placed assignment)[position]? = some entry ∧ path = pathFor request (position + 1) entry.1 entry.2 := by
  rw [pathsFor, List.getElem?_mapIdx] at stored
  obtain ⟨entry, found, rfl⟩ := Option.map_eq_some_iff.mp stored
  exact ⟨entry, found, rfl⟩

theorem path_for_id (id index : Nat) (route : Route) (small : id < 2 ^ 64) :
    (pathFor request id index route).id.value.toNat = id := UInt64.toNat_ofNat_of_lt' small

theorem path_for_edge (sound : PlanningRequest.Sound request) (id index : Nat) (route : Route)
    (inside : index < request.collective.logicalEdges.length) :
    (pathFor request id index route).logicalEdge.value.toNat = index + 1 := by
  have few := sound.collective.bounded
  have word : kMaxLogicalEdges < 2 ^ 64 := by decide
  exact UInt64.toNat_ofNat_of_lt' (show index + 1 < 2 ^ 64 by omega)

-- The paths of one logical edge are numbered entries over its routes.
theorem siblings_for (sound : PlanningRequest.Sound request) (fitting : FittingAssignment request assignment) (index : Nat) :
    ∃ numbered : List (Nat × Route), numbered.map Prod.snd = assignment.getD index [] ∧
      ValidatePlan.siblingsOf (pathsFor request assignment) (index + 1) =
        numbered.map fun entry => pathFor request entry.1 index entry.2 := by
  have kept : ∀ entry : Nat × Route, entry ∈ placed assignment →
      entry.1 < request.collective.logicalEdges.length := by
    intro entry member
    rw [fitting.admissible.length_eq]
    exact placed_inside assignment entry member
  have chosen := placed_filter assignment index
  rw [← List.zipIdx_map_fst 0 (placed assignment), List.filter_map] at chosen
  refine ⟨((placed assignment).zipIdx.filter fun entry => entry.1.1 = index).map fun entry => (entry.2 + 1, entry.1.2), ?_, ?_⟩
  · have routes := congrArg (List.map Prod.snd) chosen
    rw [List.map_map, List.map_map] at routes
    rw [List.map_map]
    exact routes.trans (List.map_id' _)
  · rw [ValidatePlan.siblingsOf, pathsFor, List.mapIdx_eq_zipIdx_map, List.filter_map, List.map_map]
    have same : ((placed assignment).zipIdx.filter ((fun path : PathPlan => decide (path.logicalEdge.value.toNat = index + 1)) ∘
        fun entry => pathFor request (entry.2 + 1) entry.1.1 entry.1.2)) =
        (placed assignment).zipIdx.filter fun entry => entry.1.1 = index := by
      refine List.filter_congr fun entry member => ?_
      have inside := kept entry.1 (List.fst_mem_of_mem_zipIdx member)
      simp only [Function.comp_apply, path_for_edge sound (entry.2 + 1) entry.1.1 entry.1.2 inside, Nat.add_right_cancel_iff]
    rw [same]
    refine List.map_congr_left fun entry member => ?_
    have here : entry.1.1 = index := by simpa using (List.mem_filter.mp member).2
    rw [Function.comp_apply, ← here]

theorem siblings_count (sound : PlanningRequest.Sound request) (fitting : FittingAssignment request assignment) (index : Nat)
    (inside : index < request.collective.logicalEdges.length) :
    (ValidatePlan.siblingsOf (pathsFor request assignment) (index + 1)).length = request.policy.pathsPerLogicalEdge := by
  obtain ⟨numbered, routes, siblings⟩ := siblings_for sound fitting index
  obtain ⟨_, _, _, _, admissible⟩ := admissible_at fitting index (fitting.admissible.length_eq ▸ inside)
  rw [siblings, List.length_map, ← admissible.count, ← routes, List.length_map]

-- With more than one sibling each of them has been compared with another.
theorem declared_of_separate (routes : List Route) (separate : routes.Pairwise (Separate request))
    (required : request.policy.domainDiversity = .required) (many : 1 < routes.length) (route : Route)
    (member : route ∈ routes) : DomainsDeclared request route := by
  induction routes with
  | nil => simp at member
  | cons first rest ih =>
      obtain ⟨apart, later⟩ := List.pairwise_cons.mp separate
      cases rest with
      | nil => simp at many
      | cons second rest =>
          rcases List.mem_cons.mp member with rfl | inRest
          · exact ((apart second (by simp)).domains required).left
          · exact ((apart route inRest).domains required).right

theorem stage_small (sound : PlanningRequest.Sound request) (named : PlanningRequest.Named request) (index : Nat)
    (inside : index < request.collective.logicalEdges.length) :
    request.collective.logicalEdgeStage.getD index 0 < request.collective.stageCount ∧
      (UInt32.ofNat (request.collective.logicalEdgeStage.getD index 0)).toNat =
        request.collective.logicalEdgeStage.getD index 0 := by
  have listed : request.collective.logicalEdgeStage.getD index 0 ∈ request.collective.logicalEdgeStage := by
    have short : index < request.collective.logicalEdgeStage.length := by
      rw [sound.collective.parallel]
      exact inside
    rw [List.getD_eq_getElem?_getD, List.getElem?_eq_getElem short, Option.getD_some]
    exact List.getElem_mem short
  have level := named.collective.stages _ listed
  have small : kMaxHierarchyLevels < 2 ^ 32 := by decide
  exact ⟨sound.collective.staged _ listed, UInt32.toNat_ofNat_of_lt' (by
    show request.collective.logicalEdgeStage.getD index 0 < 2 ^ 32
    omega)⟩

variable {plan : Plan}

theorem path_valid (sound : PlanningRequest.Sound request) (named : PlanningRequest.Named request)
    (fitting : FittingAssignment request assignment) (paths : plan.paths = pathsFor request assignment)
    (before : List PathPlan) (path : PathPlan) (after : List PathPlan) (split : plan.paths = before ++ path :: after) :
    ValidatePlan.PathValid plan request before path := by
  have few := paths_for_few sound fitting
  have word : kMaxLogicalEdges * kMaxPathsPerLogicalEdge < 2 ^ 64 := by decide
  have count : before.length < plan.paths.length := by simp [split]
  rw [paths] at count
  have stored : (pathsFor request assignment)[before.length]? = some path := by
    rw [← paths, split]
    simp
  obtain ⟨entry, found, rfl⟩ := paths_for_get assignment before.length path stored
  have listed := List.mem_of_getElem? found
  have placedAt := placed_inside assignment entry listed
  have inside : entry.1 < request.collective.logicalEdges.length := fitting.admissible.length_eq ▸ placedAt
  have edge := path_for_edge sound (before.length + 1) entry.1 entry.2 inside
  have id := @path_for_id request (before.length + 1) entry.1 entry.2 (by omega)
  obtain ⟨source, target, sourceBound, targetBound, admissible⟩ := admissible_at fitting entry.1 placedAt
  have member := (placed_mem assignment entry).mp listed
  have compliant := admissible.compliant entry.2 member
  have logical : ValidatePlan.logicalEdgeOf request (pathFor request (before.length + 1) entry.1 entry.2) =
      request.collective.logicalEdges.getD entry.1 {} := by
    rw [ValidatePlan.logicalEdgeOf, edge, Nat.add_sub_cancel]
  have siblings : (ValidatePlan.siblingsOf (before ++ [pathFor request (before.length + 1) entry.1 entry.2]) (entry.1 + 1)).length ≤
      request.policy.pathsPerLogicalEdge := by
    rw [← siblings_count sound fitting entry.1 inside, ← paths, split]
    refine List.Sublist.length_le (List.Sublist.filter _ ?_)
    rw [List.append_cons before _ after]
    exact List.sublist_append_left _ _
  refine {
    positive := fun zero => by
      rw [zero] at id
      simp at id
    inside := by rw [id, paths]; omega
    fresh := fun visited earlier same => ?_
    edgePositive := fun zero => by
      rw [zero] at edge
      simp at edge
    edgeInside := by rw [edge]; omega
    src := by rw [logical]; rfl
    dst := by rw [logical]; rfl
    stage := by
      rw [edge, Nat.add_sub_cancel]
      exact (stage_small sound named entry.1 inside).2
    route := ⟨source, target, ?_, ?_, ?_⟩ }
  · obtain ⟨position, bound, rfl⟩ := List.getElem_of_mem earlier
    have known : (pathsFor request assignment)[position]? = some before[position] := by
      rw [← paths, split, List.getElem?_append_left bound, List.getElem?_eq_getElem bound]
    obtain ⟨other, _, eq⟩ := paths_for_get assignment position _ known
    have otherId := @path_for_id request (position + 1) other.1 other.2 (by omega)
    rw [← eq, same, id] at otherId
    omega
  · rw [logical]
    exact (PlanningRequest.find_binding_bound request sound _ _).mpr sourceBound
  · rw [logical]
    exact (PlanningRequest.find_binding_bound request sound _ _).mpr targetBound
  · rw [edge]
    refine {
      hops := by rw [pathFor, List.length_map]; exact compliant.hops
      cost := by rw [pathFor, route_cost_word]; exact compliant.cost
      simple := hops_simple sound compliant
      ends := hops_ends compliant
      clear := fun hop used => ?_
      contiguous := hops_contiguous _ _ compliant.walk
      signature := hops_signature sound compliant.stored
      declared := fun required many => ?_ }
    · obtain ⟨index, inRoute, rfl⟩ := List.mem_map.mp used
      exact ⟨_, sound.fabric.find_edge_index index (compliant.stored index inRoute),
        hop_clear sound sourceBound.listed targetBound.listed compliant index inRoute⟩
    · refine hops_declared sound compliant.stored required
        (declared_of_separate _ admissible.separate required ?_ entry.2 member)
      rw [admissible.count]
      omega

theorem pair_valid (sound : PlanningRequest.Sound request) (first second index : Nat) (lhs rhs : Route)
    (left : ∀ edge ∈ lhs, edge < request.fabric.edges.length) (right : ∀ edge ∈ rhs, edge < request.fabric.edges.length)
    (separate : Separate request lhs rhs) :
    ValidatePlan.PairValid request (pathFor request first index lhs) (pathFor request second index rhs) := by
  refine ⟨fun mode one inLeft two inRight same => ?_, fun mode one inLeft two inRight same => ?_,
    fun required leftUsed rightUsed domain listed => ?_⟩
  · obtain ⟨a, inLhs, rfl⟩ := List.mem_map.mp inLeft
    obtain ⟨b, inRhs, rfl⟩ := List.mem_map.mp inRight
    have eq := sound.fabric.edge_id_injective a b (left a inLhs) (right b inRhs) same
    exact separate.edges mode a inLhs (eq ▸ inRhs)
  · simp only [pathFor, ← List.map_dropLast] at inLeft inRight
    obtain ⟨a, inLhs, rfl⟩ := List.mem_map.mp inLeft
    obtain ⟨b, inRhs, rfl⟩ := List.mem_map.mp inRight
    exact separate.nodes mode (headOf request a) (List.mem_map.mpr ⟨a, inLhs, rfl⟩) (List.mem_map.mpr ⟨b, inRhs, same.symm⟩)
  · have sorted : (routeSignature request rhs).Pairwise (· ≤ ·) := (signature_sorted _ _).imp fun less => le_of_lt less
    rw [← Bool.not_eq_true]
    intro found
    exact (separate.domains required).disjoint domain listed ((Sequence.binary_search_mem _ _ sorted).mp found)

theorem siblings_valid (sound : PlanningRequest.Sound request) (fitting : FittingAssignment request assignment)
    (paths : plan.paths = pathsFor request assignment) (index : Nat) (inside : index < request.collective.logicalEdges.length) :
    ValidatePlan.SiblingsValid plan request index := by
  have count := siblings_count sound fitting index inside
  obtain ⟨numbered, routes, siblings⟩ := siblings_for sound fitting index
  obtain ⟨_, _, _, _, admissible⟩ := admissible_at fitting index (fitting.admissible.length_eq ▸ inside)
  have stored : ∀ entry ∈ numbered, ∀ edge ∈ entry.2, edge < request.fabric.edges.length := by
    intro entry member
    have listed : entry.2 ∈ assignment.getD index [] := by
      rw [← routes]
      exact List.mem_map_of_mem member
    exact (admissible.compliant entry.2 listed).stored
  rw [← paths] at count siblings
  refine ⟨count, fun empty => ?_, ?_⟩
  · rw [empty] at count
    exact absurd sound.policy.paths.1 (by simp [← count])
  · rw [siblings, List.pairwise_map]
    have separate := admissible.separate
    rw [← routes, List.pairwise_map] at separate
    refine separate.imp_of_mem fun {first second} left right apart => ?_
    exact pair_valid sound _ _ _ _ _ (stored first left) (stored second right) apart

theorem stage_entry_valid (sound : PlanningRequest.Sound request) (named : PlanningRequest.Named request)
    (assembles : Assembles request plans sets assignment) (paths : plan.paths = pathsFor request assignment)
    (stageCount : plan.stageCount = UInt32.ofNat request.collective.stageCount) (stage : Nat)
    (inside : stage < request.collective.stageCount) :
    ValidatePlan.StageValid plan request (stageEntry plans (pathsFor request assignment) stage) := by
  have fitting := assembles.fitting
  have few := paths_for_few sound fitting
  have word : kMaxLogicalEdges * kMaxPathsPerLogicalEdge < 2 ^ 64 := by decide
  have levels := named.collective.stageCount.2
  have small : kMaxHierarchyLevels < 2 ^ 32 := by decide
  have index : (UInt32.ofNat stage).toNat = stage := UInt32.toNat_ofNat_of_lt' (show stage < 2 ^ 32 by omega)
  have total : plan.stageCount.toNat = request.collective.stageCount := by
    rw [stageCount]
    exact UInt32.toNat_ofNat_of_lt' (show request.collective.stageCount < 2 ^ 32 by omega)
  have pathAt : ∀ id ∈ (stageEntry plans (pathsFor request assignment) stage).paths, ∃ path ∈ pathsFor request assignment,
      path.stage = UInt32.ofNat stage ∧ path.id = id ∧ id.value ≠ 0 ∧ id.value.toNat ≤ (pathsFor request assignment).length ∧
      (pathsFor request assignment).getD (id.value.toNat - 1) {} = path := by
    intro id member
    obtain ⟨path, kept, rfl⟩ := List.mem_map.mp member
    obtain ⟨listed, here⟩ := List.mem_filter.mp kept
    obtain ⟨position, stored⟩ := List.mem_iff_getElem?.mp listed
    obtain ⟨bound, _⟩ := List.getElem?_eq_some_iff.mp stored
    obtain ⟨entry, _, eq⟩ := paths_for_get assignment position path stored
    have value : path.id.value.toNat = position + 1 := by
      rw [eq]
      exact path_for_id (position + 1) entry.1 entry.2 (by omega)
    refine ⟨path, listed, by simpa using here, rfl, fun zero => ?_, by omega, ?_⟩
    · rw [zero] at value
      simp at value
    · rw [value, Nat.add_sub_cancel, List.getD_eq_getElem?_getD, stored, Option.getD_some]
  have edgeAt : ∀ id ∈ (stageEntry plans (pathsFor request assignment) stage).logicalEdges,
      ∃ position < request.collective.logicalEdges.length, id.value ≠ 0 ∧ id.value.toNat = position + 1 ∧
        request.collective.logicalEdgeStage.getD position 0 = stage := by
    intro id member
    obtain ⟨entry, kept, rfl⟩ := List.mem_map.mp member
    obtain ⟨listed, here⟩ := List.mem_filter.mp kept
    obtain ⟨position, stored⟩ := List.mem_iff_getElem?.mp listed
    obtain ⟨bound, _⟩ := List.getElem?_eq_some_iff.mp stored
    rw [assembles.plansCount] at bound
    have label := assembles.labelled position entry stored
    have value : entry.id.value.toNat = position + 1 := by
      rw [label.id]
      exact @path_for_edge request sound 0 position [] bound
    refine ⟨position, bound, fun zero => ?_, value, ?_⟩
    · rw [zero] at value
      simp at value
    · rw [← of_decide_eq_true here]
      exact label.stage.symm
  refine ⟨?_, fun id member => ?_, fun id member => ?_, fun id member => ?_, fun id member => ?_⟩
  · rw [UInt32.lt_iff_toNat_lt, total]
    exact index.symm ▸ inside
  · obtain ⟨path, _, _, same, positive, bound, found⟩ := pathAt id member
    rw [paths, found]
    exact ⟨positive, bound, same⟩
  · obtain ⟨path, _, here, _, _, _, found⟩ := pathAt id member
    rw [paths, found]
    exact here
  · obtain ⟨position, bound, positive, value, _⟩ := edgeAt id member
    exact ⟨positive, by omega⟩
  · obtain ⟨position, _, _, value, here⟩ := edgeAt id member
    rw [value, Nat.add_sub_cancel, here]
    exact index.symm

theorem paths_for_hops (assignment : Assignment) :
    (pathsFor request assignment).flatMap PathPlan.hops = assignment.flatten.flatten.map (hopOf request) := by
  rw [pathsFor, List.mapIdx_eq_zipIdx_map, List.flatMap_map, ← placed_routes, List.map_flatten, List.map_map,
    ← List.flatMap_def]
  conv_rhs => rw [← List.zipIdx_map_fst 0 (placed assignment), List.flatMap_map]
  rfl

theorem used_edges_for (paths : plan.paths = pathsFor request assignment) :
    ValidatePlan.usedEdges plan = assignment.flatten.flatten.map fun index => (request.fabric.edge index).id := by
  rw [ValidatePlan.usedEdges, paths, paths_for_hops, List.map_map]
  rfl

theorem routes_stored (fitting : FittingAssignment request assignment) :
    ∀ index ∈ assignment.flatten.flatten, index < request.fabric.edges.length := by
  intro index member
  obtain ⟨route, inAll, inRoute⟩ := List.mem_flatten.mp member
  obtain ⟨routes, listed, chosen⟩ := List.mem_flatten.mp inAll
  obtain ⟨position, bound, rfl⟩ := List.getElem_of_mem listed
  obtain ⟨_, _, _, _, admissible⟩ := admissible_at fitting position bound
  rw [List.getD_eq_getElem?_getD, List.getElem?_eq_getElem bound, Option.getD_some] at admissible
  exact (admissible.compliant route chosen).stored index inRoute

theorem used_count_for (sound : PlanningRequest.Sound request) (fitting : FittingAssignment request assignment)
    (paths : plan.paths = pathsFor request assignment) (index : EdgeIndex) (inside : index < request.fabric.edges.length) :
    (ValidatePlan.usedEdges plan).count (request.fabric.edge index).id = assignment.flatten.flatten.count index := by
  rw [used_edges_for paths, List.count, List.count, List.countP_map]
  refine List.countP_congr fun other member => ?_
  simp only [Function.comp_apply, beq_iff_eq]
  constructor
  · intro same
    exact sound.fabric.edge_id_injective other index (routes_stored fitting other member) inside same
  · intro same
    rw [same]

theorem placed_for (sound : PlanningRequest.Sound request) (fitting : FittingAssignment request assignment)
    (paths : plan.paths = pathsFor request assignment) (index : EdgeIndex) (inside : index < request.fabric.edges.length) :
    ValidatePlan.placedMbps plan request (request.fabric.edge index).id = load request assignment.flatten index := by
  rw [ValidatePlan.placedMbps, used_count_for sound fitting paths index inside, load]

theorem allocation_eq (assembles : Assembles request plans sets assignment) (demand : Nat) (index : EdgeIndex) :
    allocationOf (chosenCandidates plans sets) demand index =
      min kCostCeiling (demand * assignment.flatten.flatten.count index) := by
  have hops : (chosenCandidates plans sets).flatMap (fun entry => entry.2.edges) = assignment.flatten.flatten := by
    rw [assembles.chosen_placed, List.flatMap_map, ← placed_routes, ← List.flatMap_def]
    rfl
  have amounts : ((assignment.flatten.flatten.filter fun hop => hop = index).map fun _ => demand).sum =
      demand * assignment.flatten.flatten.count index := by
    rw [List.map_const', List.sum_replicate, smul_eq_mul, ← List.countP_eq_length_filter, Nat.mul_comm]
    rfl
  rw [allocationOf, hops, saturating_sum_eq, amounts]

theorem allocation_mem (assembles : Assembles request plans sets assignment) (allocation : Allocation) :
    allocation ∈ allocationTable request (chosenCandidates plans sets) (perPathShare request) ↔
      ∃ index < request.fabric.edges.length, min kCostCeiling (load request assignment.flatten index) ≠ 0 ∧
        allocation = ⟨(request.fabric.edge index).id, UInt64.ofNat (min kCostCeiling (load request assignment.flatten index))⟩ := by
  rw [allocationTable, List.mem_map]
  simp only [List.mem_filter, List.mem_range, decide_eq_true_eq, allocation_eq assembles, and_assoc, load]
  constructor
  · rintro ⟨index, inside, used, same⟩
    exact ⟨index, inside, used, same.symm⟩
  · rintro ⟨index, inside, used, same⟩
    exact ⟨index, inside, used, same.symm⟩

theorem load_word (amount : Nat) : (UInt64.ofNat (min kCostCeiling amount)).toNat = min kCostCeiling amount := by
  have word : kCostCeiling < 2 ^ 64 := by decide
  exact UInt64.toNat_ofNat_of_lt' (show min kCostCeiling amount < 2 ^ 64 by omega)

theorem allocation_edges_distinct (sound : PlanningRequest.Sound request) (demand : Nat) :
    ((allocationTable request (chosenCandidates plans sets) demand).map Allocation.edge).Nodup := by
  rw [allocationTable, List.map_map]
  refine (List.nodup_range.filter _).map_on fun first left second right same => ?_
  have inside : ∀ index ∈ (List.range request.fabric.edges.length).filter
      (fun index => allocationOf (chosenCandidates plans sets) demand index ≠ 0), index < request.fabric.edges.length :=
    fun index member => List.mem_range.mp (List.mem_filter.mp member).1
  exact sound.fabric.edge_id_injective first second (inside first left) (inside second right) same

-- Only a positive share appears in the table, and every edge of a route carries one.
theorem load_positive (sound : PlanningRequest.Sound request) (index : EdgeIndex) :
    min kCostCeiling (load request assignment.flatten index) ≠ 0 ↔
      0 < request.collective.demandMbps ∧ index ∈ assignment.flatten.flatten := by
  have ceiling : kCostCeiling ≠ 0 := by decide
  have share : perPathShare request ≠ 0 ↔ 0 < request.collective.demandMbps := by
    by_cases demanded : 0 < request.collective.demandMbps
    · have wanted := sound.policy.paths.1
      rw [ValidatePlan.share_positive sound demanded]
      simp only [demanded, iff_true, ne_eq, Nat.div_eq_zero_iff, not_or]
      omega
    · have zero : request.collective.demandMbps = 0 := by omega
      simp [perPathShare, zero]
  have used : assignment.flatten.flatten.count index ≠ 0 ↔ index ∈ assignment.flatten.flatten := by
    rw [ne_eq, List.count_eq_zero, not_not]
  have positive : load request assignment.flatten index ≠ 0 ↔
      perPathShare request ≠ 0 ∧ assignment.flatten.flatten.count index ≠ 0 := Nat.mul_ne_zero_iff
  rw [← share, ← used, ← positive]
  omega

theorem allocations_valid (sound : PlanningRequest.Sound request) (assembles : Assembles request plans sets assignment)
    (paths : plan.paths = pathsFor request assignment)
    (allocations : plan.allocations = allocationTable request (chosenCandidates plans sets) (perPathShare request)) :
    ValidatePlan.AllocationsValid plan request := by
  have fitting := assembles.fitting
  have small := ValidatePlan.share_small sound
  have entry : ∀ allocation ∈ plan.allocations, ∃ index < request.fabric.edges.length, 0 < request.collective.demandMbps ∧
      index ∈ assignment.flatten.flatten ∧ allocation.edge = (request.fabric.edge index).id ∧
      allocation.plannedMbps.toNat = min kCostCeiling (load request assignment.flatten index) := by
    intro allocation member
    rw [allocations, allocation_mem assembles] at member
    obtain ⟨index, inside, used, rfl⟩ := member
    obtain ⟨demanded, listed⟩ := (load_positive sound index).mp used
    exact ⟨index, inside, demanded, listed, rfl, load_word _⟩
  have distinct : (plan.allocations.map Allocation.edge).Nodup := by
    rw [allocations]
    exact allocation_edges_distinct sound _
  have keysDistinct : ((ValidatePlan.recomputed plan request).map Prod.fst).Nodup := by
    rw [ValidatePlan.recomputed_eq sound]
    split_ifs
    · exact AmountMap.accumulate_distinct _ _
    · exact List.nodup_nil
  refine ⟨distinct, ?_, fun allocation member => ?_, fun allocation member => ?_⟩
  · have same : ((ValidatePlan.recomputed plan request).map Prod.fst).Perm (plan.allocations.map Allocation.edge) := by
      refine (List.perm_ext_iff_of_nodup keysDistinct distinct).mpr fun id => ?_
      constructor
      · intro listed
        rw [ValidatePlan.recomputed_eq sound] at listed
        by_cases demanded : 0 < request.collective.demandMbps
        · rw [if_pos demanded, AmountMap.accumulate_keys _ small, used_edges_for paths] at listed
          obtain ⟨index, used, rfl⟩ := List.mem_map.mp listed
          rw [allocations, List.mem_map]
          exact ⟨_, (allocation_mem assembles _).mpr ⟨index, routes_stored fitting index used,
            (load_positive sound index).mpr ⟨demanded, used⟩, rfl⟩, rfl⟩
        · simp [demanded] at listed
      · intro listed
        obtain ⟨allocation, member, rfl⟩ := List.mem_map.mp listed
        obtain ⟨index, _, demanded, used, edge, _⟩ := entry allocation member
        rw [ValidatePlan.recomputed_eq sound, if_pos demanded, AmountMap.accumulate_keys _ small, used_edges_for paths, edge]
        exact List.mem_map.mpr ⟨index, used, rfl⟩
    have lengths := same.length_eq
    rwa [List.length_map, List.length_map] at lengths
  · obtain ⟨index, inside, demanded, used, edge, amount⟩ := entry allocation member
    rw [AmountMap.find_mem _ keysDistinct, ValidatePlan.recomputed_eq sound, if_pos demanded,
      AmountMap.accumulate_mem _ small, edge, amount, used_count_for sound fitting paths index inside]
    refine ⟨?_, rfl⟩
    rw [used_edges_for paths]
    exact List.mem_map.mpr ⟨index, used, rfl⟩
  · obtain ⟨index, inside, _, _, edge, amount⟩ := entry allocation member
    refine ⟨_, by rw [edge]; exact sound.fabric.find_edge_index index inside, fun positive => ?_⟩
    have fits := fitting.fits index inside positive.ne'
    rw [amount]
    exact (min_le_right _ _).trans fits

-- Reading the table of paths is reading the routes.
theorem paths_for_select {β : Type} (assignment : Assignment) (keep : PathPlan → Bool) (kept : Route → Bool) (read : PathPlan → β)
    (value : Route → β) (sameKeep : ∀ id index route, keep (pathFor request id index route) = kept route)
    (sameValue : ∀ id index route, read (pathFor request id index route) = value route) :
    ((pathsFor request assignment).filter keep).map read = (assignment.flatten.filter kept).map value := by
  rw [pathsFor, List.mapIdx_eq_zipIdx_map, List.filter_map, List.map_map, ← placed_routes]
  conv_rhs => rw [← List.zipIdx_map_fst 0 (placed assignment)]
  rw [List.map_map, List.filter_map, List.map_map]
  have filters : (keep ∘ fun entry : (Nat × Route) × Nat => pathFor request (entry.2 + 1) entry.1.1 entry.1.2) =
      kept ∘ (Prod.snd ∘ Prod.fst) := by
    funext entry
    exact sameKeep _ _ _
  rw [filters]
  exact List.map_congr_left fun entry _ => sameValue _ _ _

theorem paths_for_map {β : Type} (assignment : Assignment) (read : PathPlan → β) (value : Route → β)
    (same : ∀ id index route, read (pathFor request id index route) = value route) :
    (pathsFor request assignment).map read = assignment.flatten.map value := by
  have all := @paths_for_select request β assignment (fun _ => true) (fun _ => true) read value (fun _ _ _ => rfl) same
  rwa [List.filter_true, List.filter_true] at all

theorem chosen_routes_of (assembles : Assembles request plans sets assignment) :
    (chosenCandidates plans sets).map Prod.snd = assignment.flatten.map (stateOf request).candidateOf := by
  rw [assembles.chosen_placed, List.map_map, ← placed_routes, List.map_map]
  rfl

theorem ceiling_word (amount : Nat) (small : amount ≤ kCostCeiling) : (UInt64.ofNat amount).toNat = amount := by
  have word : kCostCeiling < 2 ^ 64 := by decide
  exact UInt64.toNat_ofNat_of_lt' (show amount < 2 ^ 64 by omega)

theorem bottleneck_below (route : Route) : (stateOf request).pathBottleneck route < kCostCeiling := by
  have positive : 0 < kCostCeiling := by decide
  have bound : (route.map (stateOf request).spare).foldl min kCostCeiling ≤ kCostCeiling :=
    ((le_fold_min _ _ _).mp le_rfl).1
  unfold PlannerState.pathBottleneck
  dsimp only
  split_ifs with full
  · exact positive
  · omega

theorem bottleneck_for (assembles : Assembles request plans sets assignment) (paths : plan.paths = pathsFor request assignment) :
    (statsOf plans (chosenCandidates plans sets)).bottleneckMbps.toNat = ValidatePlan.bottleneck plan.paths := by
  have loads : ((assignment.flatten.map (stateOf request).candidateOf).filter fun candidate => candidate.edges ≠ []).map
      Candidate.bottleneck = (assignment.flatten.filter fun route => route ≠ []).map (stateOf request).pathBottleneck := by
    rw [List.filter_map, List.map_map]
    rfl
  have occupied : (ValidatePlan.occupied (pathsFor request assignment)).map (fun path => path.bottleneckMbps.toNat) =
      (assignment.flatten.filter fun route => route ≠ []).map (stateOf request).pathBottleneck :=
    paths_for_select assignment _ _ _ _ (fun _ _ route => by simp [pathFor])
      (fun _ _ route => ceiling_word _ (bottleneck_below route).le)
  rw [ValidatePlan.bottleneck, paths, occupied]
  simp only [statsOf, chosen_routes_of assembles, loads]
  by_cases empty : ValidatePlan.occupied (pathsFor request assignment) = []
  · have none : (assignment.flatten.filter fun route => route ≠ []).map (stateOf request).pathBottleneck = [] := by
      rw [← occupied, empty, List.map_nil]
    rw [if_pos empty, none, List.foldl_nil, if_pos (Or.inr rfl)]
    rfl
  · obtain ⟨path, member⟩ := List.exists_mem_of_ne_nil _ empty
    have used : path.bottleneckMbps.toNat ∈ (assignment.flatten.filter fun route => route ≠ []).map
        (stateOf request).pathBottleneck := by
      rw [← occupied]
      exact List.mem_map.mpr ⟨path, member, rfl⟩
    have least := (le_fold_min _ ((assignment.flatten.filter fun route => route ≠ []).map (stateOf request).pathBottleneck)
      kCostCeiling).mp le_rfl
    obtain ⟨route, listed, same⟩ := List.mem_map.mp used
    have below := @bottleneck_below request route
    have under := least.2 _ used
    rw [if_neg empty, if_neg]
    · exact ceiling_word _ least.1
    · intro either
      rcases either with none | full
      · rw [List.map_eq_nil_iff] at none
        simp [none] at listed
      · omega

theorem stats_valid (sound : PlanningRequest.Sound request) (assembles : Assembles request plans sets assignment)
    (paths : plan.paths = pathsFor request assignment)
    (stats : plan.stats = statsOf plans (chosenCandidates plans sets))
    (weakest : plan.weakestEvidence = ((chosenCandidates plans sets).map fun entry => entry.2.weakest).foldl weakerEvidence .measured) :
    ValidatePlan.StatsValid plan request := by
  have candidates := chosen_routes_of assembles
  have costs : (pathsFor request assignment).map (fun path => path.cost.toNat) = assignment.flatten.map (routeCost request) :=
    paths_for_map assignment _ _ fun _ _ route => route_cost_word route
  have candidateCosts : (assignment.flatten.map (stateOf request).candidateOf).map Candidate.cost =
      assignment.flatten.map (routeCost request) := by
    rw [List.map_map]
    rfl
  have candidateHops : (assignment.flatten.map (stateOf request).candidateOf).map (fun candidate => candidate.edges.length) =
      assignment.flatten.map List.length := by
    rw [List.map_map]
    rfl
  have hops : (pathsFor request assignment).map (fun path => path.hops.length) = assignment.flatten.map List.length :=
    paths_for_map assignment _ _ fun _ _ route => by simp [pathFor]
  refine ⟨?_, ?_, ?_, ?_, ?_, ?_⟩
  · rw [stats, paths, ValidatePlan.totalCost, costs]
    simp only [statsOf, candidates, candidateCosts]
    refine ceiling_word _ ?_
    rw [saturating_sum_eq]
    exact min_le_left _ _
  · rw [stats, paths, ValidatePlan.maxCost, costs]
    simp only [statsOf, candidates, candidateCosts]
    refine ceiling_word _ ((fold_max_le _ _ _).mpr ⟨Nat.zero_le _, fun cost listed => ?_⟩)
    obtain ⟨route, _, rfl⟩ := List.mem_map.mp listed
    rw [routeCost, saturating_sum_eq]
    exact min_le_left _ _
  · rw [stats, paths, ValidatePlan.hopCount, hops]
    simp only [statsOf, candidates, candidateHops]
    refine ceiling_word _ ?_
    have few := paths_for_few sound assembles.fitting
    rw [paths_for_length] at few
    have short : ∀ amount ∈ assignment.flatten.map List.length, amount ≤ kMaxHops := by
      intro amount listed
      obtain ⟨route, inAll, rfl⟩ := List.mem_map.mp listed
      obtain ⟨routes, member, chosen⟩ := List.mem_flatten.mp inAll
      obtain ⟨position, bound, rfl⟩ := List.getElem_of_mem member
      obtain ⟨_, _, _, _, admissible⟩ := admissible_at assembles.fitting position bound
      rw [List.getD_eq_getElem?_getD, List.getElem?_eq_getElem bound, Option.getD_some] at admissible
      exact ((admissible.compliant route chosen).hops).trans sound.policy.hops.2
    have total := List.sum_le_card_nsmul _ _ short
    rw [List.length_map, smul_eq_mul] at total
    calc (assignment.flatten.map List.length).sum
        ≤ kMaxLogicalEdges * kMaxPathsPerLogicalEdge * kMaxHops := total.trans (Nat.mul_le_mul_right _ few)
      _ ≤ kCostCeiling := by decide
  · rw [stats]
    simp only [statsOf, assembles.plansCount]
    have few := sound.collective.bounded
    have small : kMaxLogicalEdges ≤ kCostCeiling := by decide
    exact ceiling_word _ (few.trans small)
  · rw [stats]
    exact bottleneck_for assembles paths
  · have evidence : (pathsFor request assignment).map PathPlan.weakestEvidence =
        assignment.flatten.map (stateOf request).pathEvidence := paths_for_map assignment _ _ fun _ _ _ => rfl
    have chosen : (chosenCandidates plans sets).map (fun entry => entry.2.weakest) =
        assignment.flatten.map (stateOf request).pathEvidence := by
      have read := congrArg (List.map Candidate.weakest) candidates
      rw [List.map_map, List.map_map] at read
      exact read
    rw [weakest, chosen, paths, ValidatePlan.weakest, evidence]

theorem assemble_valid (sound : PlanningRequest.Sound request) (named : PlanningRequest.Named request)
    (assembles : Assembles request plans sets assignment) :
    validatePlan (assemble request (perPathShare request) plans sets) request = .ok () := by
  have paths : (assemble request (perPathShare request) plans sets).paths = pathsFor request assignment := assembles.paths sound
  have levels := named.collective.stageCount.2
  have small : kMaxHierarchyLevels < 2 ^ 32 := by decide
  have stageCount : (UInt32.ofNat request.collective.stageCount).toNat = request.collective.stageCount :=
    UInt32.toNat_ofNat_of_lt' (show request.collective.stageCount < 2 ^ 32 by omega)
  rw [ValidatePlan.validate_plan_ok]
  refine {
    identity := ⟨rfl, rfl, rfl, rfl, rfl, rfl, stageCount, by simp [assemble, stageCount]⟩
    paths := path_valid sound named assembles.fitting paths
    siblings := siblings_valid sound assembles.fitting paths
    stages := fun stage member => ?_
    allocations := allocations_valid sound assembles paths rfl
    stats := stats_valid sound assembles paths rfl rfl }
  obtain ⟨index, inside, rfl⟩ := List.mem_map.mp member
  rw [assembles.paths sound]
  exact stage_entry_valid sound named assembles paths rfl index (List.mem_range.mp inside)

end PlanCollective

end PathPlanner

import PathPlanner.Planner.RankingSound

set_option autoImplicit false

namespace PathPlanner

open Mapping Walk EnumerateSets SolveGlobal Footprint

theorem le_fold_min (bound : Nat) (values : List Nat) (start : Nat) :
    bound ≤ values.foldl min start ↔ bound ≤ start ∧ ∀ value ∈ values, bound ≤ value := by
  induction values generalizing start with
  | nil => simp
  | cons head rest ih =>
      rw [List.foldl_cons, ih, le_min_iff]
      simp only [List.mem_cons, forall_eq_or_imp, and_assoc]

theorem fold_max_le (bound : Nat) (values : List Nat) (start : Nat) :
    values.foldl max start ≤ bound ↔ start ≤ bound ∧ ∀ value ∈ values, value ≤ bound := by
  induction values generalizing start with
  | nil => simp
  | cons head rest ih =>
      rw [List.foldl_cons, ih, max_le_iff]
      simp only [List.mem_cons, forall_eq_or_imp, and_assoc]

theorem fold_min_congr (first second : List Nat) (start : Nat) (same : ∀ value, value ∈ first ↔ value ∈ second) :
    first.foldl min start = second.foldl min start := by
  refine eq_of_forall_le_iff fun bound => ?_
  rw [le_fold_min, le_fold_min]
  simp only [same]

namespace Ranking

variable {request : PlanningRequest}

theorem load_append (lhs rhs : List Route) (index : EdgeIndex) :
    load request (lhs ++ rhs) index = load request lhs index + load request rhs index := by
  rw [load, load, load, List.flatten_append, List.count_append, Nat.mul_add]

theorem set_amount (sound : PlanningRequest.Sound request) (routes : List Route) (index : EdgeIndex) :
    amount (setFor request routes).usage index =
      if (request.fabric.edge index).capacityMbps ≠ 0 then min kCostCeiling (load request routes index) else 0 := by
  have members := usage_mem (state_of_sound request sound) routes index
  have distinct := @usage_distinct (stateOf request) (routes.map (stateOf request).candidateOf)
  by_cases verified : (request.fabric.edge index).capacityMbps ≠ 0
  · rw [if_pos verified]
    by_cases used : index ∈ routes.flatten
    · exact amount_listed _ distinct (index, min kCostCeiling (load request routes index)) ((members _).mpr ⟨verified, used, rfl⟩)
    · have absent : index ∉ (setFor request routes).usage.map Prod.fst := by
        intro listed
        obtain ⟨⟨_, value⟩, member, rfl⟩ := List.mem_map.mp listed
        exact used ((members value).mp member).2.1
      rw [amount_absent _ _ absent, load, List.count_eq_zero.mpr used, Nat.mul_zero, Nat.min_zero]
  · rw [if_neg verified]
    refine amount_absent _ _ fun listed => ?_
    obtain ⟨⟨_, value⟩, member, rfl⟩ := List.mem_map.mp listed
    exact verified ((members value).mp member).1

theorem claim_load (sound : PlanningRequest.Sound request) (assignment : Assignment) (index : EdgeIndex)
    (verified : (request.fabric.edge index).capacityMbps ≠ 0) :
    claim (assignment.map (setFor request)) index ≤ load request assignment.flatten index ∧
      (claim (assignment.map (setFor request)) index < kCostCeiling →
        claim (assignment.map (setFor request)) index = load request assignment.flatten index) := by
  induction assignment with
  | nil =>
      have nothing : claim ([].map (setFor request)) index = 0 := rfl
      rw [nothing]
      exact ⟨Nat.zero_le _, fun _ => by simp [load]⟩
  | cons routes rest ih =>
      rw [List.map_cons, claim_cons, set_amount sound, if_pos verified, List.flatten_cons, load_append]
      constructor
      · exact Nat.add_le_add (min_le_right _ _) ih.1
      · intro low
        have exactly : load request routes index < kCostCeiling := by
          by_contra large
          rw [min_eq_left (not_lt.mp large)] at low
          omega
        rw [min_eq_right exactly.le] at low ⊢
        rw [ih.2 (by omega)]

theorem claim_unverified (sound : PlanningRequest.Sound request) (assignment : Assignment) (index : EdgeIndex)
    (unverified : (request.fabric.edge index).capacityMbps = 0) : claim (assignment.map (setFor request)) index = 0 := by
  induction assignment with
  | nil => rfl
  | cons routes rest ih => rw [List.map_cons, claim_cons, set_amount sound, if_neg (not_not.mpr unverified), ih]

theorem edge_beyond (fabric : FabricGraph) (index : EdgeIndex) (outside : fabric.edges.length ≤ index) :
    (fabric.edge index).capacityMbps = 0 := by
  have default : fabric.edge index = {} := by
    rw [FabricGraph.edge, List.getD_eq_getElem?_getD, List.getElem?_eq_none outside, Option.getD_none]
  rw [default]

-- The footprints of some sets fit together exactly when the routes do.
theorem affordable_iff (sound : PlanningRequest.Sound request) (assignment : Assignment) :
    Affordable (stateOf request).spare (assignment.map (setFor request)) ↔ Fits request assignment.flatten := by
  have ceiling := capacity_below_ceiling
  constructor
  · intro affordable index inside verified
    have room := affordable index
    have bound := edge_spare_bound request.fabric sound.fabric index inside
    change _ ≤ edgeSpare (request.fabric.edge index) at room
    have exactly := (claim_load sound assignment index verified).2 (by omega)
    rw [← exactly, ← edge_spare_eq _ verified]
    exact room
  · intro fits index
    by_cases verified : (request.fabric.edge index).capacityMbps = 0
    · rw [claim_unverified sound assignment index verified]
      exact Nat.zero_le _
    · have inside : index < request.fabric.edges.length := by
        by_contra outside
        exact verified (edge_beyond request.fabric index (not_lt.mp outside))
      have room := fits index inside verified
      have claimed := (claim_load sound assignment index verified).1
      change _ ≤ edgeSpare (request.fabric.edge index)
      rw [edge_spare_eq _ verified]
      omega

theorem conflicts_of_routes (sound : PlanningRequest.Sound request) (routes : List Route) :
    BuildPathSet.conflictsOf (routes.map (stateOf request).candidateOf) = conflictsOf request routes := by
  induction routes with
  | nil => rfl
  | cons route rest ih =>
      rw [List.map_cons, BuildPathSet.conflictsOf, conflictsOf, ih, List.filter_map, List.length_map,
        List.countP_eq_length_filter]
      congr 3
      funext other
      have same := (state_of_sound request sound).independent_iff route other
      by_cases independent : Independent request route other
      · simp [independent, same.mpr independent]
      · have apart : domainsIndependent ((stateOf request).candidateOf route) ((stateOf request).candidateOf other) = false :=
          Bool.eq_false_iff.mpr fun bad => independent (same.mp bad)
        simp [independent, apart]

theorem set_conflicts (sound : PlanningRequest.Sound request) (routes : List Route) :
    (setFor request routes).domainConflicts =
      if request.policy.domainDiversity = .none then 0 else conflictsOf request routes := by
  have paths : sortCandidates (routes.map (stateOf request).candidateOf) = _ := @set_for_paths request routes
  change (if request.policy.domainDiversity = .none then 0 else
    BuildPathSet.conflictsOf (sortCandidates (routes.map (stateOf request).candidateOf))) = _
  rw [paths, conflicts_of_routes sound, conflicts_congr request _ _ (canonical_order_perm request routes)]

theorem set_costs (routes : List Route) :
    ((setFor request routes).paths.map Candidate.cost).Perm (routes.map (routeCost request)) := by
  have perm := (sort_candidates_perm (routes.map (stateOf request).candidateOf)).map Candidate.cost
  rw [List.map_map] at perm
  exact perm

theorem set_total (routes : List Route) :
    (setFor request routes).totalCost = min kCostCeiling (routes.map (routeCost request)).sum := by
  change saturatingSum ((setFor request routes).paths.map Candidate.cost) = _
  rw [saturating_sum_eq, (set_costs routes).sum_eq]

theorem set_largest (routes : List Route) :
    (setFor request routes).maxPathCost = (routes.map (routeCost request)).foldl max 0 :=
  (set_costs routes).foldl_eq 0

theorem capped_sum (ceiling : Nat) (groups : List (List Nat)) :
    min ceiling (groups.map fun group => min ceiling group.sum).sum = min ceiling groups.flatten.sum := by
  induction groups with
  | nil => rfl
  | cons group rest ih =>
      rw [List.map_cons, List.sum_cons, List.flatten_cons, List.sum_append]
      omega

theorem largest_of_largest (groups : List (List Nat)) :
    (groups.map fun group => group.foldl max 0).foldl max 0 = groups.flatten.foldl max 0 := by
  refine eq_of_forall_ge_iff fun bound => ?_
  rw [fold_max_le, fold_max_le]
  simp only [List.mem_map, forall_exists_index, and_imp, forall_apply_eq_imp_iff₂, fold_max_le, Nat.zero_le, true_and,
    List.mem_flatten]
  exact ⟨fun each value group member here => each group member value here,
    fun each group member value here => each value group member here⟩

-- What the planner compares two assignments by is the head of the objective.
theorem result_key (sound : PlanningRequest.Sound request) (plans : List EdgePlan) (choice : List Nat) (assignment : Assignment)
    (sets : setsOf plans choice = assignment.map (setFor request)) (fits : Fits request assignment.flatten) :
    globalKey (result plans (stateOf request).spare choice) = searchKey request assignment := by
  have total : saturatingSum ((assignment.map (setFor request)).map PathSet.totalCost) =
      min kCostCeiling (totalCost request assignment) := by
    have groups := capped_sum kCostCeiling (assignment.map fun routes => routes.map (routeCost request))
    rw [List.map_map, ← List.map_flatten] at groups
    rw [saturating_sum_eq, List.map_map, totalCost, ← groups]
    congr 2
    refine List.map_congr_left fun routes _ => ?_
    exact set_total routes
  have conflicts : ((assignment.map (setFor request)).map PathSet.domainConflicts).sum = siblingConflicts request assignment := by
    rw [List.map_map, siblingConflicts]
    have each : assignment.map (PathSet.domainConflicts ∘ setFor request) = assignment.map fun routes =>
        if request.policy.domainDiversity = .none then 0 else conflictsOf request routes :=
      List.map_congr_left fun routes _ => set_conflicts sound routes
    rw [each]
    split_ifs
    · simp
    · rfl
  have largest : ((assignment.map (setFor request)).map PathSet.maxPathCost).foldl max 0 = largestCost request assignment := by
    have groups := largest_of_largest (assignment.map fun routes => routes.map (routeCost request))
    rw [List.map_map, ← List.map_flatten] at groups
    rw [List.map_map, largestCost, ← groups]
    congr 1
    refine List.map_congr_left fun routes _ => ?_
    exact set_largest routes
  have left : ((assignment.map (setFor request)).flatMap fun set => set.usage.map fun entry =>
      after (stateOf request).spare (assignment.map (setFor request)) entry.1).foldl min kCostCeiling = headroom request assignment := by
    have affordable := (affordable_iff sound assignment).mpr fits
    have exactly : ∀ index, (request.fabric.edge index).capacityMbps ≠ 0 →
        after (stateOf request).spare (assignment.map (setFor request)) index =
          (request.fabric.edge index).capacityMbps - (request.fabric.edge index).reservedMbps -
            load request assignment.flatten index := by
      intro index verified
      have inside : index < request.fabric.edges.length := by
        by_contra outside
        exact verified (edge_beyond request.fabric index (not_lt.mp outside))
      have bound := edge_spare_bound request.fabric sound.fabric index inside
      have ceiling := capacity_below_ceiling
      have room := affordable index
      change _ ≤ edgeSpare (request.fabric.edge index) at room
      have claimed := (claim_load sound assignment index verified).2 (by omega)
      change edgeSpare (request.fabric.edge index) - _ = _
      rw [claimed, edge_spare_eq _ verified]
    refine fold_min_congr _ _ _ fun value => ?_
    simp only [List.mem_flatMap, List.mem_map, List.mem_filter, List.mem_range, decide_eq_true_eq]
    constructor
    · rintro ⟨_, ⟨routes, listed, rfl⟩, ⟨index, claimed⟩, member, rfl⟩
      obtain ⟨verified, used, _⟩ := (usage_mem (state_of_sound request sound) routes index claimed).mp member
      have inside : index < request.fabric.edges.length := by
        by_contra outside
        exact verified (edge_beyond request.fabric index (not_lt.mp outside))
      obtain ⟨route, inRoutes, here⟩ := List.mem_flatten.mp used
      exact ⟨index, ⟨inside, verified, List.mem_flatten.mpr ⟨route, List.mem_flatten.mpr ⟨routes, listed, inRoutes⟩, here⟩⟩,
        (exactly index verified).symm⟩
    · rintro ⟨index, ⟨_, verified, used⟩, rfl⟩
      obtain ⟨route, inFlat, here⟩ := List.mem_flatten.mp used
      obtain ⟨routes, listed, inRoutes⟩ := List.mem_flatten.mp inFlat
      exact ⟨_, ⟨routes, listed, rfl⟩, (index, min kCostCeiling (load request routes index)),
        (usage_mem (state_of_sound request sound) routes index _).mpr ⟨verified, List.mem_flatten.mpr ⟨route, inRoutes, here⟩, rfl⟩,
        exactly index verified⟩
  unfold result globalKey summarise searchKey
  dsimp only
  rw [sets, total, conflicts, largest, left]

end Ranking

end PathPlanner

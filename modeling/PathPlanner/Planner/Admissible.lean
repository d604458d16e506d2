import PathPlanner.Planner.SetsSound

set_option autoImplicit false

namespace PathPlanner

open Sequence Mapping Walk

theorem share_iterate (demand count : Nat) (small : demand ≤ kCostCeiling) :
    (fun old => saturatingAdd old demand kCostCeiling)^[count] demand = min kCostCeiling (demand * (count + 1)) := by
  induction count with
  | zero => simp [small]
  | succ count ih =>
      rw [Function.iterate_succ_apply', ih, saturating_add_clamps, Clamped.clampAdd, Clamped.clamp_absorb]
      rfl

theorem per_path_share_le (request : PlanningRequest) (sound : PlanningRequest.Sound request) :
    perPathShare request ≤ kMaxCapacityMbps := by
  have demand := sound.collective.demand
  have wanted : 1 ≤ max 1 request.policy.pathsPerLogicalEdge := le_max_left _ _
  unfold perPathShare
  dsimp only
  split_ifs with none
  · exact Nat.zero_le _
  · refine le_trans ?_ demand
    rw [Nat.div_le_iff_le_mul_add_pred (by omega)]
    have scaled : request.collective.demandMbps ≤
        max 1 request.policy.pathsPerLogicalEdge * request.collective.demandMbps := Nat.le_mul_of_pos_left _ (by omega)
    omega

theorem edge_spare_bound (fabric : FabricGraph) (sound : FabricGraph.Sound fabric) (index : EdgeIndex)
    (stored : index < fabric.edges.length) : edgeSpare (fabric.edge index) ≤ kMaxCapacityMbps := by
  have capacity := sound.capacity _ (FabricGraph.edge_member fabric index stored)
  unfold edgeSpare
  split_ifs
  · exact Nat.zero_le _
  · omega

theorem capacity_below_ceiling : kMaxCapacityMbps < kCostCeiling := by decide

namespace EnumerateSets

variable {state : PlannerState}

theorem flat_map_edges (state : PlannerState) (routes : List Route) :
    (routes.map state.candidateOf).flatMap Candidate.edges = routes.flatten := by
  rw [List.flatMap_map]
  exact List.flatMap_id

theorem verified_hops_count (routes : List Route) (index : EdgeIndex) (verified : (state.edge index).capacityMbps ≠ 0) :
    (BuildPathSet.verifiedHops state (sortCandidates (routes.map state.candidateOf))).count index =
      routes.flatten.count index := by
  have perm := (sort_candidates_perm (routes.map state.candidateOf)).flatMap_right Candidate.edges
  rw [BuildPathSet.verifiedHops, List.count_filter (by simpa using verified), perm.count_eq, flat_map_edges]

theorem usage_mem (stateSound : PlannerState.Sound state) (routes : List Route) (index : EdgeIndex) (amount : Nat) :
    (index, amount) ∈ (setOf state (routes.map state.candidateOf)).usage ↔
      (state.edge index).capacityMbps ≠ 0 ∧ index ∈ routes.flatten ∧
        amount = min kCostCeiling (load state.request routes index) := by
  have small : state.perPathDemand ≤ kCostCeiling := by
    rw [stateSound.share]
    exact (per_path_share_le _ stateSound.request).trans capacity_below_ceiling.le
  have listed : (index, amount) ∈ (setOf state (routes.map state.candidateOf)).usage ↔
      (index, amount) ∈ BuildPathSet.mergeUsage state.perPathDemand
        (BuildPathSet.verifiedHops state (sortCandidates (routes.map state.candidateOf))) :=
    (List.perm_insertionSort _ _).mem_iff
  rw [listed, BuildPathSet.mergeUsage, Tally.note_all_mem, share_iterate _ _ small]
  by_cases verified : (state.edge index).capacityMbps = 0
  · have absent : index ∉ BuildPathSet.verifiedHops state (sortCandidates (routes.map state.candidateOf)) := by
      intro member
      have passes := (List.mem_filter.mp member).2
      simp [verified] at passes
    simp [verified, absent]
  · have count := verified_hops_count routes index verified
    have member : index ∈ BuildPathSet.verifiedHops state (sortCandidates (routes.map state.candidateOf)) ↔
        index ∈ routes.flatten := by
      rw [← List.count_pos_iff, count, List.count_pos_iff]
    rw [member, count]
    constructor
    · rintro ⟨used, rfl⟩
      have positive : 0 < routes.flatten.count index := List.count_pos_iff.mpr used
      refine ⟨verified, used, ?_⟩
      rw [Nat.sub_add_cancel positive, load, stateSound.share]
    · rintro ⟨_, used, rfl⟩
      have positive : 0 < routes.flatten.count index := List.count_pos_iff.mpr used
      refine ⟨used, ?_⟩
      rw [Nat.sub_add_cancel positive, load, stateSound.share]

theorem usage_distinct (chosen : List Candidate) : ((setOf state chosen).usage.map Prod.fst).Nodup := by
  have perm : ((setOf state chosen).usage).Perm (BuildPathSet.mergeUsage state.perPathDemand
      (BuildPathSet.verifiedHops state (sortCandidates chosen))) := List.perm_insertionSort _ _
  exact ((perm.map Prod.fst).nodup_iff).mpr (Tally.note_all_distinct _ _ _)

-- The footprint of a set fits the fabric alone exactly when its exact loads do.
theorem fits_spare_iff (stateSound : PlannerState.Sound state) (routes : List Route)
    (stored : ∀ index ∈ routes.flatten, index < state.fabric.edges.length) :
    fitsSpare state (setOf state (routes.map state.candidateOf)) = true ↔ Fits state.request routes := by
  have ceiling := capacity_below_ceiling
  rw [fitsSpare, List.all_eq_true]
  constructor
  · intro fits index inside verified
    by_cases used : index ∈ routes.flatten
    · have entry := fits (index, min kCostCeiling (load state.request routes index))
        ((usage_mem stateSound routes index _).mpr ⟨verified, used, rfl⟩)
      have room : min kCostCeiling (load state.request routes index) ≤ state.spare index := by simpa using entry
      have bound := edge_spare_bound state.fabric stateSound.request.fabric index inside
      rw [PlannerState.spare] at room
      have loaded : load state.request routes index ≤ edgeSpare (state.edge index) := by
        change edgeSpare (state.edge index) ≤ _ at bound
        omega
      rwa [edge_spare_eq _ verified] at loaded
    · rw [load, List.count_eq_zero.mpr used]
      simp
  · rintro fits ⟨index, amount⟩ member
    obtain ⟨verified, used, rfl⟩ := (usage_mem stateSound routes index amount).mp member
    have room := fits index (stored index used) verified
    rw [decide_eq_true_iff, PlannerState.spare, edge_spare_eq _ verified]
    exact (min_le_right _ _).trans room

-- A set of candidates that stands for an admissible set of routes.
structure SetSound (state : PlannerState) (task : EnumerationTask) (set : PathSet) (routes : List Route) : Prop where
  built : set = setOf state (routes.map state.candidateOf)
  paths : set.paths = routes.map state.candidateOf
  admissible : AdmissibleSet state.request task.sourceBinding task.targetBinding routes

theorem wanted_eq (stateSound : PlannerState.Sound state) :
    max 1 state.policy.pathsPerLogicalEdge = state.policy.pathsPerLogicalEdge :=
  max_eq_right stateSound.request.policy.paths.1

variable {task : EnumerationTask}

theorem pool_routes (pool : List Candidate) (poolSound : BuildPool.PoolSound state task pool) :
    pool = (pool.map Candidate.edges).map state.candidateOf := by
  rw [List.map_map]
  have fixed : ∀ candidate ∈ pool, (state.candidateOf ∘ Candidate.edges) candidate = candidate := by
    intro candidate member
    obtain ⟨route, rfl, _⟩ := poolSound.candidates candidate member
    rfl
  exact (List.map_id'' (f := id) (fun _ => rfl) pool).symm.trans (List.map_congr_left fixed).symm

theorem compatible_pairwise (stateSound : PlannerState.Sound state) (routes : List Route) :
    (routes.map state.candidateOf).Pairwise (Compatible state) ↔ routes.Pairwise (Separate state.request) := by
  rw [List.pairwise_map]
  constructor
  · exact List.Pairwise.imp fun {lhs rhs} kept => (stateSound.reject_pair_iff 0 lhs rhs).mp kept
  · exact List.Pairwise.imp fun {lhs rhs} kept => (stateSound.reject_pair_iff 0 lhs rhs).mpr kept

theorem offered_sound (stateSound : PlannerState.Sound state) (pool : List Candidate)
    (poolSound : BuildPool.PoolSound state task pool)
    (sorted : pool.Pairwise fun a b => candidateKey a < candidateKey b) (set : PathSet)
    (member : set ∈ offered state (choices state (max 1 state.policy.pathsPerLogicalEdge) pool [])) :
    ∃ routes, SetSound state task set routes := by
  obtain ⟨made, fits⟩ := List.mem_filter.mp member
  obtain ⟨chosen, complete, rfl⟩ := List.mem_map.mp made
  obtain ⟨picked, part, eq, length, pairwise, _⟩ := (choices_mem state _ pool [] chosen (Nat.zero_le _)).mp complete
  rw [List.nil_append] at eq
  subst eq
  have pickedSound := BuildPool.pool_sublist pool chosen part poolSound
  have routesEq := pool_routes chosen pickedSound
  have compliant : ∀ route ∈ chosen.map Candidate.edges,
      CompliantRoute state.request task.sourceBinding task.targetBinding route := by
    intro route inside
    obtain ⟨candidate, inChosen, rfl⟩ := List.mem_map.mp inside
    obtain ⟨route, rfl, good⟩ := pickedSound.candidates candidate inChosen
    exact good
  have stored : ∀ index ∈ (chosen.map Candidate.edges).flatten, index < state.fabric.edges.length := by
    intro index inside
    obtain ⟨route, listed, here⟩ := List.mem_flatten.mp inside
    exact (compliant route listed).stored index here
  refine ⟨chosen.map Candidate.edges, ?_, ?_, ?_, pickedSound.distinct, compliant, ?_, ?_⟩
  · rw [← routesEq]
  · rw [← routesEq]
    exact sort_candidates_strict chosen (sorted.sublist part)
  · rw [List.length_map, length, wanted_eq stateSound]
  · rw [← compatible_pairwise stateSound, ← routesEq]
    exact pairwise
  · rw [← fits_spare_iff stateSound _ stored, ← routesEq]
    exact fits

-- When the pool has every compliant route, every admissible set is offered in the pool's order.
theorem offered_complete (stateSound : PlannerState.Sound state) (pool : List Candidate)
    (poolSound : BuildPool.PoolSound state task pool)
    (complete : ∀ route, CompliantRoute state.request task.sourceBinding task.targetBinding route →
      state.candidateOf route ∈ pool)
    (routes : List Route) (admissible : AdmissibleSet state.request task.sourceBinding task.targetBinding routes) :
    ∃ order : List Route, order.Perm routes ∧ setOf state (order.map state.candidateOf) ∈
      offered state (choices state (max 1 state.policy.pathsPerLogicalEdge) pool []) := by
  let chosen := pool.filter fun candidate => decide (candidate.edges ∈ routes)
  have part : chosen.Sublist pool := List.filter_sublist
  have chosenSound := BuildPool.pool_sublist pool chosen part poolSound
  have perm : (chosen.map Candidate.edges).Perm routes := by
    rw [List.perm_ext_iff_of_nodup chosenSound.distinct admissible.distinct]
    intro route
    rw [List.mem_map]
    constructor
    · rintro ⟨candidate, inside, rfl⟩
      exact of_decide_eq_true (List.mem_filter.mp inside).2
    · intro listed
      refine ⟨state.candidateOf route, List.mem_filter.mpr ⟨complete route (admissible.compliant route listed), ?_⟩, rfl⟩
      exact decide_eq_true listed
  have routesEq := pool_routes chosen chosenSound
  have separate : (chosen.map Candidate.edges).Pairwise (Separate state.request) :=
    perm.symm.pairwise admissible.separate fun left => separate_symm state.request _ _ left
  have stored : ∀ index ∈ (chosen.map Candidate.edges).flatten, index < state.fabric.edges.length := by
    intro index inside
    obtain ⟨route, listed, here⟩ := List.mem_flatten.mp inside
    exact (admissible.compliant route (perm.mem_iff.mp listed)).stored index here
  have fits : Fits state.request (chosen.map Candidate.edges) := by
    intro index inside verified
    rw [load, (perm.flatten).count_eq]
    exact admissible.fits index inside verified
  refine ⟨chosen.map Candidate.edges, perm, ?_⟩
  rw [← routesEq]
  refine List.mem_filter.mpr ⟨List.mem_map.mpr ⟨chosen, ?_, rfl⟩, ?_⟩
  · refine (choices_mem state _ pool [] chosen (Nat.zero_le _)).mpr ⟨chosen, part, rfl, ?_, ?_, by simp⟩
    · rw [wanted_eq stateSound, ← admissible.count, ← perm.length_eq, List.length_map]
    · rw [routesEq, compatible_pairwise stateSound]
      exact separate
  · rw [routesEq, fits_spare_iff stateSound _ stored]
    exact fits

end EnumerateSets

end PathPlanner

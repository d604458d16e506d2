import PathPlanner.PlanChecks
import PathPlanner.Planner.Admissible

set_option autoImplicit false

namespace PathPlanner

namespace AmountMap

theorem find_mem (amounts : AmountMap) (distinct : (amounts.map Prod.fst).Nodup) (edge : EdgeId) (amount : Nat) :
    amounts.find edge = some amount ↔ (edge, amount) ∈ amounts := by
  induction amounts with
  | nil => simp [find]
  | cons entry rest ih =>
      obtain ⟨fresh, later⟩ := List.nodup_cons.mp distinct
      rw [find, List.find?_cons]
      by_cases same : entry.1 = edge
      · have absent : ∀ other, (edge, other) ∉ rest := fun other member =>
          fresh (List.mem_map.mpr ⟨(edge, other), member, same.symm⟩)
        obtain ⟨key, stored⟩ := entry
        simp only at same
        subst same
        simp [absent, eq_comm]
      · have other : (edge, amount) ≠ entry := fun eq => same (by rw [← eq])
        simp only [same, decide_false, List.mem_cons, other, false_or]
        exact ih later

theorem accumulate_distinct (amount : Nat) (edges : List EdgeId) : ((accumulate amount edges).map Prod.fst).Nodup :=
  Tally.note_all_distinct _ _ _

theorem accumulate_mem (amount : Nat) (small : amount ≤ kCostCeiling) (edges : List EdgeId) (edge : EdgeId) (total : Nat) :
    (edge, total) ∈ accumulate amount edges ↔ edge ∈ edges ∧ total = min kCostCeiling (amount * edges.count edge) := by
  rw [accumulate, Tally.note_all_mem]
  refine and_congr_right fun used => ?_
  have first : saturatingAdd 0 amount kCostCeiling = amount := by
    rw [saturating_add_clamps, Clamped.clampAdd]
    omega
  have positive : 0 < edges.count edge := List.count_pos_iff.mpr used
  rw [first, share_iterate amount _ small, Nat.sub_add_cancel positive]

theorem accumulate_keys (amount : Nat) (small : amount ≤ kCostCeiling) (edges : List EdgeId) (edge : EdgeId) :
    edge ∈ (accumulate amount edges).map Prod.fst ↔ edge ∈ edges := by
  constructor
  · intro listed
    obtain ⟨⟨key, total⟩, member, rfl⟩ := List.mem_map.mp listed
    exact ((accumulate_mem amount small edges key total).mp member).1
  · intro used
    exact List.mem_map.mpr ⟨(edge, _), (accumulate_mem amount small edges edge _).mpr ⟨used, rfl⟩, rfl⟩

end AmountMap

namespace ValidatePlan

-- Every use of an edge by a hop of a plan.
def usedEdges (plan : Plan) : List EdgeId := (plan.paths.flatMap PathPlan.hops).map Hop.edge

-- What a plan places on an edge, without any ceiling.
def placedMbps (plan : Plan) (request : PlanningRequest) (edge : EdgeId) : Nat :=
  perPathShare request * (usedEdges plan).count edge

variable {plan : Plan} {request : PlanningRequest}

theorem share_positive (sound : PlanningRequest.Sound request) (demanded : 0 < request.collective.demandMbps) :
    perPathShare request = (request.collective.demandMbps + request.policy.pathsPerLogicalEdge - 1) /
      request.policy.pathsPerLogicalEdge := by
  have wanted : max 1 request.policy.pathsPerLogicalEdge = request.policy.pathsPerLogicalEdge :=
    max_eq_right sound.policy.paths.1
  rw [perPathShare, if_neg demanded.ne', wanted]

theorem recomputed_eq (sound : PlanningRequest.Sound request) :
    recomputed plan request =
      if 0 < request.collective.demandMbps then AmountMap.accumulate (perPathShare request) (usedEdges plan) else [] := by
  unfold recomputed
  by_cases demanded : 0 < request.collective.demandMbps
  · rw [if_pos demanded, if_pos demanded, share_positive sound demanded]
    rfl
  · rw [if_neg demanded, if_neg demanded]

theorem share_small (sound : PlanningRequest.Sound request) : perPathShare request ≤ kCostCeiling :=
  (per_path_share_le request sound).trans capacity_below_ceiling.le

theorem logical_edge_known (valid : Valid plan request) (path : PathPlan) (member : path ∈ plan.paths) :
    path.logicalEdge.value.toNat - 1 < request.collective.logicalEdges.length ∧ 0 < path.logicalEdge.value.toNat := by
  obtain ⟨before, after, split⟩ := List.append_of_mem member
  have checked := valid.paths before path after split
  have nonzero : path.logicalEdge.value.toNat ≠ 0 := fun zero =>
    checked.edgePositive (UInt64.toNat_inj.mp (by rw [zero]; rfl))
  have inside := checked.edgeInside
  omega

-- Each logical edge has its k paths and no path belongs to another.
theorem path_count (valid : Valid plan request) :
    plan.paths.length = request.collective.logicalEdges.length * request.policy.pathsPerLogicalEdge := by
  have classes := @Multiset.sum_count_eq_card _ _ (Finset.range request.collective.logicalEdges.length)
    (plan.paths.map fun path => path.logicalEdge.value.toNat - 1 : List Nat) (by
      intro index member
      obtain ⟨path, listed, rfl⟩ := List.mem_map.mp (Multiset.mem_coe.mp member)
      exact Finset.mem_range.mpr (logical_edge_known valid path listed).1)
  have each : ∀ index ∈ Finset.range request.collective.logicalEdges.length,
      (plan.paths.map fun path => path.logicalEdge.value.toNat - 1).count index = request.policy.pathsPerLogicalEdge := by
    intro index inside
    rw [← (valid.siblings index (Finset.mem_range.mp inside)).count, siblingsOf, ← List.countP_eq_length_filter,
      List.count, List.countP_map]
    refine List.countP_congr fun path listed => ?_
    have known := logical_edge_known valid path listed
    simp only [Function.comp_apply, beq_iff_eq, decide_eq_true_eq]
    omega
  simp only [Multiset.coe_count, Multiset.coe_card, List.length_map] at classes
  rw [← classes, Finset.sum_congr rfl each, Finset.sum_const, Finset.card_range, smul_eq_mul]

theorem path_edges_distinct (valid : Valid plan request) (path : PathPlan) (member : path ∈ plan.paths) :
    (path.hops.map Hop.edge).Nodup := by
  obtain ⟨before, after, split⟩ := List.append_of_mem member
  obtain ⟨_, _, _, _, route⟩ := (valid.paths before path after split).route
  have simple := route.simple
  simp only [hopsAreSimple, Bool.and_eq_true, decide_eq_true_eq] at simple
  exact simple.1.1

theorem used_count_le (valid : Valid plan request) (edge : EdgeId) : (usedEdges plan).count edge ≤ plan.paths.length := by
  rw [usedEdges, List.map_flatMap, List.count_flatMap, ← Nat.mul_one plan.paths.length]
  refine (List.sum_le_card_nsmul _ 1 ?_).trans (by simp)
  intro amount listed
  obtain ⟨path, member, rfl⟩ := List.mem_map.mp listed
  exact List.nodup_iff_count_le_one.mp (path_edges_distinct valid path member) edge

-- The sums never reach the ceiling at which they would saturate.
theorem placed_below_ceiling (sound : PlanningRequest.Sound request) (valid : Valid plan request) (edge : EdgeId) :
    placedMbps plan request edge ≤ kCostCeiling := by
  have share := per_path_share_le request sound
  have uses := used_count_le valid edge
  have paths : plan.paths.length ≤ kMaxLogicalEdges * kMaxPathsPerLogicalEdge := by
    rw [path_count valid]
    exact Nat.mul_le_mul sound.collective.bounded sound.policy.paths.2
  calc placedMbps plan request edge
      ≤ kMaxCapacityMbps * (kMaxLogicalEdges * kMaxPathsPerLogicalEdge) := Nat.mul_le_mul share (uses.trans paths)
    _ ≤ kCostCeiling := by decide

end ValidatePlan

end PathPlanner

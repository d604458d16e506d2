import PathPlanner.PlanCodec
import PathPlanner.Planner.PlanContract

set_option autoImplicit false

namespace PathPlanner

open Mapping SolveGlobal Ranking Plan

namespace PlanCollective

variable {request : PlanningRequest} {plans : List EdgePlan} {sets : List PathSet} {assignment : Assignment}

-- Between endpoints on one node only the empty route is simple.
theorem route_nonempty (source target : EndpointBinding) (lhs rhs : Route) (left : CompliantRoute request source target lhs)
    (right : CompliantRoute request source target rhs) (differ : lhs ≠ rhs) : lhs ≠ [] := by
  intro empty
  subst empty
  have here : source.node = target.node := left.walk
  have used : rhs ≠ [] := fun eq => differ eq.symm
  have last := Walk.finish_last _ _ _ _ _ used right.walk
  have simple := (List.nodup_cons.mp right.simple).1
  exact simple (List.mem_map.mpr ⟨_, List.getLast_mem used, last.trans here.symm⟩)

theorem routes_nonempty (fitting : FittingAssignment request assignment) (many : 2 ≤ request.policy.pathsPerLogicalEdge) :
    ∀ route ∈ assignment.flatten, route ≠ [] := by
  intro route inAll
  obtain ⟨routes, member, chosen⟩ := List.mem_flatten.mp inAll
  obtain ⟨position, bound, rfl⟩ := List.getElem_of_mem member
  obtain ⟨_, _, _, _, admissible⟩ := admissible_at fitting position bound
  rw [List.getD_eq_getElem?_getD, List.getElem?_eq_getElem bound, Option.getD_some] at admissible
  have crowd : 1 < assignment[position].length := by
    rw [admissible.count]
    exact many
  obtain ⟨other, listed, differ⟩ : ∃ other ∈ assignment[position], other ≠ route := by
    by_contra only
    push Not at only
    have distinct := admissible.distinct
    rw [List.eq_replicate_of_mem only, List.nodup_replicate] at distinct
    omega
  exact route_nonempty _ _ route other (admissible.compliant route chosen) (admissible.compliant other listed) differ.symm

theorem drop_attachments_sublist (first last : FailureDomainId) (removedFirst removedLast : Bool) (domains : List FailureDomainId) :
    (dropAttachments first last removedFirst removedLast domains).Sublist domains := by
  induction domains generalizing removedFirst removedLast with
  | nil => exact List.Sublist.refl _
  | cons domain rest ih =>
      rw [dropAttachments]
      split_ifs
      · exact (ih _ _).cons _
      · exact (ih _ _).cons _
      · exact (ih _ _).cons_cons _

theorem signature_length (policy : Policy) (domains : List FailureDomainId) :
    (signatureOf policy domains).length ≤ domains.length := by
  unfold signatureOf
  split
  · exact Nat.zero_le _
  · exact Nat.zero_le _
  · exact (PlanningRequest.sort_unique_length _).trans (drop_attachments_sublist _ _ _ _ _).length_le

theorem signature_mem (policy : Policy) (domains : List FailureDomainId) (domain : FailureDomainId)
    (member : domain ∈ signatureOf policy domains) : domain ∈ domains := by
  unfold signatureOf at member
  split at member
  · simp at member
  · simp at member
  · exact (drop_attachments_sublist _ _ _ _ _).mem ((Sequence.sort_unique_mem _ _).mp member)

theorem domain_at_level_short (named : PlanningRequest.Named request) (edge : Edge) (listed : edge ∈ request.fabric.edges)
    (level : DomainKind) : Short (domainAtLevel request.fabric edge.failureDomain level) := by
  unfold domainAtLevel
  split_ifs
  · exact Nat.zero_le _
  · split
    · rename_i entry found
      have known := List.find?_some found
      refine (PlanningRequest.find_failure_domain_named named.fabric entry fun missing => ?_).short
      simp [missing] at known
    · exact (named.fabric.edges edge listed).failureDomain.short

theorem hop_fits (named : PlanningRequest.Named request) (index : EdgeIndex) (stored : index < request.fabric.edges.length) :
    HopFits (hopOf request index) := by
  have edge := named.fabric.edges _ (FabricGraph.edge_member request.fabric index stored)
  exact ⟨edge.id.short, edge.source.short, edge.target.short⟩

theorem path_for_fits (sound : PlanningRequest.Sound request) (named : PlanningRequest.Named request)
    (source target : EndpointBinding) (id index : Nat) (route : Route) (inside : index < request.collective.logicalEdges.length)
    (compliant : CompliantRoute request source target route) : PathFits (pathFor request id index route) := by
  have logical : request.collective.logicalEdges.getD index {} ∈ request.collective.logicalEdges := by
    rw [List.getD_eq_getElem?_getD, List.getElem?_eq_getElem inside, Option.getD_some]
    exact List.getElem_mem inside
  have ends := named.collective.edges _ logical
  have hops := compliant.hops.trans sound.policy.hops.2
  refine ⟨ends.1.short, ends.2.short, ⟨?_, fun hop member => ?_⟩, ?_, fun domain member => ?_⟩
  · rw [pathFor, List.length_map]
    exact hops
  · obtain ⟨edge, inRoute, rfl⟩ := List.mem_map.mp member
    exact hop_fits named edge (compliant.stored edge inRoute)
  · have small : kMaxHops ≤ kMaxFailureDomains := by decide
    have short := signature_length request.policy
      ((route.filter fun edge => (request.fabric.edge edge).failureDomain.valid).map (hopDomain request))
    rw [List.length_map] at short
    have kept := List.length_filter_le (fun edge => (request.fabric.edge edge).failureDomain.valid) route
    change (routeSignature request route).length ≤ _
    rw [routeSignature]
    omega
  · obtain ⟨edge, kept, rfl⟩ := List.mem_map.mp (signature_mem _ _ domain member)
    have stored := compliant.stored edge (List.mem_of_mem_filter kept)
    exact domain_at_level_short named _ (FabricGraph.edge_member request.fabric edge stored) _

theorem sum_ge (items : List Nat) (least : Nat) (all : ∀ item ∈ items, least ≤ item) : least * items.length ≤ items.sum := by
  have bound := List.card_nsmul_le_sum items least all
  rwa [smul_eq_mul, Nat.mul_comm] at bound

-- A path with a hop takes at least 64 bytes of a record.
theorem path_encoding_length (path : PathPlan) (used : path.hops ≠ []) : 64 ≤ (encodePath path).length := by
  cases hops : path.hops with
  | nil => exact absurd hops used
  | cons first rest =>
      simp [encodePath, hops, encodeHop]
      omega

theorem paths_encoding_length (plan : Plan) : (plan.paths.map fun path => (encodePath path).length).sum ≤ (encode plan).length := by
  simp [encode]
  omega

-- A record within the bound cannot list more paths than the decoder accepts.
theorem recorded_paths_few (sound : PlanningRequest.Sound request) (fitting : FittingAssignment request assignment) (plan : Plan)
    (paths : plan.paths = pathsFor request assignment) (size : (encode plan).length ≤ kMaxPlanRecordBytes) :
    plan.paths.length ≤ kMaxLogicalEdges := by
  by_cases many : 2 ≤ request.policy.pathsPerLogicalEdge
  · have used : ∀ path ∈ plan.paths, path.hops ≠ [] := by
      intro path member
      have hops := @paths_for_map request _ assignment PathPlan.hops (List.map (hopOf request)) fun _ _ _ => rfl
      have listed : path.hops ∈ plan.paths.map PathPlan.hops := List.mem_map_of_mem member
      rw [paths, hops] at listed
      obtain ⟨route, inAll, same⟩ := List.mem_map.mp listed
      rw [← same, ne_eq, List.map_eq_nil_iff]
      exact routes_nonempty fitting many route inAll
    have total := sum_ge (plan.paths.map fun path => (encodePath path).length) 64 fun amount listed => by
      obtain ⟨path, member, rfl⟩ := List.mem_map.mp listed
      exact path_encoding_length path (used path member)
    rw [List.length_map] at total
    have whole := (total.trans (paths_encoding_length plan)).trans size
    have bound : kMaxPlanRecordBytes = 64 * kMaxLogicalEdges := by decide
    omega
  · have one : request.policy.pathsPerLogicalEdge = 1 := by
      have least := sound.policy.paths.1
      omega
    rw [paths, paths_for_length, routes_count fitting, one, Nat.mul_one]
    exact sound.collective.bounded

theorem assembled_fits (sound : PlanningRequest.Sound request) (named : PlanningRequest.Named request)
    (assembles : Assembles request plans sets assignment)
    (size : (encode (assemble request (perPathShare request) plans sets)).length ≤ kMaxPlanRecordBytes) :
    Fits (assemble request (perPathShare request) plans sets) := by
  have fitting := assembles.fitting
  have paths : (assemble request (perPathShare request) plans sets).paths = pathsFor request assignment := assembles.paths sound
  have few := recorded_paths_few sound fitting _ paths size
  have levels := named.collective.stageCount
  have small : kMaxHierarchyLevels < 2 ^ 32 ∧ kMaxHierarchyLevels ≤ kMaxStages := by decide
  have stageCount : (UInt32.ofNat request.collective.stageCount).toNat = request.collective.stageCount :=
    UInt32.toNat_ofNat_of_lt' (show request.collective.stageCount < 2 ^ 32 by omega)
  refine ⟨rfl, named.collective.id.short, ?_, ⟨?_, fun stage member => ?_⟩, ⟨few, fun path member => ?_⟩,
    ⟨?_, fun allocation member => ?_⟩⟩
  · intro either
    change UInt32.ofNat request.collective.stageCount = 0 ∨ (UInt32.ofNat request.collective.stageCount).toNat > kMaxStages at either
    rcases either with zero | beyond
    · rw [zero] at stageCount
      simp at stageCount
      omega
    · omega
  · rw [assemble, List.length_map, List.length_range]
    omega
  · obtain ⟨index, _, rfl⟩ := List.mem_map.mp member
    refine ⟨?_, ?_⟩
    · rw [stageEntry, List.length_map]
      exact (List.length_filter_le _ _).trans (assembles.plansCount.le.trans sound.collective.bounded)
    · rw [stageEntry, List.length_map]
      exact (List.length_filter_le _ _).trans few
  · rw [paths] at member
    obtain ⟨position, stored⟩ := List.mem_iff_getElem?.mp member
    obtain ⟨entry, found, rfl⟩ := paths_for_get assignment position path stored
    have listed := List.mem_of_getElem? found
    have inside := placed_inside assignment entry listed
    obtain ⟨source, target, _, _, admissible⟩ := admissible_at fitting entry.1 inside
    exact path_for_fits sound named source target _ _ _ (fitting.admissible.length_eq ▸ inside)
      (admissible.compliant _ ((placed_mem assignment entry).mp listed))
  · rw [assemble, allocationTable, List.length_map]
    exact (List.length_filter_le _ _).trans ((List.length_range).le.trans sound.fabric.edgeCount)
  · obtain ⟨index, inside, _, rfl⟩ := (allocation_mem assembles allocation).mp member
    exact (named.fabric.edges _ (FabricGraph.edge_member request.fabric index inside)).id.short

theorem planned_decodable (input : BuiltRequest) (limits : PlannerLimits) (plan : Plan)
    (planned : (planCollective input.request limits).plan = some plan) (nonzero : plan.inputDigest.isZero = false)
    (size : (encode plan).length ≤ kMaxPlanRecordBytes) : Decodable plan := by
  obtain ⟨best, assignment, _, rfl, assembles, _⟩ := planned_assembles input.sound planned
  refine ⟨assembled_fits input.sound input.named assembles size, ?_, nonzero, size⟩
  have paths : (assembled input.request limits best).paths = pathsFor input.request assignment := assembles.paths input.sound
  have few := paths_for_few input.sound assembles.fitting
  have word : kMaxLogicalEdges * kMaxPathsPerLogicalEdge ≤ kCostCeiling := by decide
  have count := chosen_routes_of assembles
  have length : (chosenCandidates (recorded input.request limits) (chosenSets (recorded input.request limits) best.choice)).length =
      assignment.flatten.length := by
    rw [← List.length_map Prod.snd, count, List.length_map]
  rw [paths]
  rw [paths_for_length] at few ⊢
  change assignment.flatten.length = (UInt64.ofNat ((chosenCandidates _ _).map Prod.snd).length).toNat
  rw [List.length_map, length]
  exact (ceiling_word _ (few.trans word)).symm

-- Encoding is a bijection between the decodable plans, the planner's among them, and the accepted records.
theorem plan_codec_bijective :
    (∀ plan, Decodable plan → decode (encode plan) = .ok plan) ∧
    (∀ (input : BuiltRequest) (limits : PlannerLimits) (plan : Plan),
      (planCollective input.request limits).plan = some plan → plan.inputDigest.isZero = false →
      (encode plan).length ≤ kMaxPlanRecordBytes → decode (encode plan) = .ok plan) ∧
    ∀ bytes plan, decode bytes = .ok plan → encode plan = bytes := by
  refine ⟨decode_encode, fun input limits plan planned nonzero size => ?_, fun bytes plan decoded => ?_⟩
  · exact decode_encode plan (planned_decodable input limits plan planned nonzero size)
  · exact (decode_canonical bytes plan decoded).2

end PlanCollective

end PathPlanner

import PathPlanner.Planner.PlanContract

set_option autoImplicit false

namespace PathPlanner

open Mapping PlanCollective

namespace ValidatePlan

variable {plan : Plan} {request : PlanningRequest}

theorem allocations_exact (sound : PlanningRequest.Sound request) (valid : Valid plan request)
    (demanded : 0 < request.collective.demandMbps) (allocation : Allocation) (member : allocation ∈ plan.allocations) :
    allocation.edge ∈ usedEdges plan ∧ allocation.plannedMbps.toNat = placedMbps plan request allocation.edge := by
  have small := share_small sound
  have recorded := valid.allocations.recorded allocation member
  rw [recomputed_eq sound, if_pos demanded, AmountMap.find_mem _ (AmountMap.accumulate_distinct _ _),
    AmountMap.accumulate_mem _ small] at recorded
  refine ⟨recorded.1, recorded.2.trans ?_⟩
  exact min_eq_right (placed_below_ceiling sound valid allocation.edge)

-- Equal sizes and one-way lookups leave no used edge out.
theorem allocations_complete (sound : PlanningRequest.Sound request) (valid : Valid plan request)
    (demanded : 0 < request.collective.demandMbps) (edge : EdgeId) (used : edge ∈ usedEdges plan) :
    edge ∈ plan.allocations.map Allocation.edge := by
  have small := share_small sound
  have keys : ∀ id, id ∈ (recomputed plan request).map Prod.fst ↔ id ∈ usedEdges plan := by
    intro id
    rw [recomputed_eq sound, if_pos demanded, AmountMap.accumulate_keys _ small]
  have listed : plan.allocations.map Allocation.edge ⊆ (recomputed plan request).map Prod.fst := by
    intro id member
    obtain ⟨allocation, inTable, rfl⟩ := List.mem_map.mp member
    exact (keys _).mpr (allocations_exact sound valid demanded allocation inTable).1
  have same := (valid.allocations.distinct.subperm listed).perm_of_length_le (by
    rw [List.length_map, List.length_map]
    exact valid.allocations.counted.le)
  exact same.mem_iff.mpr ((keys edge).mpr used)

-- An accepted plan commits exactly what its hops add up to, and never more than is spare.
theorem capacity_sound (input : BuiltRequest) (plan : Plan) (accepted : validatePlan plan input.request = .ok ()) :
    (0 < input.request.collective.demandMbps →
      (plan.allocations.map Allocation.edge).Nodup ∧
      (∀ edge amount, (∃ allocation ∈ plan.allocations, allocation.edge = edge ∧ allocation.plannedMbps.toNat = amount) ↔
        edge ∈ usedEdges plan ∧ amount = placedMbps plan input.request edge) ∧
      ∀ edge ∈ input.request.fabric.edges, edge.capacityMbps ≠ 0 →
        placedMbps plan input.request edge.id ≤ edge.capacityMbps - edge.reservedMbps) ∧
    (input.request.collective.demandMbps = 0 → plan.allocations = []) := by
  have sound := input.sound
  have valid := validate_plan_ok.mp accepted
  refine ⟨fun demanded => ⟨valid.allocations.distinct, fun edge amount => ⟨?_, ?_⟩, fun edge listed verified => ?_⟩, fun idle => ?_⟩
  · rintro ⟨allocation, member, named, same⟩
    subst named same
    exact allocations_exact sound valid demanded allocation member
  · rintro ⟨used, same⟩
    obtain ⟨allocation, member, rfl⟩ := List.mem_map.mp (allocations_complete sound valid demanded edge used)
    exact ⟨allocation, member, rfl, (allocations_exact sound valid demanded allocation member).2.trans same.symm⟩
  · by_cases used : edge.id ∈ usedEdges plan
    · obtain ⟨allocation, member, named⟩ := List.mem_map.mp (allocations_complete sound valid demanded edge.id used)
      obtain ⟨found, stored, room⟩ := valid.allocations.spare allocation member
      obtain ⟨index, inside, rfl⟩ := FabricGraph.edge_index_of input.request.fabric edge listed
      rw [named, sound.fabric.find_edge_index index inside, Option.some.injEq] at stored
      subst stored
      have exact := (allocations_exact sound valid demanded allocation member).2
      rw [named] at exact
      rw [← exact]
      exact room (Nat.pos_of_ne_zero verified)
    · rw [placedMbps, List.count_eq_zero.mpr used, Nat.mul_zero]
      exact Nat.zero_le _
  · have counted := valid.allocations.counted
    rw [recomputed_eq sound, if_neg (by omega)] at counted
    exact List.length_eq_zero_iff.mp counted.symm

theorem two_leaves_capacity : (twoLeavesPlan.allocations.map Allocation.edge).Nodup := by
  have exact := capacity_sound twoLeaves twoLeavesPlan (planned_valid twoLeaves two_leaves_plan)
  rcases Nat.eq_zero_or_pos twoLeaves.request.collective.demandMbps with idle | demanded
  · rw [exact.2 idle]
    exact List.nodup_nil
  · exact (exact.1 demanded).1

-- A request whose cheaper edge is ineligible and declares no failure domain.
def barredEdge : Edge := { Sample.edge "e1" "a" "b" 1 10 with eligible := false, failureDomain := unset }

def barred : BuiltRequest :=
  .of { Sample.request .tree (Sample.star ["p", "q"]) 0 (Sample.fabric ["a", "b"] [barredEdge, Sample.edge "e2" "a" "b" 1 20])
      [Sample.binding "p" "a", Sample.binding "q" "b"] with
    policy := { generation := ⟨1⟩, pathsPerLogicalEdge := 2, domainDiversity := .required } } (draft_accepted _ (by decide +kernel))

def forgedPath (id : UInt64) (edge : String) : PathPlan :=
  { id := ⟨id⟩, logicalEdge := ⟨1⟩, src := ⟨text "p"⟩, dst := ⟨text "q"⟩,
    hops := [⟨⟨text edge⟩, ⟨text "a"⟩, ⟨text "b"⟩⟩], weakestEvidence := .measured }

-- A plan over both edges that costs nothing, lists nothing and counts seven paths.
def forgedPlan : Plan :=
  { id := ⟨barred.request.canonicalDigest⟩, inputDigest := barred.request.canonicalDigest, generation := ⟨1⟩,
    bindings := barred.request.currentBindings, collective := ⟨text "c"⟩, kind := .tree, stages := [{}],
    paths := [forgedPath 1 "e1", forgedPath 2 "e2"],
    stats := { pathCount := 7, hopCount := 2, logicalEdgeCount := 1 }, weakestEvidence := .measured }

theorem digest_of (plan : Plan) (digest : Digest) (same : plan = { plan with inputDigest := digest }) :
    plan.inputDigest = digest := by
  rw [same]

theorem forged_digest : forgedPlan.inputDigest = barred.request.canonicalDigest := digest_of _ _ rfl

theorem forged_accepted : validatePlan forgedPlan barred.request = .ok () := by
  simp only [forgedPlan, BuiltRequest.drafted]
  decide +kernel

theorem barred_edge_found : barred.request.fabric.findEdge ⟨text "e1"⟩ = some barredEdge := by
  have found : (FabricGraph.build barred.spec.fabric).map (fun fabric => fabric.findEdge ⟨text "e1"⟩) = .ok (some barredEdge) := by
    decide +kernel
  rw [barred.parts.fabric] at found
  exact Except.ok.inj found

-- The cost that the fabric gives to a list of hops.
def hopsCost (request : PlanningRequest) (hops : List Hop) : Nat :=
  saturatingSum (hops.filterMap fun hop => (request.fabric.findEdge hop.edge).map (edgeCostOf request.policy))

-- A hop that the planner itself could have taken between two bindings.
structure HopEligible (request : PlanningRequest) (source target : EndpointBinding) (hop : Hop) : Prop where
  edge : ∃ edge, request.fabric.findEdge hop.edge = some edge ∧ EdgeUsable request edge ∧
    BindingPermits request source edge ∧ BindingPermits request target edge
  source : NodeUsable request hop.source
  target : NodeUsable request hop.target

structure PathEligible (request : PlanningRequest) (path : PathPlan) : Prop where
  hops : ∃ source target, BoundTo request (logicalEdgeOf request path).src source ∧
    BoundTo request (logicalEdgeOf request path).dst target ∧ ∀ hop ∈ path.hops, HopEligible request source target hop
  cost : hopsCost request path.hops = path.cost.toNat
  bounded : path.cost.toNat ≤ request.policy.maxPathCost

-- What the validator takes on trust: the marks of the edge and the nodes, the tiers of the nodes.
structure HopMarked (request : PlanningRequest) (hop : Hop) : Prop where
  edge : ∀ edge ∈ request.fabric.edges, edge.id = hop.edge → edge.eligible = true
  nodes : ∀ node ∈ request.fabric.nodes, node.id = hop.source ∨ node.id = hop.target →
    node.eligible = true ∧ node.tier ∉ request.policy.forbiddenTiers

theorem node_usable_of (sound : PlanningRequest.Sound request) (edge : Edge) (listed : edge ∈ request.fabric.edges) (id : NodeId)
    (names : edge.source = id ∨ edge.target = id) (free : nodeForbidden request.policy id = false) :
    NodeUsable request id ↔ ∀ node ∈ request.fabric.nodes, node.id = id →
      node.eligible = true ∧ node.tier ∉ request.policy.forbiddenTiers := by
  have allowed : id ∉ request.policy.forbiddenNodes := by
    rw [← node_forbidden_iff _ sound.policy, free]
    simp
  obtain ⟨position, found⟩ : ∃ position, request.fabric.nodeIndex id = some position := by
    rcases names with rfl | rfl
    · exact sound.fabric.sources edge listed
    · exact sound.fabric.targets edge listed
  obtain ⟨_, stored, named⟩ := sound.fabric.node_index_some id position found
  constructor
  · intro usable node member same
    obtain ⟨other, known, otherNamed, eligible, tier⟩ := usable.known
    have unique : node = other := by
      obtain ⟨a, indexA, rfl⟩ := sound.fabric.node_index_of node member
      obtain ⟨b, indexB, rfl⟩ := sound.fabric.node_index_of other known
      rw [same, found] at indexA
      rw [otherNamed, found] at indexB
      rw [← Option.some.inj indexA, ← Option.some.inj indexB]
    rw [unique]
    exact ⟨eligible, tier⟩
  · intro all
    obtain ⟨eligible, tier⟩ := all _ stored named
    exact ⟨⟨_, stored, named, eligible, tier⟩, allowed⟩

theorem hop_eligible_iff (sound : PlanningRequest.Sound request) (source target : EndpointBinding)
    (sourceBound : source ∈ request.bindings) (targetBound : target ∈ request.bindings) (hop : Hop) (edge : Edge)
    (found : request.fabric.findEdge hop.edge = some edge) (clear : HopClear request source target hop edge) :
    HopEligible request source target hop ↔ HopMarked request hop := by
  obtain ⟨index, inside, here, named⟩ := sound.fabric.find_edge_some hop.edge edge found
  have listed : edge ∈ request.fabric.edges := here ▸ FabricGraph.edge_member request.fabric index inside
  have tail := node_usable_of sound edge listed hop.source (Or.inl clear.source) clear.sourceNode
  have head := node_usable_of sound edge listed hop.target (Or.inr clear.target) clear.targetNode
  constructor
  · intro eligible
    obtain ⟨other, otherFound, usable, _⟩ := eligible.edge
    rw [found, Option.some.injEq] at otherFound
    subst otherFound
    refine ⟨fun record member same => ?_, fun node member names => ?_⟩
    · obtain ⟨position, bound, rfl⟩ := FabricGraph.edge_index_of request.fabric record member
      have again := sound.fabric.find_edge_index position bound
      rw [same, found, Option.some.injEq] at again
      rw [← again]
      exact usable.eligible
    · rcases names with same | same
      · exact tail.mp eligible.source node member same
      · exact head.mp eligible.target node member same
  · intro marked
    refine ⟨⟨edge, found, ?_, ?_, ?_⟩, tail.mpr fun node member same => marked.nodes node member (Or.inl same),
      head.mpr fun node member same => marked.nodes node member (Or.inr same)⟩
    · have reserved := sound.fabric.reserved edge listed
      refine ⟨marked.edge edge listed named, ?_, (tier_outside_iff _ sound.policy _).mp clear.inside,
        (domain_forbidden_iff _ _ _).mp clear.domain, clear.evidence,
        fun verified => clear.unsaturated (Nat.pos_of_ne_zero verified), fun zero => ⟨clear.verified zero, by omega⟩⟩
      rw [← tier_forbidden_iff _ sound.policy, clear.tier]
      simp
    · exact (binding_allows_iff request source (sound.bindings source sourceBound) _).mp clear.sourceAllows
    · exact (binding_allows_iff request target (sound.bindings target targetBound) _).mp clear.targetAllows

-- The validator is sound for a path exactly when what it does not look at is in order.
theorem paths_sound_iff (input : BuiltRequest) (plan : Plan) (accepted : validatePlan plan input.request = .ok ()) :
    (∀ path ∈ plan.paths, PathEligible input.request path) ↔
      ∀ path ∈ plan.paths, (∀ hop ∈ path.hops, HopMarked input.request hop) ∧
        path.cost.toNat = hopsCost input.request path.hops := by
  have sound := input.sound
  have valid := validate_plan_ok.mp accepted
  have find := PlanningRequest.find_binding_bound input.request sound
  refine forall₂_congr fun path member => ?_
  obtain ⟨before, after, split⟩ := List.append_of_mem member
  obtain ⟨source, target, sourceFound, targetFound, route⟩ := (valid.paths before path after split).route
  have sourceBound := (find _ _).mp sourceFound
  have targetBound := (find _ _).mp targetFound
  have same : ∀ hop ∈ path.hops, HopEligible input.request source target hop ↔ HopMarked input.request hop := by
    intro hop used
    obtain ⟨edge, found, clear⟩ := route.clear hop used
    exact hop_eligible_iff sound source target sourceBound.listed targetBound.listed hop edge found clear
  constructor
  · intro eligible
    obtain ⟨otherSource, otherTarget, left, right, hops⟩ := eligible.hops
    have sameSource := (find _ _).mpr left
    have sameTarget := (find _ _).mpr right
    rw [sourceFound, Option.some.injEq] at sameSource
    rw [targetFound, Option.some.injEq] at sameTarget
    subst sameSource sameTarget
    exact ⟨fun hop used => (same hop used).mp (hops hop used), eligible.cost.symm⟩
  · rintro ⟨marked, cost⟩
    exact ⟨⟨source, target, sourceBound, targetBound, fun hop used => (same hop used).mpr (marked hop used)⟩, cost.symm, route.cost⟩

theorem two_leaves_paths_iff : (∀ path ∈ twoLeavesPlan.paths, PathEligible twoLeaves.request path) ↔
    ∀ path ∈ twoLeavesPlan.paths, (∀ hop ∈ path.hops, HopMarked twoLeaves.request hop) ∧
      path.cost.toNat = hopsCost twoLeaves.request path.hops :=
  paths_sound_iff twoLeaves twoLeavesPlan (planned_valid twoLeaves two_leaves_plan)

theorem paths_unsound : ¬ ∀ (input : BuiltRequest) (plan : Plan), validatePlan plan input.request = .ok () →
    ∀ path ∈ plan.paths, PathEligible input.request path := by
  intro claimed
  have eligible := claimed barred forgedPlan forged_accepted (forgedPath 1 "e1") (by simp [forgedPlan])
  obtain ⟨_, _, _, _, hops⟩ := eligible.hops
  obtain ⟨edge, found, usable, _⟩ := (hops ⟨⟨text "e1"⟩, ⟨text "a"⟩, ⟨text "b"⟩⟩ (by simp [forgedPath])).edge
  rw [barred_edge_found, Option.some.injEq] at found
  subst found
  exact absurd usable.eligible (by decide)

-- Every hop crosses an edge with a declared failure domain.
def Declared (request : PlanningRequest) (path : PathPlan) : Prop :=
  ∀ hop ∈ path.hops, ∃ edge, request.fabric.findEdge hop.edge = some edge ∧ edge.failureDomain.valid = true

-- What the planner demands of the paths of one logical edge.
structure SiblingsSound (request : PlanningRequest) (siblings : List PathPlan) : Prop where
  distinct : siblings.Pairwise fun lhs rhs => lhs.hops ≠ rhs.hops
  edges : request.policy.disjointness ≠ .none →
    siblings.Pairwise fun lhs rhs => ∀ left ∈ lhs.hops, ∀ right ∈ rhs.hops, left.edge ≠ right.edge
  nodes : request.policy.disjointness = .node →
    siblings.Pairwise fun lhs rhs => ∀ left ∈ lhs.hops.dropLast, ∀ right ∈ rhs.hops.dropLast, left.target ≠ right.target
  declared : request.policy.domainDiversity = .required → 2 ≤ request.policy.pathsPerLogicalEdge →
    ∀ path ∈ siblings, Declared request path
  domains : request.policy.domainDiversity = .required → 2 ≤ request.policy.pathsPerLogicalEdge →
    siblings.Pairwise fun lhs rhs => ∀ domain ∈ lhs.domainSignature, domain ∉ rhs.domainSignature

theorem hop_domains_length (hops : List Hop) (known : ∀ hop ∈ hops, ∃ edge, request.fabric.findEdge hop.edge = some edge)
    (required : request.policy.domainDiversity = .required) :
    (hopDomainsOf request hops).length = hops.length ↔ ∀ hop ∈ hops, ∃ edge, request.fabric.findEdge hop.edge = some edge ∧
      edge.failureDomain.valid = true := by
  induction hops with
  | nil => simp [hopDomainsOf]
  | cons hop rest ih =>
      obtain ⟨edge, found⟩ := known hop (by simp)
      have later := ih fun other member => known other (List.mem_cons_of_mem _ member)
      have short : (hopDomainsOf request rest).length ≤ rest.length := List.length_filterMap_le _ _
      rw [List.forall_mem_cons, ← later, hopDomainsOf, List.filterMap_cons, hopDomainOf, found]
      rw [hopDomainsOf] at short
      cases valid : edge.failureDomain.valid with
      | false =>
          simp only [required, ne_eq, reduceCtorEq, not_false_eq_true, valid, Bool.false_eq_true, and_false, if_false,
            Option.some.injEq, exists_eq_left', List.length_cons, false_and, iff_false]
          omega
      | true => simp [required, valid, hopDomainsOf]

theorem signature_known (valid : Valid plan request) (path : PathPlan) (member : path ∈ plan.paths) :
    signatureOf request.policy (hopDomainsOf request path.hops) = path.domainSignature := by
  obtain ⟨before, after, split⟩ := List.append_of_mem member
  obtain ⟨_, _, _, _, route⟩ := (valid.paths before path after split).route
  exact route.signature

-- The signature of a path without hops is empty, and signatures are sorted.
theorem pair_domains (valid : Valid plan request) (required : request.policy.domainDiversity = .required) (lhs rhs : PathPlan)
    (left : lhs ∈ plan.paths) (right : rhs ∈ plan.paths) (pair : PairValid request lhs rhs) :
    ∀ domain ∈ lhs.domainSignature, domain ∉ rhs.domainSignature := by
  intro domain listed
  have blank : ∀ path ∈ plan.paths, path.hops = [] → path.domainSignature = [] := by
    intro path member empty
    rw [← signature_known valid path member, empty]
    simp [hopDomainsOf, signatureOf, required]
  by_cases leftUsed : lhs.hops = []
  · simp [blank lhs left leftUsed] at listed
  · by_cases rightUsed : rhs.hops = []
    · simp [blank rhs right rightUsed]
    · have missing := pair.domains required leftUsed rightUsed domain listed
      have sorted : rhs.domainSignature.Pairwise (· ≤ ·) := by
        rw [← signature_known valid rhs right]
        exact (signature_sorted _ _).imp fun less => le_of_lt less
      intro found
      rw [(Sequence.binary_search_mem _ _ sorted).mpr found] at missing
      cases missing

-- The check for undeclared domains sees every sibling but the first one listed.
theorem later_declared (valid : Valid plan request) (required : request.policy.domainDiversity = .required) (index : Nat)
    (first : PathPlan) (rest : List PathPlan) (siblings : siblingsOf plan.paths (index + 1) = first :: rest) (path : PathPlan)
    (member : path ∈ rest) : Declared request path := by
  obtain ⟨before, after, split, heads⟩ : ∃ before after, plan.paths = before ++ path :: after ∧
      1 ≤ (siblingsOf before (index + 1)).length := by
    obtain ⟨lead, others, eq⟩ := List.append_of_mem member
    have listed : siblingsOf plan.paths (index + 1) = (first :: lead) ++ path :: others := by rw [siblings, eq]; rfl
    rw [siblingsOf, List.filter_eq_append_iff] at listed
    obtain ⟨left, right, whole, leftKept, rightKept⟩ := listed
    obtain ⟨skipped, after, rfl, none, _, _⟩ := List.filter_eq_cons_iff.mp rightKept
    refine ⟨left ++ skipped, after, by rw [whole, List.append_assoc], ?_⟩
    rw [siblingsOf, List.filter_append, leftKept]
    simp
  obtain ⟨_, _, _, _, route⟩ := (valid.paths before path after split).route
  have here : path.logicalEdge.value.toNat = index + 1 := by
    have inAll : path ∈ siblingsOf plan.paths (index + 1) := by
      rw [siblings]
      exact List.mem_cons_of_mem _ member
    simpa using (List.mem_filter.mp inAll).2
  refine (hop_domains_length path.hops (fun hop used => ?_) required).mp (route.declared required ?_)
  · obtain ⟨edge, found, _⟩ := route.clear hop used
    exact ⟨edge, found⟩
  · have last : siblingsOf [path] (index + 1) = [path] := by simp [siblingsOf, here]
    rw [here, siblingsOf, List.filter_append, List.length_append]
    change 1 < (siblingsOf before (index + 1)).length + (siblingsOf [path] (index + 1)).length
    rw [last, List.length_singleton]
    omega

-- What the validator takes on trust about the paths of one logical edge: routes are compared only through the edges and nodes
-- they may not share, and the first path listed is not asked for its domains.
structure SiblingsTrusted (request : PlanningRequest) (siblings : List PathPlan) : Prop where
  distinct : request.policy.disjointness = .none → siblings.Pairwise fun lhs rhs => lhs.hops ≠ rhs.hops
  used : request.policy.disjointness ≠ .none → siblings.Pairwise fun lhs rhs => lhs.hops ≠ [] ∨ rhs.hops ≠ []
  first : request.policy.domainDiversity = .required → 2 ≤ request.policy.pathsPerLogicalEdge →
    ∀ path ∈ siblings.head?, Declared request path

theorem siblings_sound_iff (input : BuiltRequest) (plan : Plan) (accepted : validatePlan plan input.request = .ok ()) :
    (∀ index < input.request.collective.logicalEdges.length,
      SiblingsSound input.request (siblingsOf plan.paths (index + 1))) ↔
    ∀ index < input.request.collective.logicalEdges.length,
      SiblingsTrusted input.request (siblingsOf plan.paths (index + 1)) := by
  have valid := validate_plan_ok.mp accepted
  refine forall₂_congr fun index inside => ?_
  have pairs := (valid.siblings index inside).apart
  have inPlan : ∀ path ∈ siblingsOf plan.paths (index + 1), path ∈ plan.paths := fun path member => List.mem_of_mem_filter member
  constructor
  · intro sound
    refine ⟨fun _ => sound.distinct, fun _ => sound.distinct.imp fun {lhs rhs} differ => ?_, fun required many path head => ?_⟩
    · by_contra both
      push Not at both
      exact differ (both.1.trans both.2.symm)
    · exact sound.declared required many path (List.mem_of_head? head)
  · intro trusted
    refine ⟨?_, fun mode => pairs.imp fun pair => pair.edges mode, fun mode => pairs.imp fun pair => pair.nodes mode,
      fun required many path member => ?_, fun required _ => ?_⟩
    · by_cases mode : input.request.policy.disjointness = .none
      · exact trusted.distinct mode
      · refine (pairs.and (trusted.used mode)).imp fun {lhs rhs} both same => ?_
        obtain ⟨pair, used⟩ := both
        have some : lhs.hops ≠ [] := by
          rcases used with left | right
          · exact left
          · rwa [same]
        obtain ⟨hop, listed⟩ := List.exists_mem_of_ne_nil _ some
        exact pair.edges mode hop listed hop (same ▸ listed) rfl
    · cases siblings : siblingsOf plan.paths (index + 1) with
      | nil => simp [siblings] at member
      | cons first rest =>
          rw [siblings] at member
          rcases List.mem_cons.mp member with rfl | later
          · exact trusted.first required many path (by rw [siblings]; rfl)
          · exact later_declared valid required index first rest siblings path later
    · exact pairs.imp_of_mem fun {lhs rhs} left right pair =>
        pair_domains valid required lhs rhs (inPlan lhs left) (inPlan rhs right) pair

theorem two_leaves_siblings_iff : (∀ index < twoLeaves.request.collective.logicalEdges.length,
      SiblingsSound twoLeaves.request (siblingsOf twoLeavesPlan.paths (index + 1))) ↔
    ∀ index < twoLeaves.request.collective.logicalEdges.length,
      SiblingsTrusted twoLeaves.request (siblingsOf twoLeavesPlan.paths (index + 1)) :=
  siblings_sound_iff twoLeaves twoLeavesPlan (planned_valid twoLeaves two_leaves_plan)

theorem barred_policy : barred.request.policy.domainDiversity = .required ∧ barred.request.policy.pathsPerLogicalEdge = 2 := by
  rw [barred.parts.policy]
  exact ⟨rfl, rfl⟩

-- The first sibling crosses an edge without a failure domain although diversity is required.
theorem siblings_unsound : ¬ ∀ (input : BuiltRequest) (plan : Plan), validatePlan plan input.request = .ok () →
    ∀ index < input.request.collective.logicalEdges.length,
      SiblingsSound input.request (siblingsOf plan.paths (index + 1)) := by
  intro claimed
  obtain ⟨required, many⟩ := barred_policy
  have one := (validate_plan_ok.mp forged_accepted).stats.logicalEdgeCount
  have sound := claimed barred forgedPlan forged_accepted 0 (by rw [← one]; decide)
  obtain ⟨edge, found, declared⟩ := sound.declared required many.ge (forgedPath 1 "e1") (by simp [forgedPlan, siblingsOf, forgedPath])
    ⟨⟨text "e1"⟩, ⟨text "a"⟩, ⟨text "b"⟩⟩ (by simp [forgedPath])
  rw [barred_edge_found, Option.some.injEq] at found
  subst found
  revert declared
  decide

-- The room and the evidence that the fabric gives to a list of hops.
def hopsBottleneck (request : PlanningRequest) (hops : List Hop) : Nat :=
  let least := (hops.filterMap fun hop => (request.fabric.findEdge hop.edge).map edgeSpare).foldl min kCostCeiling
  if least = kCostCeiling then 0 else least

def hopsEvidence (request : PlanningRequest) (hops : List Hop) : EvidenceClass :=
  (hops.filterMap fun hop => (request.fabric.findEdge hop.edge).map Edge.evidence).foldl weakerEvidence .measured

structure StagesCover (request : PlanningRequest) (plan : Plan) : Prop where
  indices : (plan.stages.map fun stage => stage.index.toNat).Perm (List.range plan.stageCount.toNat)
  pathsOnce : ∀ path ∈ plan.paths, (plan.stages.flatMap Stage.paths).count path.id = 1
  pathStages : ∀ stage ∈ plan.stages, ∀ id ∈ stage.paths, ∃ path ∈ plan.paths, path.id = id ∧ path.stage = stage.index
  edgesOnce : ∀ index < request.collective.logicalEdges.length,
    (plan.stages.flatMap Stage.logicalEdges).count ⟨UInt64.ofNat (index + 1)⟩ = 1
  edgeStages : ∀ stage ∈ plan.stages, ∀ id ∈ stage.logicalEdges, ∃ index < request.collective.logicalEdges.length,
    id.value.toNat = index + 1 ∧ request.collective.logicalEdgeStage.getD index 0 = stage.index.toNat

structure Summarised (request : PlanningRequest) (plan : Plan) : Prop where
  pathCount : plan.stats.pathCount.toNat = plan.paths.length
  hopCount : plan.stats.hopCount.toNat = hopCount plan.paths
  logicalEdgeCount : plan.stats.logicalEdgeCount.toNat = request.collective.logicalEdges.length
  totalCost : plan.stats.totalCost.toNat = saturatingSum (plan.paths.map fun path => hopsCost request path.hops)
  maxPathCost : plan.stats.maxPathCost.toNat = (plan.paths.map fun path => hopsCost request path.hops).foldl max 0
  bottlenecks : ∀ path ∈ plan.paths, path.bottleneckMbps.toNat = hopsBottleneck request path.hops
  bottleneck : plan.stats.bottleneckMbps.toNat = if occupied plan.paths = [] then 0
    else ((occupied plan.paths).map fun path => hopsBottleneck request path.hops).foldl min kCostCeiling
  evidence : ∀ path ∈ plan.paths, path.weakestEvidence = hopsEvidence request path.hops
  weakest : plan.weakestEvidence = (plan.paths.map fun path => hopsEvidence request path.hops).foldl weakerEvidence .measured

-- What the validator takes on trust: it looks from each stage to what it lists, never back, and it sums recorded fields.
structure BookkeepingTrusted (request : PlanningRequest) (plan : Plan) : Prop where
  indices : (plan.stages.map Stage.index).Nodup
  pathsOnce : ∀ path ∈ plan.paths, (plan.stages.flatMap Stage.paths).count path.id = 1
  edgesOnce : ∀ index < request.collective.logicalEdges.length,
    (plan.stages.flatMap Stage.logicalEdges).count ⟨UInt64.ofNat (index + 1)⟩ = 1
  pathCount : plan.stats.pathCount.toNat = plan.paths.length
  totalCost : totalCost plan.paths = saturatingSum (plan.paths.map fun path => hopsCost request path.hops)
  maxPathCost : maxCost plan.paths = (plan.paths.map fun path => hopsCost request path.hops).foldl max 0
  bottlenecks : ∀ path ∈ plan.paths, path.bottleneckMbps.toNat = hopsBottleneck request path.hops
  evidence : ∀ path ∈ plan.paths, path.weakestEvidence = hopsEvidence request path.hops

theorem stages_cover (valid : Valid plan request) (trusted : BookkeepingTrusted request plan) : StagesCover request plan := by
  refine ⟨?_, trusted.pathsOnce, fun stage member id listed => ?_, trusted.edgesOnce, fun stage member id listed => ?_⟩
  · have distinct : (plan.stages.map fun stage => stage.index.toNat).Nodup := by
      have values := trusted.indices.map (f := UInt32.toNat) fun _ _ => UInt32.toNat_inj.mp
      rwa [List.map_map] at values
    have inside : (plan.stages.map fun stage => stage.index.toNat) ⊆ List.range plan.stageCount.toNat := by
      intro index listed
      obtain ⟨stage, member, rfl⟩ := List.mem_map.mp listed
      exact List.mem_range.mpr (UInt32.lt_iff_toNat_lt.mp (valid.stages stage member).index)
    refine (distinct.subperm inside).perm_of_length_le ?_
    rw [List.length_map, List.length_range, valid.identity.stages]
  · obtain ⟨positive, inside, same⟩ := (valid.stages stage member).pathListed id listed
    have here := (valid.stages stage member).pathStage id listed
    have nonzero : id.value.toNat ≠ 0 := fun zero => positive (UInt64.toNat_inj.mp (by rw [zero]; rfl))
    refine ⟨_, ?_, same, here⟩
    rw [List.getD_eq_getElem?_getD, List.getElem?_eq_getElem (by omega), Option.getD_some]
    exact List.getElem_mem _
  · obtain ⟨positive, inside⟩ := (valid.stages stage member).edgeListed id listed
    have nonzero : id.value.toNat ≠ 0 := fun zero => positive (UInt64.toNat_inj.mp (by rw [zero]; rfl))
    exact ⟨id.value.toNat - 1, by omega, by omega, (valid.stages stage member).edgeStage id listed⟩

theorem evidence_raw_injective (lhs rhs : EvidenceClass) (same : lhs.raw = rhs.raw) : lhs = rhs := by
  cases lhs <;> cases rhs <;> first | rfl | simp [EvidenceClass.raw] at same

theorem stats_summarised (valid : Valid plan request) (trusted : BookkeepingTrusted request plan) : Summarised request plan := by
  have stats := valid.stats
  refine ⟨trusted.pathCount, stats.hopCount, stats.logicalEdgeCount, stats.totalCost.trans trusted.totalCost,
    stats.maxPathCost.trans trusted.maxPathCost, trusted.bottlenecks, ?_, trusted.evidence, ?_⟩
  · rw [stats.bottleneck, bottleneck]
    have same : (occupied plan.paths).map (fun path => path.bottleneckMbps.toNat) =
        (occupied plan.paths).map fun path => hopsBottleneck request path.hops :=
      List.map_congr_left fun path kept => trusted.bottlenecks path (List.mem_of_mem_filter kept)
    rw [same]
  · have same : plan.paths.map PathPlan.weakestEvidence = plan.paths.map fun path => hopsEvidence request path.hops :=
      List.map_congr_left trusted.evidence
    have weakest := evidence_raw_injective _ _ stats.weakest
    rwa [ValidatePlan.weakest, same] at weakest

theorem bookkeeping_sound_iff (input : BuiltRequest) (plan : Plan) (accepted : validatePlan plan input.request = .ok ()) :
    (StagesCover input.request plan ∧ Summarised input.request plan) ↔ BookkeepingTrusted input.request plan := by
  have valid := validate_plan_ok.mp accepted
  constructor
  · rintro ⟨cover, summary⟩
    have distinct := cover.indices.nodup_iff.mpr List.nodup_range
    have split : (plan.stages.map fun stage => stage.index.toNat) = (plan.stages.map Stage.index).map UInt32.toNat := by
      rw [List.map_map]
      rfl
    rw [split] at distinct
    exact ⟨distinct.of_map _, cover.pathsOnce, cover.edgesOnce, summary.pathCount, valid.stats.totalCost.symm.trans summary.totalCost,
      valid.stats.maxPathCost.symm.trans summary.maxPathCost, summary.bottlenecks, summary.evidence⟩
  · intro trusted
    exact ⟨stages_cover valid trusted, stats_summarised valid trusted⟩

theorem two_leaves_bookkeeping_iff : (StagesCover twoLeaves.request twoLeavesPlan ∧ Summarised twoLeaves.request twoLeavesPlan) ↔
    BookkeepingTrusted twoLeaves.request twoLeavesPlan :=
  bookkeeping_sound_iff twoLeaves twoLeavesPlan (planned_valid twoLeaves two_leaves_plan)

-- The accepted plan counts seven paths and has two, and its only stage lists neither of them.
theorem bookkeeping_unsound : ¬ ∀ (input : BuiltRequest) (plan : Plan), validatePlan plan input.request = .ok () →
    StagesCover input.request plan ∧ Summarised input.request plan := by
  intro claimed
  obtain ⟨_, summary⟩ := claimed barred forgedPlan forged_accepted
  exact absurd summary.pathCount (by decide)

end ValidatePlan

end PathPlanner

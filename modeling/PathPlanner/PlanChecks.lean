import PathPlanner.Plan

set_option autoImplicit false

namespace PathPlanner

open Checks Sequence

namespace ValidatePlan

variable (plan : Plan) (request : PlanningRequest)

-- What each part of the validator demands of an accepted plan.
structure Identity : Prop where
  digest : plan.inputDigest = request.canonicalDigest
  id : plan.id.value = plan.inputDigest
  generation : plan.generation = request.planGeneration
  bindings : plan.bindings = request.currentBindings
  collective : plan.collective = request.collective.id
  kind : plan.kind = request.collective.kind
  stageCount : plan.stageCount.toNat = request.collective.stageCount
  stages : plan.stages.length = plan.stageCount.toNat

structure HopClear (sourceBinding targetBinding : EndpointBinding) (hop : Hop) (edge : Edge) : Prop where
  source : edge.source = hop.source
  target : edge.target = hop.target
  sourceNode : nodeForbidden request.policy hop.source = false
  targetNode : nodeForbidden request.policy hop.target = false
  tier : tierForbidden request.policy edge.tier = false
  inside : tierOutside request.policy edge.tier = false
  domain : domainForbidden request.fabric request.policy edge.failureDomain = false
  evidence : evidenceSatisfies edge.evidence request.policy.evidence = true
  verified : edge.capacityMbps = 0 → request.policy.allowUnverifiedCapacity = true
  unsaturated : 0 < edge.capacityMbps → edge.reservedMbps < edge.capacityMbps
  sourceAllows : bindingAllowsEdge request.fabric sourceBinding edge = true
  targetAllows : bindingAllowsEdge request.fabric targetBinding edge = true

def Ends (sourceBinding targetBinding : EndpointBinding) : List Hop → Prop
  | [] => sourceBinding.node = targetBinding.node
  | first :: rest => first.source = sourceBinding.node ∧ ((first :: rest).getLast (List.cons_ne_nil first rest)).target = targetBinding.node

def Contiguous (hops : List Hop) : Prop := hops.IsChain fun hop following => following.source = hop.target

-- The domain that one hop adds to the list the signature is computed from.
def hopDomainOf (hop : Hop) : Option FailureDomainId :=
  match request.fabric.findEdge hop.edge with
  | none => none
  | some edge =>
      if request.policy.domainDiversity ≠ .none ∧ edge.failureDomain.valid = true then
        some (domainAtLevel request.fabric edge.failureDomain request.policy.domainDiversityLevel)
      else none

def hopDomainsOf (hops : List Hop) : List FailureDomainId := hops.filterMap (hopDomainOf request)

structure RouteValid (siblingCount : Nat) (path : PathPlan) (sourceBinding targetBinding : EndpointBinding) : Prop where
  hops : path.hops.length ≤ request.policy.maxHops
  cost : path.cost.toNat ≤ request.policy.maxPathCost
  simple : hopsAreSimple path.hops = true
  ends : Ends sourceBinding targetBinding path.hops
  clear : ∀ hop ∈ path.hops, ∃ edge, request.fabric.findEdge hop.edge = some edge ∧
    HopClear request sourceBinding targetBinding hop edge
  contiguous : Contiguous path.hops
  signature : signatureOf request.policy (hopDomainsOf request path.hops) = path.domainSignature
  declared : request.policy.domainDiversity = .required → 1 < siblingCount →
    (hopDomainsOf request path.hops).length = path.hops.length

structure PathValid (earlier : List PathPlan) (path : PathPlan) : Prop where
  positive : path.id.value ≠ 0
  inside : path.id.value.toNat ≤ plan.paths.length
  fresh : ∀ visited ∈ earlier, visited.id ≠ path.id
  edgePositive : path.logicalEdge.value ≠ 0
  edgeInside : path.logicalEdge.value.toNat ≤ request.collective.logicalEdges.length
  src : path.src = (logicalEdgeOf request path).src
  dst : path.dst = (logicalEdgeOf request path).dst
  stage : path.stage.toNat = request.collective.logicalEdgeStage.getD (path.logicalEdge.value.toNat - 1) 0
  route : ∃ sourceBinding targetBinding, request.findBinding (logicalEdgeOf request path).src = some sourceBinding ∧
    request.findBinding (logicalEdgeOf request path).dst = some targetBinding ∧
    RouteValid request (siblingsOf (earlier ++ [path]) path.logicalEdge.value.toNat).length path sourceBinding targetBinding

structure PairValid (lhs rhs : PathPlan) : Prop where
  edges : request.policy.disjointness ≠ .none → ∀ left ∈ lhs.hops, ∀ right ∈ rhs.hops, left.edge ≠ right.edge
  nodes : request.policy.disjointness = .node →
    ∀ left ∈ lhs.hops.dropLast, ∀ right ∈ rhs.hops.dropLast, left.target ≠ right.target
  domains : request.policy.domainDiversity = .required → lhs.hops ≠ [] → rhs.hops ≠ [] →
    ∀ domain ∈ lhs.domainSignature, binarySearch rhs.domainSignature domain = false

structure SiblingsValid (index : Nat) : Prop where
  count : (siblingsOf plan.paths (index + 1)).length = request.policy.pathsPerLogicalEdge
  listed : siblingsOf plan.paths (index + 1) ≠ []
  apart : (siblingsOf plan.paths (index + 1)).Pairwise (PairValid request)

structure StageValid (stage : Stage) : Prop where
  index : stage.index < plan.stageCount
  pathListed : ∀ id ∈ stage.paths, id.value ≠ 0 ∧ id.value.toNat ≤ plan.paths.length ∧
    (plan.paths.getD (id.value.toNat - 1) {}).id = id
  pathStage : ∀ id ∈ stage.paths, (plan.paths.getD (id.value.toNat - 1) {}).stage = stage.index
  edgeListed : ∀ id ∈ stage.logicalEdges, id.value ≠ 0 ∧ id.value.toNat ≤ request.collective.logicalEdges.length
  edgeStage : ∀ id ∈ stage.logicalEdges,
    request.collective.logicalEdgeStage.getD (id.value.toNat - 1) 0 = stage.index.toNat

structure AllocationsValid : Prop where
  distinct : (plan.allocations.map Allocation.edge).Nodup
  counted : (recomputed plan request).length = plan.allocations.length
  recorded : ∀ allocation ∈ plan.allocations,
    (recomputed plan request).find allocation.edge = some allocation.plannedMbps.toNat
  spare : ∀ allocation ∈ plan.allocations, ∃ edge, request.fabric.findEdge allocation.edge = some edge ∧
    (0 < edge.capacityMbps → allocation.plannedMbps.toNat ≤ edge.capacityMbps - edge.reservedMbps)

structure StatsValid : Prop where
  totalCost : plan.stats.totalCost.toNat = totalCost plan.paths
  maxPathCost : plan.stats.maxPathCost.toNat = maxCost plan.paths
  hopCount : plan.stats.hopCount.toNat = hopCount plan.paths
  logicalEdgeCount : plan.stats.logicalEdgeCount.toNat = request.collective.logicalEdges.length
  bottleneck : plan.stats.bottleneckMbps.toNat = bottleneck plan.paths
  weakest : plan.weakestEvidence.raw = (weakest plan.paths).raw

structure Valid : Prop where
  identity : Identity plan request
  paths : ∀ before path after, plan.paths = before ++ path :: after → PathValid plan request before path
  siblings : ∀ index < request.collective.logicalEdges.length, SiblingsValid plan request index
  stages : ∀ stage ∈ plan.stages, StageValid plan request stage
  allocations : AllocationsValid plan request
  stats : StatsValid plan request

theorem check_identity_ok : checkIdentity plan request = .ok () ↔ Identity plan request := by
  simp only [checkIdentity, then_ok, deny_ok, not_not]
  constructor
  · rintro ⟨digest, id, generation, bindings, collective, kind, stageCount, stages⟩
    exact ⟨digest, id, generation, bindings, collective, kind, stageCount, stages⟩
  · rintro ⟨digest, id, generation, bindings, collective, kind, stageCount, stages⟩
    exact ⟨digest, id, generation, bindings, collective, kind, stageCount, stages⟩

variable {plan request}

theorem check_ends_ok (sourceBinding targetBinding : EndpointBinding) (hops : List Hop) :
    checkEnds sourceBinding targetBinding hops = .ok () ↔ Ends sourceBinding targetBinding hops := by
  cases hops with
  | nil => simp [checkEnds, Ends]
  | cons first rest => simp [checkEnds, Ends]

theorem check_hop_edge_ok (sourceBinding targetBinding : EndpointBinding) (hop : Hop) (next : Option Hop) (edge : Edge) :
    checkHopEdge request sourceBinding targetBinding hop next edge = .ok () ↔
      HopClear request sourceBinding targetBinding hop edge ∧ ∀ following ∈ next, following.source = hop.target := by
  have joined : ¬ next.any (fun following => following.source ≠ hop.target) = true ↔
      ∀ following ∈ next, following.source = hop.target := by
    cases next with
    | none => simp
    | some following => simp
  simp only [checkHopEdge, then_ok, deny_ok, not_or, not_not, not_and, joined, Bool.not_eq_true, Bool.not_eq_false,
    Nat.pos_iff_ne_zero, ge_iff_le, not_le]
  constructor
  · rintro ⟨⟨source, target⟩, contiguous, ⟨sourceNode, targetNode⟩, tier, inside, domain, evidence, verified, unsaturated,
      sourceAllows, targetAllows⟩
    exact ⟨⟨source, target, sourceNode, targetNode, tier, inside, domain, evidence, verified,
      fun positive => unsaturated (Nat.pos_iff_ne_zero.mp positive), sourceAllows, targetAllows⟩, contiguous⟩
  · rintro ⟨clear, contiguous⟩
    exact ⟨⟨clear.source, clear.target⟩, contiguous, ⟨clear.sourceNode, clear.targetNode⟩, clear.tier, clear.inside,
      clear.domain, clear.evidence, clear.verified, fun positive => clear.unsaturated (Nat.pos_iff_ne_zero.mpr positive),
      clear.sourceAllows, clear.targetAllows⟩

theorem check_hops_ok (sourceBinding targetBinding : EndpointBinding) (hops : List Hop) (domains : List FailureDomainId) :
    checkHops request sourceBinding targetBinding hops = .ok domains ↔
      (∀ hop ∈ hops, ∃ edge, request.fabric.findEdge hop.edge = some edge ∧
        HopClear request sourceBinding targetBinding hop edge) ∧
      Contiguous hops ∧ hopDomainsOf request hops = domains := by
  induction hops generalizing domains with
  | nil => simp [checkHops, Contiguous, hopDomainsOf]
  | cons hop rest ih =>
      rw [checkHops]
      cases found : request.fabric.findEdge hop.edge with
      | none => simp [found]
      | some edge =>
          have chain : Contiguous (hop :: rest) ↔
              (∀ following ∈ rest.head?, following.source = hop.target) ∧ Contiguous rest := List.isChain_cons
          have gathered : hopDomainsOf request (hop :: rest) =
              if request.policy.domainDiversity ≠ .none ∧ edge.failureDomain.valid = true then
                domainAtLevel request.fabric edge.failureDomain request.policy.domainDiversityLevel :: hopDomainsOf request rest
              else hopDomainsOf request rest := by
            unfold hopDomainsOf
            rw [List.filterMap_cons, hopDomainOf, found]
            dsimp only
            split_ifs <;> rfl
          dsimp only
          rw [then_ok, check_hop_edge_ok, bind_ok]
          simp only [ih, chain, gathered, List.forall_mem_cons, found, Option.some.injEq, exists_eq_left']
          constructor
          · rintro ⟨⟨clear, joined⟩, later, ⟨others, contiguous, gathered⟩, built⟩
            subst gathered
            refine ⟨⟨clear, others⟩, ⟨joined, contiguous⟩, ?_⟩
            split_ifs at built ⊢ <;> exact Except.ok.inj built
          · rintro ⟨⟨clear, others⟩, ⟨joined, contiguous⟩, built⟩
            refine ⟨⟨clear, joined⟩, _, ⟨others, contiguous, rfl⟩, ?_⟩
            split_ifs at built ⊢ <;> exact congrArg _ built

theorem check_route_ok (siblingCount : Nat) (path : PathPlan) (sourceBinding targetBinding : EndpointBinding) :
    checkRoute request siblingCount path sourceBinding targetBinding = .ok () ↔
      RouteValid request siblingCount path sourceBinding targetBinding := by
  simp only [checkRoute, then_ok, deny_ok, check_ends_ok, not_lt, gt_iff_lt, Bool.not_eq_false]
  rw [bind_ok]
  simp only [then_ok, deny_ok, check_hops_ok, not_not, not_and]
  constructor
  · rintro ⟨hops, cost, simple, ends, domains, ⟨clear, contiguous, gathered⟩, signature, declared⟩
    subst gathered
    refine ⟨hops, cost, simple, ends, clear, contiguous, signature, fun required many => ?_⟩
    by_cases empty : path.hops = []
    · simp [empty, hopDomainsOf]
    · exact declared required many (List.length_pos_iff.mpr empty)
  · intro valid
    exact ⟨valid.hops, valid.cost, valid.simple, valid.ends, _, ⟨valid.clear, valid.contiguous, rfl⟩, valid.signature,
      fun required many _ => valid.declared required many⟩

theorem check_path_ok (earlier : List PathPlan) (path : PathPlan) :
    checkPath plan request earlier path = .ok () ↔ PathValid plan request earlier path := by
  simp only [checkPath, then_ok, deny_ok, not_or, not_lt, not_not, gt_iff_lt, Bool.not_eq_true, List.any_eq_false,
    decide_eq_true_eq]
  constructor
  · rintro ⟨⟨positive, inside⟩, fresh, ⟨edgePositive, edgeInside⟩, ⟨src, dst⟩, stage, route⟩
    refine ⟨positive, inside, fresh, edgePositive, edgeInside, src, dst, stage, ?_⟩
    split at route
    · rename_i sourceBinding targetBinding source target
      exact ⟨sourceBinding, targetBinding, source, target, (check_route_ok _ _ _ _).mp route⟩
    · cases route
  · intro valid
    obtain ⟨sourceBinding, targetBinding, source, target, route⟩ := valid.route
    rw [source, target]
    exact ⟨⟨valid.positive, valid.inside⟩, valid.fresh, ⟨valid.edgePositive, valid.edgeInside⟩, ⟨valid.src, valid.dst⟩,
      valid.stage, (check_route_ok _ _ _ _).mpr route⟩

theorem check_paths_ok (earlier paths : List PathPlan) :
    checkPaths plan request earlier paths = .ok () ↔
      ∀ before path after, paths = before ++ path :: after → PathValid plan request (earlier ++ before) path := by
  induction paths generalizing earlier with
  | nil => simp [checkPaths]
  | cons head tail ih =>
      rw [checkPaths, then_ok, check_path_ok, ih]
      constructor
      · rintro ⟨first, others⟩ before path after split
        cases before with
        | nil =>
            obtain ⟨rfl, rfl⟩ := List.cons.inj split
            rwa [List.append_nil]
        | cons lead before =>
            obtain ⟨rfl, later⟩ := List.cons.inj split
            simpa using others before path after later
      · intro all
        refine ⟨by simpa using all [] head tail rfl, fun before path after split => ?_⟩
        rw [List.append_assoc]
        exact all (head :: before) path after (by rw [split]; rfl)

theorem check_pair_ok (lhs rhs : PathPlan) : checkPair request lhs rhs = .ok () ↔ PairValid request lhs rhs := by
  simp only [checkPair, then_ok, deny_ok, not_and, not_exists, Bool.not_eq_true]
  constructor
  · rintro ⟨edges, nodes, domains⟩
    exact ⟨fun mode left inLeft right inRight => edges mode left inLeft right inRight,
      fun mode left inLeft right inRight => nodes mode left inLeft right inRight, domains⟩
  · intro valid
    exact ⟨valid.edges, valid.nodes, valid.domains⟩

theorem check_siblings_ok (index : Nat) : checkSiblings plan request index = .ok () ↔ SiblingsValid plan request index := by
  simp only [checkSiblings, then_ok, deny_ok, for_each_pair_ok, check_pair_ok, not_not]
  constructor
  · rintro ⟨listed, count, apart⟩
    exact ⟨count, listed, apart⟩
  · intro valid
    exact ⟨valid.listed, valid.count, valid.apart⟩

theorem check_stage_ok (stage : Stage) : checkStage plan request stage = .ok () ↔ StageValid plan request stage := by
  simp only [checkStage, checkStagePath, checkStageEdge, then_ok, deny_ok, for_each_ok, not_or, not_not, not_lt, gt_iff_lt,
    ge_iff_le, UInt32.not_le]
  constructor
  · rintro ⟨index, paths, edges⟩
    exact ⟨index, fun id member => (paths id member).1, fun id member => (paths id member).2,
      fun id member => (edges id member).1, fun id member => (edges id member).2⟩
  · intro valid
    exact ⟨valid.index, fun id member => ⟨valid.pathListed id member, valid.pathStage id member⟩,
      fun id member => ⟨valid.edgeListed id member, valid.edgeStage id member⟩⟩

theorem check_allocation_ok (amounts : AmountMap) (allocation : Allocation) :
    checkAllocation request amounts allocation = .ok () ↔
      amounts.find allocation.edge = some allocation.plannedMbps.toNat ∧
        ∃ edge, request.fabric.findEdge allocation.edge = some edge ∧
          (0 < edge.capacityMbps → allocation.plannedMbps.toNat ≤ edge.capacityMbps - edge.reservedMbps) := by
  rw [checkAllocation, then_ok, deny_ok, not_not]
  cases found : request.fabric.findEdge allocation.edge with
  | none => simp
  | some edge => simp

theorem check_allocations_ok : checkAllocations plan request = .ok () ↔ AllocationsValid plan request := by
  simp only [checkAllocations, then_ok, deny_ok, for_each_ok, check_allocation_ok, Bool.not_eq_true, sorted_duplicates_free,
    not_not]
  constructor
  · rintro ⟨distinct, counted, entries⟩
    exact ⟨distinct, counted, fun allocation member => (entries allocation member).1,
      fun allocation member => (entries allocation member).2⟩
  · intro valid
    exact ⟨valid.distinct, valid.counted, fun allocation member => ⟨valid.recorded allocation member, valid.spare allocation member⟩⟩

theorem check_stats_ok : checkStats plan request = .ok () ↔ StatsValid plan request := by
  simp only [checkStats, then_ok, deny_ok, not_or, not_not]
  constructor
  · rintro ⟨⟨total, most, hops, edges⟩, bottleneck, weakest⟩
    exact ⟨total, most, hops, edges, bottleneck, weakest⟩
  · intro valid
    exact ⟨⟨valid.totalCost, valid.maxPathCost, valid.hopCount, valid.logicalEdgeCount⟩, valid.bottleneck, valid.weakest⟩

theorem validate_plan_ok : validatePlan plan request = .ok () ↔ Valid plan request := by
  simp only [validatePlan, then_ok, for_each_ok, check_identity_ok, check_paths_ok, check_siblings_ok, check_stage_ok,
    check_allocations_ok, check_stats_ok, List.nil_append, List.mem_range]
  constructor
  · rintro ⟨identity, paths, siblings, stages, allocations, stats⟩
    exact ⟨identity, paths, siblings, stages, allocations, stats⟩
  · intro valid
    exact ⟨valid.identity, valid.paths, valid.siblings, valid.stages, valid.allocations, valid.stats⟩

end ValidatePlan

end PathPlanner

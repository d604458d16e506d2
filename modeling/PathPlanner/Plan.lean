import PathPlanner.Eligibility
import PathPlanner.Lib.Tally

set_option autoImplicit false

namespace PathPlanner

open Checks Sequence

structure Hop where
  edge : EdgeId := unset
  source : NodeId := unset
  target : NodeId := unset
deriving DecidableEq, Repr

structure PathPlan where
  id : PathId := ⟨0⟩
  logicalEdge : LogicalEdgeId := ⟨0⟩
  src : ParticipantId := unset
  dst : ParticipantId := unset
  stage : UInt32 := 0
  hops : List Hop := []
  cost : UInt64 := 0
  bottleneckMbps : UInt64 := 0
  domainSignature : List FailureDomainId := []
  weakestEvidence : EvidenceClass := .unknown
deriving DecidableEq, Repr

structure Stage where
  index : UInt32 := 0
  logicalEdges : List LogicalEdgeId := []
  paths : List PathId := []
deriving DecidableEq, Repr

structure Allocation where
  edge : EdgeId := unset
  plannedMbps : UInt64 := 0
deriving DecidableEq, Repr

structure PlanStats where
  totalCost : UInt64 := 0
  maxPathCost : UInt64 := 0
  pathCount : UInt64 := 0
  hopCount : UInt64 := 0
  logicalEdgeCount : UInt64 := 0
  bottleneckMbps : UInt64 := 0
deriving DecidableEq, Repr

structure Plan where
  id : CollectivePlanId := ⟨Digest.zero⟩
  inputDigest : Digest := Digest.zero
  generation : CollectivePlanGeneration := ⟨0⟩
  bindings : GenerationBindings := {}
  collective : CollectiveId := unset
  kind : CollectiveKind := .ring
  stageCount : UInt32 := 1
  stages : List Stage := []
  paths : List PathPlan := []
  allocations : List Allocation := []
  stats : PlanStats := {}
  weakestEvidence : EvidenceClass := .unknown
deriving DecidableEq

def hopsAreSimple (hops : List Hop) : Bool :=
  decide (hops.map Hop.edge).Nodup && decide (hops.map Hop.target).Nodup &&
    match hops with
    | [] => true
    | first :: _ => hops.all fun hop => hop.target ≠ first.source

-- The weaker of two evidence labels, as the folds over hops and paths keep it.
def weakerEvidence (weakest observed : EvidenceClass) : EvidenceClass :=
  if observed.raw < weakest.raw then observed else weakest

-- An unordered map from edges to amounts; an absent edge reads as zero before its first share.
abbrev AmountMap := List (EdgeId × Nat)

namespace AmountMap

def find (amounts : AmountMap) (edge : EdgeId) : Option Nat :=
  (amounts.find? fun entry => entry.1 = edge).map Prod.snd

def accumulate (amount : Nat) (edges : List EdgeId) : AmountMap :=
  Tally.noteAll (saturatingAdd 0 amount kCostCeiling) (fun old => saturatingAdd old amount kCostCeiling) edges

end AmountMap

namespace ValidatePlan

variable (plan : Plan) (request : PlanningRequest)

def checkIdentity : Result Unit := do
  deny (plan.inputDigest ≠ request.canonicalDigest)
    (failure .planInputMismatch "plan digest does not match the canonical request digest")
  deny (plan.id.value ≠ plan.inputDigest) (failure .digestMismatch "plan identity is not its input digest")
  deny (plan.generation ≠ request.planGeneration)
    (failure .stalePlanGeneration "plan generation does not match the request")
  deny (plan.bindings ≠ request.currentBindings)
    (failure .generationRegression "plan generation bindings do not match the request")
  deny (plan.collective ≠ request.collective.id)
    (failure .planInputMismatch "plan names a different collective")
  deny (plan.kind ≠ request.collective.kind)
    (failure .planInputMismatch "plan names a different collective kind")
  deny (plan.stageCount.toNat ≠ request.collective.stageCount)
    (failure .planInputMismatch "plan stage count does not match the collective")
  deny (plan.stages.length ≠ plan.stageCount.toNat)
    (failure .inconsistentMetadata "plan does not materialise every stage")

def checkEnds (sourceBinding targetBinding : EndpointBinding) (hops : List Hop) : Result Unit :=
  match hops with
  | [] => deny (sourceBinding.node ≠ targetBinding.node) (failure .inconsistentMetadata
      "a zero-hop plan path requires both participants on the same endpoint node")
  | first :: rest => do
      deny (first.source ≠ sourceBinding.node)
        (failure .planInputMismatch "plan path does not start at the bound source node")
      deny (((first :: rest).getLast (List.cons_ne_nil first rest)).target ≠ targetBinding.node)
        (failure .planInputMismatch "plan path does not end at the bound destination node")

def checkHopEdge (sourceBinding targetBinding : EndpointBinding) (hop : Hop) (next : Option Hop) (edge : Edge) :
    Result Unit := do
  deny (edge.source ≠ hop.source ∨ edge.target ≠ hop.target)
    (failure .planInputMismatch "plan hop endpoints do not match the referenced physical edge")
  deny (next.any (fun following => following.source ≠ hop.target) = true)
    (failure .inconsistentMetadata "plan path hops are not contiguous")
  deny (nodeForbidden request.policy hop.source = true ∨ nodeForbidden request.policy hop.target = true)
    (failure .nodeForbidden "plan path traverses a forbidden node")
  deny (tierForbidden request.policy edge.tier = true)
    (failure .tierForbidden "plan path traverses a forbidden tier")
  deny (tierOutside request.policy edge.tier = true)
    (failure .tierForbidden "plan path uses a tier outside the allowed set")
  deny (domainForbidden request.fabric request.policy edge.failureDomain = true)
    (failure .failureDomainForbidden "plan path traverses a forbidden failure domain")
  deny (evidenceSatisfies edge.evidence request.policy.evidence = false)
    (failure .capacityEvidenceInsufficient "plan path relies on insufficient evidence")
  deny (edge.capacityMbps = 0 ∧ request.policy.allowUnverifiedCapacity = false)
    (failure .edgeHasNoVerifiedCapacity "plan path uses an edge with no verified capacity")
  deny (edge.capacityMbps > 0 ∧ edge.reservedMbps ≥ edge.capacityMbps)
    (failure .edgeHasNoVerifiedCapacity "plan path uses a saturated edge")
  deny (bindingAllowsEdge request.fabric sourceBinding edge = false ∨
      bindingAllowsEdge request.fabric targetBinding edge = false)
    (failure .endpointIneligible
      "plan path leaves the failure domains or tiers permitted by an endpoint binding")

-- Returns the hop domains the signature is recomputed from.
def checkHops (sourceBinding targetBinding : EndpointBinding) : List Hop → Result (List FailureDomainId)
  | [] => .ok []
  | hop :: rest =>
      match request.fabric.findEdge hop.edge with
      | none => .error ⟨.unknownReference, text "plan hop references edge " ++ hop.edge.value ++
          text " which is not in the fabric"⟩
      | some edge => do
          checkHopEdge request sourceBinding targetBinding hop rest.head? edge
          let later ← checkHops sourceBinding targetBinding rest
          if request.policy.domainDiversity ≠ .none ∧ edge.failureDomain.valid = true then
            .ok (domainAtLevel request.fabric edge.failureDomain request.policy.domainDiversityLevel :: later)
          else .ok later

def logicalEdgeOf (path : PathPlan) : LogicalEdge :=
  request.collective.logicalEdges.getD (path.logicalEdge.value.toNat - 1) {}

def siblingsOf (paths : List PathPlan) (logicalEdge : Nat) : List PathPlan :=
  paths.filter fun path => path.logicalEdge.value.toNat = logicalEdge

def checkRoute (siblingCount : Nat) (path : PathPlan) (sourceBinding targetBinding : EndpointBinding) :
    Result Unit := do
  deny (path.hops.length > request.policy.maxHops)
    (failure .hopLimitExceeded "plan path exceeds the hop limit")
  deny (path.cost.toNat > request.policy.maxPathCost)
    (failure .costLimitExceeded "plan path exceeds the cost limit")
  deny (hopsAreSimple path.hops = false) (failure .inconsistentMetadata
    "plan path is not simple: it revisits a physical node or edge")
  checkEnds sourceBinding targetBinding path.hops
  let hopDomains ← checkHops request sourceBinding targetBinding path.hops
  deny (signatureOf request.policy hopDomains ≠ path.domainSignature)
    (failure .inconsistentMetadata "plan path failure-domain signature does not match its hops")
  deny (request.policy.domainDiversity = .required ∧ siblingCount > 1 ∧ path.hops.length > 0 ∧
      hopDomains.length ≠ path.hops.length)
    (failure .domainDiversityUnsatisfiable
      "plan path traverses an edge with no declared failure domain")

-- earlier lists the paths already visited, this one excluded.
def checkPath (earlier : List PathPlan) (path : PathPlan) : Result Unit := do
  deny (path.id.value = 0 ∨ path.id.value.toNat > plan.paths.length)
    (failure .inconsistentMetadata "plan path identity is out of range")
  deny (earlier.any (fun visited => visited.id = path.id) = true)
    (failure .duplicateIdentifier "plan repeats a path identity")
  deny (path.logicalEdge.value = 0 ∨ path.logicalEdge.value.toNat > request.collective.logicalEdges.length)
    (failure .inconsistentMetadata "plan path names an unknown logical edge")
  deny (path.src ≠ (logicalEdgeOf request path).src ∨ path.dst ≠ (logicalEdgeOf request path).dst)
    (failure .planInputMismatch "plan path endpoints do not match its logical edge")
  deny (path.stage.toNat ≠ request.collective.logicalEdgeStage.getD (path.logicalEdge.value.toNat - 1) 0)
    (failure .inconsistentMetadata "plan path stage does not match the collective")
  match request.findBinding (logicalEdgeOf request path).src, request.findBinding (logicalEdgeOf request path).dst with
  | some sourceBinding, some targetBinding =>
      checkRoute request (siblingsOf (earlier ++ [path]) path.logicalEdge.value.toNat).length path
        sourceBinding targetBinding
  | _, _ => .error (failure .unboundParticipant "plan path has an unbound participant")

def checkPaths : List PathPlan → List PathPlan → Result Unit
  | _, [] => .ok ()
  | earlier, path :: rest => do
      checkPath plan request earlier path
      checkPaths (earlier ++ [path]) rest

def checkPair (lhs rhs : PathPlan) : Result Unit := do
  deny (request.policy.disjointness ≠ .none ∧ ∃ left ∈ lhs.hops, ∃ right ∈ rhs.hops, left.edge = right.edge)
    (failure .insufficientDisjointPaths "sibling plan paths share a physical edge")
  deny (request.policy.disjointness = .node ∧
      ∃ left ∈ lhs.hops.dropLast, ∃ right ∈ rhs.hops.dropLast, left.target = right.target)
    (failure .insufficientDisjointPaths "sibling plan paths share an intermediate physical node")
  deny (request.policy.domainDiversity = .required ∧ lhs.hops ≠ [] ∧ rhs.hops ≠ [] ∧
      ∃ domain ∈ lhs.domainSignature, binarySearch rhs.domainSignature domain = true)
    (failure .domainDiversityUnsatisfiable "sibling plan paths are not failure-domain independent")

def checkSiblings (index : Nat) : Result Unit := do
  let siblings := siblingsOf plan.paths (index + 1)
  deny (siblings = []) (failure .planInputMismatch "plan omits a logical edge of the collective")
  deny (siblings.length ≠ request.policy.pathsPerLogicalEdge)
    (failure .pathCountUnsupported "plan does not provide the required number of paths for a logical edge")
  forEachPair (checkPair request) siblings

def checkStagePath (stage : Stage) (id : PathId) : Result Unit := do
  deny (id.value = 0 ∨ id.value.toNat > plan.paths.length ∨ (plan.paths.getD (id.value.toNat - 1) {}).id ≠ id)
    (failure .inconsistentMetadata "plan stage references an unknown path")
  deny ((plan.paths.getD (id.value.toNat - 1) {}).stage ≠ stage.index)
    (failure .inconsistentMetadata "plan path is listed under the wrong stage")

def checkStageEdge (stage : Stage) (id : LogicalEdgeId) : Result Unit := do
  deny (id.value = 0 ∨ id.value.toNat > request.collective.logicalEdges.length)
    (failure .inconsistentMetadata "plan stage references an unknown logical edge")
  deny (request.collective.logicalEdgeStage.getD (id.value.toNat - 1) 0 ≠ stage.index.toNat)
    (failure .inconsistentMetadata "plan stage lists a logical edge that belongs to another stage")

def checkStage (stage : Stage) : Result Unit := do
  deny (stage.index ≥ plan.stageCount) (failure .inconsistentMetadata "plan stage index is out of range")
  forEach (checkStagePath plan stage) stage.paths
  forEach (checkStageEdge request stage) stage.logicalEdges

def recomputed : AmountMap :=
  if request.collective.demandMbps > 0 then
    AmountMap.accumulate ((request.collective.demandMbps + request.policy.pathsPerLogicalEdge - 1) /
      request.policy.pathsPerLogicalEdge) ((plan.paths.flatMap PathPlan.hops).map Hop.edge)
  else []

def checkAllocation (amounts : AmountMap) (allocation : Allocation) : Result Unit := do
  deny (amounts.find allocation.edge ≠ some allocation.plannedMbps.toNat)
    (failure .inconsistentMetadata "plan allocation does not match its paths")
  match request.fabric.findEdge allocation.edge with
  | none => .error (failure .unknownReference "plan allocates onto an unknown physical edge")
  | some edge =>
      deny (edge.capacityMbps > 0 ∧ allocation.plannedMbps.toNat > edge.capacityMbps - edge.reservedMbps)
        ⟨.insufficientCapacity, text "plan allocates " ++ decimal allocation.plannedMbps.toNat ++
          text " Mbps onto edge " ++ edge.id.value ++ text " which has less verified spare capacity than that"⟩

def checkAllocations : Result Unit := do
  let amounts := recomputed plan request
  deny (adjacentEqual (sortValues (plan.allocations.map Allocation.edge)) = true)
    (failure .inconsistentMetadata "plan allocation table names the same physical edge twice")
  deny (amounts.length ≠ plan.allocations.length)
    (failure .inconsistentMetadata "plan allocation table does not match its paths")
  forEach (checkAllocation request amounts) plan.allocations

def totalCost (paths : List PathPlan) : Nat := saturatingSum (paths.map fun path => path.cost.toNat)

def maxCost (paths : List PathPlan) : Nat := (paths.map fun path => path.cost.toNat).foldl max 0

def hopCount (paths : List PathPlan) : Nat := (paths.map fun path => path.hops.length).sum

def occupied (paths : List PathPlan) : List PathPlan := paths.filter fun path => path.hops ≠ []

def bottleneck (paths : List PathPlan) : Nat :=
  if occupied paths = [] then 0
  else ((occupied paths).map fun path => path.bottleneckMbps.toNat).foldl min kCostCeiling

def weakest (paths : List PathPlan) : EvidenceClass :=
  (paths.map PathPlan.weakestEvidence).foldl weakerEvidence .measured

def checkStats : Result Unit := do
  deny (plan.stats.totalCost.toNat ≠ totalCost plan.paths ∨ plan.stats.maxPathCost.toNat ≠ maxCost plan.paths ∨
      plan.stats.hopCount.toNat ≠ hopCount plan.paths ∨
      plan.stats.logicalEdgeCount.toNat ≠ request.collective.logicalEdges.length)
    (failure .inconsistentMetadata "plan statistics do not match its paths")
  deny (plan.stats.bottleneckMbps.toNat ≠ bottleneck plan.paths)
    (failure .inconsistentMetadata "plan bottleneck does not match its paths")
  deny (plan.weakestEvidence.raw ≠ (weakest plan.paths).raw)
    (failure .inconsistentMetadata "plan weakest evidence does not match its paths")

end ValidatePlan

open ValidatePlan in
def validatePlan (plan : Plan) (request : PlanningRequest) : Result Unit := do
  checkIdentity plan request
  checkPaths plan request [] plan.paths
  forEach (checkSiblings plan request) (List.range request.collective.logicalEdges.length)
  forEach (checkStage plan request) plan.stages
  checkAllocations plan request
  checkStats plan request

end PathPlanner

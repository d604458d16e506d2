import PathPlanner.Planner.Pool
import PathPlanner.Planner.Sets
import PathPlanner.Planner.MaxFlow

set_option autoImplicit false

namespace PathPlanner

inductive ConflictKind where
  | none | missingBinding | unknownNode | ineligibleEndpoint | endpointConstraint | forbiddenNode | forbiddenTier
  | forbiddenFailureDomain | hopLimit | costLimit | disconnected | noVerifiedCapacity | insufficientCapacity
  | evidenceInsufficient | disjointness | domainDiversity | searchBudget | structural
deriving DecidableEq, Repr

inductive DenialKind where
  | invalidRequest | staleInput | provenInfeasible | searchLimitReached | unsupportedConstraint
deriving DecidableEq, Repr

def kMaxDenialWitness : Nat := 8

structure EdgePlan where
  id : LogicalEdgeId := ⟨0⟩
  src : ParticipantId := unset
  dst : ParticipantId := unset
  stage : Nat := 0
  failed : Bool := false
  code : ErrorCode := .noPath
  kind : DenialKind := .provenInfeasible
  conflict : ConflictKind := .disconnected
  message : Bytes := []
  candidatesConsidered : Nat := 0
  pathsEnumerated : Nat := 0
  enumerationExhaustive : Bool := false
  alternatives : List PathSet := []
  setsExhaustive : Bool := false
  witnessNodes : List NodeId := []
  witnessEdges : List EdgeId := []

namespace Reachability

variable (state : PlannerState) (blocks : BlockSet) (sourceBinding targetBinding : EndpointBinding)

def usableTargets (node : NodeIndex) : List NodeIndex :=
  (state.fabric.outEdges node).filterMap fun index =>
    (state.fabric.nodeIndex (state.edge index).target).filter fun next =>
      hopUsable state blocks sourceBinding targetBinding index next

-- none is a target that was not reached.
def bfsMinHops (source target : NodeIndex) : Option Nat :=
  if source = target then some 0
  else
    match Breadth.search (usableTargets state blocks sourceBinding targetBinding) (fun node => decide (node = target))
        state.fabric.nodes.length source with
    | .error hops => some hops
    | .ok _ => none

end Reachability

namespace DiagnoseUnreachable

-- The first filter that drops an edge leaving the source, in the order they are tried.
inductive Cause where
  | node | tier | domain | evidence | capacity | binding | usable
deriving DecidableEq, Repr

def causeOf (state : PlannerState) (sourceBinding targetBinding : EndpointBinding) (index : EdgeIndex) : Cause :=
  let edge := state.edge index
  if edge.eligible = false then .node
  else if tierForbidden state.policy edge.tier || tierOutside state.policy edge.tier then .tier
  else if domainForbidden state.fabric state.policy edge.failureDomain then .domain
  else if evidenceSatisfies edge.evidence state.policy.evidence = false then .evidence
  else if edge.capacityMbps = 0 ∧ (state.policy.allowUnverifiedCapacity = false ∨ edge.reservedMbps ≠ 0) then .capacity
  else if edge.capacityMbps ≠ 0 ∧ edge.reservedMbps ≥ edge.capacityMbps then .capacity
  else if state.perPathDemand > 0 ∧ edge.capacityMbps > 0 ∧ state.spare index < state.perPathDemand then .capacity
  else if bindingAllowsEdge state.fabric sourceBinding edge = false ∨
      bindingAllowsEdge state.fabric targetBinding edge = false then .binding
  else if (state.fabric.nodeIndex edge.target).all fun next => !state.nodeAllowed next then .node
  else .usable

structure Diagnosis where
  code : ErrorCode
  conflict : ConflictKind
  message : Bytes
  witnessEdges : List EdgeId

def diagnose (state : PlannerState) (source target : NodeIndex) (sourceBinding targetBinding : EndpointBinding) :
    Diagnosis :=
  let sourceName := (state.fabric.node source).id.value
  let endpoints := text " from " ++ sourceName ++ text " to " ++ (state.fabric.node target).id.value
  let leaving := (List.range state.fabric.edges.length).filter fun index =>
    decide ((state.edge index).source = (state.fabric.node source).id)
  let witnessEdges := (leaving.take kMaxDenialWitness).map fun index => (state.edge index).id
  let count (causes : List Cause) : Nat :=
    leaving.countP fun index => decide (causeOf state sourceBinding targetBinding index ∈ causes)
  if leaving = [] then ⟨.noPath, .disconnected,
    text "no physical edge leaves the endpoint bound to " ++ sourceName ++ endpoints, witnessEdges⟩
  else if count [.node] = leaving.length then ⟨.nodeForbidden, .forbiddenNode,
    text "every edge leaving the source endpoint is ineligible or lands on a forbidden node" ++ endpoints, witnessEdges⟩
  else if count [.tier, .node] = leaving.length then ⟨.tierForbidden, .forbiddenTier,
    text "every edge leaving the source endpoint is excluded by the tier policy" ++ endpoints, witnessEdges⟩
  else if count [.domain, .tier, .node] = leaving.length then ⟨.failureDomainForbidden, .forbiddenFailureDomain,
    text "every edge leaving the source endpoint is excluded by the failure-domain policy" ++ endpoints, witnessEdges⟩
  else if count [.evidence, .domain, .tier, .node] = leaving.length then
    ⟨.capacityEvidenceInsufficient, .evidenceInsufficient,
      text "every edge leaving the source endpoint has evidence below the required class" ++ endpoints, witnessEdges⟩
  else if count [.capacity, .evidence, .domain, .tier, .node] = leaving.length then
    ⟨.edgeHasNoVerifiedCapacity, .noVerifiedCapacity,
      text "every edge leaving the source endpoint lacks verified spare capacity" ++ endpoints, witnessEdges⟩
  else if count [.binding, .capacity, .evidence, .domain, .tier, .node] = leaving.length then
    ⟨.endpointIneligible, .endpointConstraint,
      text "every edge leaving the source endpoint is excluded by the endpoint binding constraints" ++ endpoints,
      witnessEdges⟩
  else ⟨.noPath, .disconnected,
    text "the destination endpoint is not reachable under the policy" ++ endpoints, witnessEdges⟩

end DiagnoseUnreachable

namespace Analyse

def fail (plan : EdgePlan) (kind : DenialKind) (code : ErrorCode) (conflict : ConflictKind) (message : Bytes) :
    EdgePlan :=
  { plan with failed := true, kind, code, conflict, message }

variable (state : PlannerState) (limits : PlannerLimits)

def diagnosed (task : EnumerationTask) (lead : Bytes) (plan : EdgePlan) : EdgePlan :=
  let diagnosis := DiagnoseUnreachable.diagnose state task.source task.target task.sourceBinding task.targetBinding
  { fail plan .provenInfeasible diagnosis.code diagnosis.conflict (lead ++ diagnosis.message) with
    witnessEdges := plan.witnessEdges ++ diagnosis.witnessEdges }

def wanted : Nat := max 1 state.policy.pathsPerLogicalEdge

def disjointnessName : String := if state.policy.disjointness = .node then "node-disjoint" else "edge-disjoint"

-- No admissible set was kept: decide whether that is proven or merely unobserved.
def denySets (task : EnumerationTask) (exhaustive : Bool) (sets : SetEnumeration) (plan : EdgePlan) : EdgePlan :=
  let wanted := wanted state
  let certificate := maxDisjointPaths state task.source task.target
    (decide (state.policy.disjointness = .node)) task.sourceBinding task.targetBinding wanted
  if state.policy.disjointness ≠ .none ∧ wanted > 1 ∧ certificate < wanted then
    fail plan .provenInfeasible .insufficientDisjointPaths .disjointness
      (text "the fabric admits at most " ++ decimal certificate ++ text " " ++ text (disjointnessName state) ++
        text " compliant paths between the endpoints and " ++ decimal wanted ++ text " are required")
  else if plan.setsExhaustive then
    if sets.rejectedCapacity ≥ sets.rejectedDisjointness ∧ sets.rejectedCapacity > 0 then
      fail plan .provenInfeasible .insufficientCapacity .insufficientCapacity
        (text "every combination of " ++ decimal wanted ++
          text " compliant paths would commit more than the verified spare capacity of some edge")
    else if sets.rejectedDomain > 0 then
      fail plan .provenInfeasible .domainDiversityUnsatisfiable .domainDiversity
        (text "no combination of " ++ decimal wanted ++
          text " compliant paths is independent at failure-domain level " ++
          text state.policy.domainDiversityLevel.name)
    else
      fail plan .provenInfeasible .insufficientDisjointPaths .disjointness
        (text "no combination of " ++ decimal wanted ++
          text " compliant paths satisfies the disjointness requirement")
  else
    fail plan .searchLimitReached .searchBudgetExceeded .searchBudget
      (text "the combination search stopped at its declared bound after " ++ decimal sets.considered ++
        text " steps; " ++ decimal plan.candidatesConsidered ++
        text " candidate paths were considered and the path set was " ++
        text (if exhaustive then "complete" else "not complete"))

def chooseSets (task : EnumerationTask) (exhaustive : Bool) (pool : List Candidate) (plan : EdgePlan) : EdgePlan :=
  let sets := enumerateSets state pool (wanted state) limits.maxSetAlternatives limits.maxCombinationSteps
  let plan := { plan with setsExhaustive := exhaustive && !sets.stepLimited, alternatives := sets.best }
  if sets.best = [] then denySets state task exhaustive sets plan else plan

-- The enumeration the pool is built from, cut to the bound that decides its exhaustiveness.
def enumerated (task : EnumerationTask) (scratch : SearchScratch) : EnumerationRun :=
  let run := enumeratePaths state task ⟨{ scratch with blocks := scratch.blocks.reset }, {}⟩
  { run with out := { run.out with
    exhaustive := run.out.exhaustive && !run.out.stepLimited && decide (run.out.paths.length ≤ task.maxPaths)
    paths := run.out.paths.take task.maxPaths } }

def search (task : EnumerationTask) (scratch : SearchScratch) (plan : EdgePlan) : EdgePlan × SearchScratch :=
  let run := enumerated state task scratch
  let (pool, scratch) := buildPool state task run.out limits run.scratch
  let plan := { plan with
    enumerationExhaustive := run.out.exhaustive
    pathsEnumerated := run.out.paths.length
    candidatesConsidered := pool.length }
  if pool = [] then
    if run.out.exhaustive = false then
      (fail plan .searchLimitReached .searchBudgetExceeded .searchBudget
        (text "the path enumeration and the fallback search both stopped at their declared bounds (" ++
          decimal run.out.steps ++ text " enumeration steps, " ++ decimal scratch.expansions ++
          text " search expansions) before finding a compliant route"), scratch)
    else (diagnosed state task (text "no compliant route exists: ") plan, scratch)
  else (chooseSets state limits task run.out.exhaustive pool plan, scratch)

def analyseEndpoints (source target : NodeIndex) (sourceBinding targetBinding : EndpointBinding)
    (scratch : SearchScratch) (plan : EdgePlan) : EdgePlan × SearchScratch :=
  let task : EnumerationTask :=
    ⟨source, target, sourceBinding, targetBinding, limits.maxExhaustivePaths, limits.maxEnumerationSteps⟩
  if state.nodeAllowed source = false ∨ state.nodeAllowed target = false then
    let witness := if state.nodeAllowed source = false then source else target
    ({ fail plan .provenInfeasible .endpointIneligible .ineligibleEndpoint
        (text "the bound endpoint node is ineligible under the policy") with
      witnessNodes := plan.witnessNodes ++ [(state.fabric.node witness).id] }, scratch)
  else
    match Reachability.bfsMinHops state scratch.blocks sourceBinding targetBinding source target with
    | none => (diagnosed state task [] plan, scratch)
    | some hops =>
        if hops > state.policy.maxHops then
          (fail plan .provenInfeasible .hopLimitExceeded .hopLimit
            (text "the shortest policy-compliant route needs " ++ decimal hops ++
              text " hops and the policy allows " ++ decimal state.policy.maxHops), scratch)
        else search state limits task scratch plan

end Analyse

open Analyse in
def analyseLogicalEdge (state : PlannerState) (limits : PlannerLimits) (scratch : SearchScratch) (index : Nat) :
    EdgePlan × SearchScratch :=
  let logical := state.request.collective.logicalEdges.getD index {}
  let plan : EdgePlan := {
    id := ⟨UInt64.ofNat (index + 1)⟩
    src := logical.src
    dst := logical.dst
    stage := state.request.collective.logicalEdgeStage.getD index 0 }
  match state.request.findBinding logical.src, state.request.findBinding logical.dst with
  | some sourceBinding, some targetBinding =>
      match state.fabric.nodeIndex sourceBinding.node, state.fabric.nodeIndex targetBinding.node with
      | some source, some target => analyseEndpoints state limits source target sourceBinding targetBinding scratch plan
      | _, _ => (fail plan .invalidRequest .unknownEndpointNode .unknownNode
          (text "endpoint binding references a node that is not in the fabric"), scratch)
  | none, _ => (fail plan .invalidRequest .unboundParticipant .missingBinding
      (text "participant " ++ logical.src.value ++ text " has no endpoint binding"), scratch)
  | some _, none => (fail plan .invalidRequest .unboundParticipant .missingBinding
      (text "participant " ++ logical.dst.value ++ text " has no endpoint binding"), scratch)

end PathPlanner

import PathPlanner.Planner.Global

set_option autoImplicit false

namespace PathPlanner

def kMaxDenials : Nat := 64

structure DenialDetail where
  code : ErrorCode := .internalError
  kind : DenialKind := .provenInfeasible
  conflict : ConflictKind := .none
  logicalEdge : LogicalEdgeId := ⟨0⟩
  participant : ParticipantId := unset
  message : Bytes := []
  candidatesConsidered : Nat := 0
  pathsEnumerated : Nat := 0
  enumerationExhaustive : Bool := false
  nodes : List NodeId := []
  edges : List EdgeId := []
  failureDomains : List FailureDomainId := []
  tiers : List TierId := []
deriving DecidableEq, Repr

structure PlanningOutcome where
  plan : Option Plan := none
  denials : List DenialDetail := []
  searchExpansions : Nat := 0
  enumerationSteps : Nat := 0
  pathsEnumerated : Nat := 0
  combinationSteps : Nat := 0
  globalSearchNodes : Nat := 0
  optimal : Bool := false
deriving DecidableEq

namespace PlanCollective

variable (request : PlanningRequest)

def initialState (limits : PlannerLimits) : PlannerState where
  request
  perPathDemand := perPathShare request
  maxExpansions := max 1 request.policy.maxSearchExpansions
  enumerationBudget := max 1 limits.maxTotalEnumerationSteps

-- Analyses logical edges in order, stopping at the first denial unless all are collected.
def analyseAll (state : PlannerState) (limits : PlannerLimits) :
    Nat → Nat → SearchScratch → List EdgePlan × SearchScratch
  | 0, _, scratch => ([], scratch)
  | left + 1, index, scratch =>
      let (plan, scratch) := analyseLogicalEdge state limits scratch index
      if plan.failed && !limits.collectAllDenials then ([plan], scratch)
      else
        let (others, scratch) := analyseAll state limits left (index + 1) scratch
        (plan :: others, scratch)

def denialOf (plan : EdgePlan) : DenialDetail where
  code := plan.code
  kind := plan.kind
  conflict := plan.conflict
  logicalEdge := plan.id
  participant := plan.src
  message := plan.message
  candidatesConsidered := plan.candidatesConsidered
  pathsEnumerated := plan.pathsEnumerated
  enumerationExhaustive := plan.enumerationExhaustive
  nodes := plan.witnessNodes
  edges := plan.witnessEdges

def globalDenial (plans : List EdgePlan) (result : GlobalResult) : DenialDetail :=
  if result.exhaustive && plans.all EdgePlan.setsExhaustive then
    { kind := .provenInfeasible
      code := .insufficientCapacity
      conflict := .insufficientCapacity
      message := text "no assignment of compliant path sets keeps the request inside the verified spare capacity of every physical edge" }
  else
    { kind := .searchLimitReached
      code := .searchBudgetExceeded
      conflict := .searchBudget
      message := text "the global capacity search stopped at its declared bound after " ++ decimal result.nodes ++
        text " nodes; the request may or may not be mappable inside the proven capacity budget" }

def hopOf (index : EdgeIndex) : Hop :=
  ⟨(request.fabric.edge index).id, (request.fabric.edge index).source, (request.fabric.edge index).target⟩

def pathEntry (plan : EdgePlan) (id : Nat) (candidate : Candidate) : PathPlan where
  id := ⟨UInt64.ofNat id⟩
  logicalEdge := plan.id
  src := plan.src
  dst := plan.dst
  stage := UInt32.ofNat plan.stage
  hops := candidate.edges.map (hopOf request)
  cost := UInt64.ofNat candidate.cost
  bottleneckMbps := UInt64.ofNat candidate.bottleneck
  domainSignature := candidate.signature
  weakestEvidence := candidate.weakest

-- The candidates of every logical edge in order, each with the plan it belongs to.
def chosenCandidates (plans : List EdgePlan) (sets : List PathSet) : List (EdgePlan × Candidate) :=
  (plans.zip sets).flatMap fun entry => entry.2.paths.map fun candidate => (entry.1, candidate)

def pathEntries (chosen : List (EdgePlan × Candidate)) : List PathPlan :=
  chosen.mapIdx fun position entry => pathEntry request entry.1 (position + 1) entry.2

def stageEntry (plans : List EdgePlan) (paths : List PathPlan) (stage : Nat) : Stage where
  index := UInt32.ofNat stage
  logicalEdges := (plans.filter fun plan => plan.stage = stage).map EdgePlan.id
  paths := (paths.filter fun path => path.stage = UInt32.ofNat stage).map PathPlan.id

def allocationOf (chosen : List (EdgePlan × Candidate)) (demand : Nat) (index : EdgeIndex) : Nat :=
  saturatingSum (((chosen.flatMap fun entry => entry.2.edges).filter fun hop => hop = index).map fun _ => demand)

def allocationTable (chosen : List (EdgePlan × Candidate)) (demand : Nat) : List Allocation :=
  ((List.range request.fabric.edges.length).filter fun index => allocationOf chosen demand index ≠ 0).map fun index =>
    ⟨(request.fabric.edge index).id, UInt64.ofNat (allocationOf chosen demand index)⟩

def statsOf (plans : List EdgePlan) (chosen : List (EdgePlan × Candidate)) : PlanStats :=
  let candidates := chosen.map Prod.snd
  let occupied := candidates.filter fun candidate => candidate.edges ≠ []
  let bottleneck := (occupied.map Candidate.bottleneck).foldl min kCostCeiling
  { pathCount := UInt64.ofNat candidates.length
    hopCount := UInt64.ofNat (candidates.map fun candidate => candidate.edges.length).sum
    logicalEdgeCount := UInt64.ofNat plans.length
    totalCost := UInt64.ofNat (saturatingSum (candidates.map Candidate.cost))
    maxPathCost := UInt64.ofNat ((candidates.map Candidate.cost).foldl max 0)
    bottleneckMbps := UInt64.ofNat (if candidates = [] ∨ bottleneck = kCostCeiling then 0 else bottleneck) }

def assemble (demand : Nat) (plans : List EdgePlan) (sets : List PathSet) : Plan :=
  let chosen := chosenCandidates plans sets
  let paths := pathEntries request chosen
  { id := ⟨request.canonicalDigest⟩
    inputDigest := request.canonicalDigest
    generation := request.planGeneration
    bindings := request.currentBindings
    collective := request.collective.id
    kind := request.collective.kind
    stageCount := UInt32.ofNat request.collective.stageCount
    stages := (List.range request.collective.stageCount).map (stageEntry plans paths)
    paths
    allocations := allocationTable request chosen demand
    stats := statsOf plans chosen
    weakestEvidence := (chosen.map fun entry => entry.2.weakest).foldl weakerEvidence .measured }

def invalidRequest (status : Status) : DenialDetail where
  code := status.code
  kind := if categoryOf status.code = .authority then .staleInput else .invalidRequest
  conflict := .structural
  message := status.detail

def selfCheckDenial (status : Status) : DenialDetail where
  kind := .unsupportedConstraint
  code := .internalError
  conflict := .structural
  message := text "the produced plan failed the planner's own independent validation: " ++ status.toText

-- The answer once every logical edge has alternatives.
def concludeGlobal (state : PlannerState) (limits : PlannerLimits) (plans : List EdgePlan)
    (outcome : PlanningOutcome) : PlanningOutcome :=
  let result := solveGlobal plans state.spare limits.maxGlobalNodes
  let outcome := { outcome with globalSearchNodes := result.nodes }
  match result.best with
  | none => { outcome with denials := [globalDenial plans result] }
  | some best =>
      let plan := assemble state.request state.perPathDemand plans (SolveGlobal.chosenSets plans best.choice)
      match validatePlan plan state.request with
      | .error status => { outcome with denials := [selfCheckDenial status] }
      | .ok () => { outcome with optimal := result.exhaustive, plan := some plan }

end PlanCollective

open PlanCollective in
def planCollective (request : PlanningRequest) (limits : PlannerLimits) : PlanningOutcome :=
  match request.validate with
  | .error status => { denials := [invalidRequest status] }
  | .ok () =>
      let state := initialState request limits
      let (plans, scratch) := analyseAll state limits request.collective.logicalEdges.length 0 {}
      let outcome : PlanningOutcome := {
        denials := (plans.filter EdgePlan.failed).map denialOf
        searchExpansions := scratch.expansions
        enumerationSteps := scratch.enumerationSteps
        pathsEnumerated := (plans.map EdgePlan.pathsEnumerated).sum
        combinationSteps := (plans.map EdgePlan.candidatesConsidered).sum }
      if outcome.denials ≠ [] then outcome
      else concludeGlobal state limits plans outcome

end PathPlanner

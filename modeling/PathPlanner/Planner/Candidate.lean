import PathPlanner.Plan

set_option autoImplicit false

namespace PathPlanner

open Sequence

-- The fixed part of the planner state. The arrays it fills before the first search hold
-- one value per index and are read back unchanged, so each is a function of the index.
structure PlannerState where
  request : PlanningRequest
  perPathDemand : Nat
  maxExpansions : Nat
  enumerationBudget : Nat

namespace PlannerState

abbrev fabric (state : PlannerState) : FabricGraph := state.request.fabric

abbrev policy (state : PlannerState) : Policy := state.request.policy

abbrev edge (state : PlannerState) (index : EdgeIndex) : Edge := state.fabric.edge index

def hopLimit (state : PlannerState) : Nat := state.policy.maxHops

def nodeAllowed (state : PlannerState) (index : NodeIndex) : Bool :=
  (state.fabric.node index).eligible && !tierForbidden state.policy (state.fabric.node index).tier &&
    !nodeForbidden state.policy (state.fabric.node index).id

def edgeAllowed (state : PlannerState) (index : EdgeIndex) : Bool :=
  (state.edge index).eligible && !tierForbidden state.policy (state.edge index).tier &&
    !tierOutside state.policy (state.edge index).tier &&
    !domainForbidden state.fabric state.policy (state.edge index).failureDomain &&
    evidenceSatisfies (state.edge index).evidence state.policy.evidence

def edgeCost (state : PlannerState) (index : EdgeIndex) : Nat := edgeCostOf state.policy (state.edge index)

def spare (state : PlannerState) (index : EdgeIndex) : Nat := edgeSpare (state.edge index)

def edgeStaticallyUsable (state : PlannerState) (index : EdgeIndex) : Bool :=
  state.edgeAllowed index &&
    if (state.edge index).capacityMbps = 0 then
      state.policy.allowUnverifiedCapacity && decide ((state.edge index).reservedMbps = 0)
    else decide ((state.edge index).reservedMbps < (state.edge index).capacityMbps)

def edgeCarriesDemand (state : PlannerState) (index : EdgeIndex) : Bool :=
  decide (state.perPathDemand = 0) || decide ((state.edge index).capacityMbps = 0) ||
    decide (state.spare index ≥ state.perPathDemand)

end PlannerState

structure Candidate where
  edges : List EdgeIndex := []
  cost : Nat := 0
  bottleneck : Nat := 0
  weakest : EvidenceClass := .measured
  signature : List FailureDomainId := []
  domainKnown : Bool := true
deriving DecidableEq, Repr

def candidateLess (lhs rhs : Candidate) : Prop :=
  lhs.cost < rhs.cost ∨ (lhs.cost = rhs.cost ∧
    (lhs.edges.length < rhs.edges.length ∨ (lhs.edges.length = rhs.edges.length ∧ lhs.edges < rhs.edges)))

instance : DecidableRel candidateLess := fun lhs rhs => by unfold candidateLess; infer_instance

def candidateNotAfter (lhs rhs : Candidate) : Prop := ¬ candidateLess rhs lhs

instance : DecidableRel candidateNotAfter := fun lhs rhs => inferInstanceAs (Decidable (¬ candidateLess rhs lhs))

def sortCandidates (candidates : List Candidate) : List Candidate := candidates.insertionSort candidateNotAfter

def samePath (lhs rhs : Candidate) : Bool := decide (lhs.edges = rhs.edges)

-- seen and used hold the nodes and the edges before the current position.
def formsSimplePath (fabric : FabricGraph) : List NodeIndex → List EdgeIndex → List EdgeIndex → Bool
  | _, _, [] => true
  | seen, used, index :: rest =>
      match fabric.nodeIndex (fabric.edge index).target with
      | none => false
      | some next =>
          decide (next ∉ seen) && decide (index ∉ used) && formsSimplePath fabric (seen ++ [next]) (used ++ [index]) rest

def edgesFormSimplePath (fabric : FabricGraph) (edges : List EdgeIndex) (source : NodeIndex) : Bool :=
  formsSimplePath fabric [source] [] edges

namespace PlannerState

def hopDomain (state : PlannerState) (index : EdgeIndex) : FailureDomainId :=
  domainAtLevel state.fabric (state.edge index).failureDomain state.policy.domainDiversityLevel

def hopDomains (state : PlannerState) (edges : List EdgeIndex) : List FailureDomainId :=
  if state.policy.domainDiversity = .none then []
  else (edges.filter fun index =>
    (state.edge index).failureDomain.valid && (state.hopDomain index).valid).map state.hopDomain

def hopDomainKnown (state : PlannerState) (index : EdgeIndex) : Bool :=
  (state.edge index).failureDomain.valid &&
    (decide (state.policy.domainDiversity = .none) || (state.hopDomain index).valid)

def pathCost (state : PlannerState) (edges : List EdgeIndex) : Nat := saturatingSum (edges.map state.edgeCost)

def pathBottleneck (state : PlannerState) (edges : List EdgeIndex) : Nat :=
  let least := (edges.map state.spare).foldl min kCostCeiling
  if least = kCostCeiling then 0 else least

def pathEvidence (state : PlannerState) (edges : List EdgeIndex) : EvidenceClass :=
  (edges.map fun index => (state.edge index).evidence).foldl weakerEvidence .measured

def candidateOf (state : PlannerState) (edges : List EdgeIndex) : Candidate where
  edges
  cost := state.pathCost edges
  bottleneck := state.pathBottleneck edges
  weakest := state.pathEvidence edges
  signature := signatureOf state.policy (state.hopDomains edges)
  domainKnown := edges.all state.hopDomainKnown

-- none is a candidate whose ok flag is false: every caller drops it.
def makeCandidate (state : PlannerState) (edges : List EdgeIndex) (source : NodeIndex) : Option Candidate :=
  if edges.length ≤ state.policy.maxHops ∧ edgesFormSimplePath state.fabric edges source = true then
    some (state.candidateOf edges)
  else none

end PlannerState

def pathsEdgeDisjoint (lhs rhs : Candidate) : Bool := lhs.edges.all fun left => decide (left ∉ rhs.edges)

def interiorNodes (fabric : FabricGraph) (candidate : Candidate) : List NodeId :=
  candidate.edges.dropLast.map fun index => (fabric.edge index).target

def pathsNodeDisjoint (fabric : FabricGraph) (lhs rhs : Candidate) : Bool :=
  (interiorNodes fabric lhs).all fun left => decide (left ∉ interiorNodes fabric rhs)

def domainsIndependent (lhs rhs : Candidate) : Bool :=
  lhs.domainKnown && rhs.domainKnown && lhs.signature.all fun left => !binarySearch rhs.signature left

end PathPlanner

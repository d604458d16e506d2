import PathPlanner.Plan
import PathPlanner.Lib.Walk

set_option autoImplicit false

namespace PathPlanner

open Walk

-- What a mapping has to satisfy, in the terms of the request alone.
abbrev Route := List EdgeIndex

namespace Mapping

variable (request : PlanningRequest)

def tailOf (index : EdgeIndex) : NodeId := (request.fabric.edge index).source

def headOf (index : EdgeIndex) : NodeId := (request.fabric.edge index).target

structure NodeUsable (id : NodeId) : Prop where
  known : ∃ node ∈ request.fabric.nodes, node.id = id ∧ node.eligible = true ∧ node.tier ∉ request.policy.forbiddenTiers
  allowed : id ∉ request.policy.forbiddenNodes

structure EdgeUsable (edge : Edge) : Prop where
  eligible : edge.eligible = true
  tierFree : edge.tier ∉ request.policy.forbiddenTiers
  tierInside : request.policy.allowedPathTiers = [] ∨ edge.tier ∈ request.policy.allowedPathTiers
  domainFree : ∀ forbidden ∈ request.policy.forbiddenFailureDomains,
    request.fabric.domainContains forbidden edge.failureDomain = false
  evidence : evidenceSatisfies edge.evidence request.policy.evidence = true
  verified : edge.capacityMbps ≠ 0 → edge.reservedMbps < edge.capacityMbps
  unverified : edge.capacityMbps = 0 → request.policy.allowUnverifiedCapacity = true ∧ edge.reservedMbps = 0

structure BindingPermits (binding : EndpointBinding) (edge : Edge) : Prop where
  domain : binding.allowedFailureDomains = [] ∨
    ∃ allowed ∈ binding.allowedFailureDomains, request.fabric.domainContains allowed edge.failureDomain = true
  tier : binding.allowedTiers = [] ∨ edge.tier ∈ binding.allowedTiers

-- A path whose share of the demand would not fit even alone is not compliant.
def CarriesShare (edge : Edge) : Prop :=
  edge.capacityMbps ≠ 0 → perPathShare request ≤ edge.capacityMbps - edge.reservedMbps

def routeCost (route : Route) : Nat :=
  saturatingSum (route.map fun index => edgeCostOf request.policy (request.fabric.edge index))

structure CompliantRoute (source target : EndpointBinding) (route : Route) : Prop where
  stored : ∀ index ∈ route, index < request.fabric.edges.length
  walk : IsWalk (tailOf request) (headOf request) source.node route target.node
  simple : (visited (headOf request) source.node route).Nodup
  hops : route.length ≤ request.policy.maxHops
  nodes : ∀ node ∈ visited (headOf request) source.node route, NodeUsable request node
  edges : ∀ index ∈ route, EdgeUsable request (request.fabric.edge index)
  sourcePermits : ∀ index ∈ route, BindingPermits request source (request.fabric.edge index)
  targetPermits : ∀ index ∈ route, BindingPermits request target (request.fabric.edge index)
  share : ∀ index ∈ route, CarriesShare request (request.fabric.edge index)
  cost : routeCost request route ≤ request.policy.maxPathCost

def hopDomain (index : EdgeIndex) : FailureDomainId :=
  domainAtLevel request.fabric (request.fabric.edge index).failureDomain request.policy.domainDiversityLevel

def routeSignature (route : Route) : List FailureDomainId :=
  signatureOf request.policy ((route.filter fun index => (request.fabric.edge index).failureDomain.valid).map
    (hopDomain request))

def DomainsDeclared (route : Route) : Prop := ∀ index ∈ route, (request.fabric.edge index).failureDomain.valid = true

structure Independent (lhs rhs : Route) : Prop where
  left : DomainsDeclared request lhs
  right : DomainsDeclared request rhs
  disjoint : ∀ domain ∈ routeSignature request lhs, domain ∉ routeSignature request rhs

def interior (route : Route) : List NodeId := route.dropLast.map (headOf request)

structure Separate (lhs rhs : Route) : Prop where
  edges : request.policy.disjointness ≠ .none → ∀ index ∈ lhs, index ∉ rhs
  nodes : request.policy.disjointness = .node → ∀ node ∈ interior request lhs, node ∉ interior request rhs
  domains : request.policy.domainDiversity = .required → Independent request lhs rhs

def load (routes : List Route) (index : EdgeIndex) : Nat := perPathShare request * routes.flatten.count index

def Fits (routes : List Route) : Prop :=
  ∀ index < request.fabric.edges.length, (request.fabric.edge index).capacityMbps ≠ 0 →
    load request routes index ≤ (request.fabric.edge index).capacityMbps - (request.fabric.edge index).reservedMbps

structure AdmissibleSet (source target : EndpointBinding) (routes : List Route) : Prop where
  count : routes.length = request.policy.pathsPerLogicalEdge
  distinct : routes.Nodup
  compliant : ∀ route ∈ routes, CompliantRoute request source target route
  separate : routes.Pairwise (Separate request)
  fits : Fits request routes

structure BoundTo (participant : ParticipantId) (binding : EndpointBinding) : Prop where
  listed : binding ∈ request.bindings
  names : binding.participant = participant

structure AdmissibleFor (logical : LogicalEdge) (routes : List Route) : Prop where
  admissible : ∃ source target, BoundTo request logical.src source ∧ BoundTo request logical.dst target ∧
    AdmissibleSet request source target routes

-- One set of routes for every logical edge, in their order.
abbrev Assignment := List (List Route)

structure FittingAssignment (assignment : Assignment) : Prop where
  admissible : List.Forall₂ (AdmissibleFor request) request.collective.logicalEdges assignment
  fits : Fits request assignment.flatten

end Mapping

end PathPlanner

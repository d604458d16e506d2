import PathPlanner.Accepted

set_option autoImplicit false

namespace PathPlanner

open Sequence

-- The planner and the validator each carry their own copy of these filters; the
-- copies agree line by line, so each filter is one definition.
def evidenceSatisfies (observed : EvidenceClass) (required : EvidenceRequirement) : Bool :=
  match required with
  | .any => true
  | .syntheticOrBetter => decide (observed ≠ .unknown)
  | .measured => decide (observed = .measured)

def tierForbidden (policy : Policy) (tier : TierId) : Bool :=
  tier.valid && binarySearch policy.forbiddenTiers tier

def nodeForbidden (policy : Policy) (node : NodeId) : Bool := binarySearch policy.forbiddenNodes node

def tierOutside (policy : Policy) (tier : TierId) : Bool :=
  !policy.allowedPathTiers.isEmpty && (!tier.valid || !binarySearch policy.allowedPathTiers tier)

def domainForbidden (fabric : FabricGraph) (policy : Policy) (domain : FailureDomainId) : Bool :=
  domain.valid && policy.forbiddenFailureDomains.any fun forbidden => fabric.domainContains forbidden domain

def bindingAllowsEdge (fabric : FabricGraph) (binding : EndpointBinding) (edge : Edge) : Bool :=
  (binding.allowedFailureDomains.isEmpty || (edge.failureDomain.valid &&
    binding.allowedFailureDomains.any fun allowed => fabric.domainContains allowed edge.failureDomain)) &&
  (binding.allowedTiers.isEmpty || (edge.tier.valid && binarySearch binding.allowedTiers edge.tier))

def domainAtLevel (fabric : FabricGraph) (domain : FailureDomainId) (level : DomainKind) : FailureDomainId :=
  if domain.valid = false then unset
  else
    match (fabric.domainChain domain).find? fun entry =>
        (fabric.findFailureDomain entry).any fun record => record.kind = level with
    | some entry => entry
    | none => domain

-- Drops one occurrence of the first domain and one of the last, wherever they are met.
def dropAttachments (first last : FailureDomainId) : Bool → Bool → List FailureDomainId → List FailureDomainId
  | _, _, [] => []
  | removedFirst, removedLast, domain :: rest =>
      if !removedFirst && decide (domain = first) then dropAttachments first last true removedLast rest
      else if !removedLast && decide (domain = last) then dropAttachments first last removedFirst true rest
      else domain :: dropAttachments first last removedFirst removedLast rest

def signatureOf (policy : Policy) (hopDomains : List FailureDomainId) : List FailureDomainId :=
  match policy.domainDiversity, hopDomains with
  | .none, _ => []
  | _, [] => []
  | _, first :: rest => sortUnique (dropAttachments first ((first :: rest).getLast (by simp)) false false (first :: rest))

def edgeSpare (edge : Edge) : Nat :=
  if edge.capacityMbps = 0 ∨ edge.reservedMbps ≥ edge.capacityMbps then 0
  else edge.capacityMbps - edge.reservedMbps

def edgeCostOf (policy : Policy) (edge : Edge) : Nat :=
  let latencyTerm := saturatingMul edge.latencyMicros policy.latencyWeightMilli kCostCeiling / 1000
  if policy.congestionWeightMilli = 0 ∨ edge.capacityMbps = 0 then latencyTerm
  else if edge.reservedMbps ≥ edge.capacityMbps then kCostCeiling
  else
    let utilisationMilli := saturatingMul edge.reservedMbps 1000 kCostCeiling / edge.capacityMbps
    let spareMilli := 1000 - utilisationMilli
    let penalty := saturatingMul policy.congestionWeightMilli utilisationMilli kCostCeiling /
      (if spareMilli = 0 then 1 else spareMilli)
    saturatingAdd latencyTerm penalty kCostCeiling

-- The ceiling division of the declared demand over the sibling paths.
def perPathShare (request : PlanningRequest) : Nat :=
  let wanted := max 1 request.policy.pathsPerLogicalEdge
  if request.collective.demandMbps = 0 then 0 else (request.collective.demandMbps + wanted - 1) / wanted

theorem signature_sorted (policy : Policy) (hopDomains : List FailureDomainId) :
    (signatureOf policy hopDomains).Pairwise (· < ·) := by
  unfold signatureOf
  split
  · exact List.Pairwise.nil
  · exact List.Pairwise.nil
  · exact sort_unique_strict _

theorem domain_at_level_valid (fabric : FabricGraph) (sound : FabricGraph.Sound fabric) (domain : FailureDomainId)
    (level : DomainKind) (valid : domain.valid = true) : (domainAtLevel fabric domain level).valid = true := by
  unfold domainAtLevel
  rw [if_neg (by simp [valid])]
  split
  · rename_i entry found
    exact sound.chains domain entry (List.mem_of_find?_eq_some found)
  · exact valid

end PathPlanner

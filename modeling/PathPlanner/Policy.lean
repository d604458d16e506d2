import PathPlanner.Fabric

set_option autoImplicit false

namespace PathPlanner

open Checks Sequence

inductive Disjointness where
  | none | edge | node
deriving DecidableEq, Repr

def Disjointness.raw : Disjointness → Nat
  | .none => 0
  | .edge => 1
  | .node => 2

inductive DomainDiversity where
  | none | preferred | required
deriving DecidableEq, Repr

def DomainDiversity.raw : DomainDiversity → Nat
  | .none => 0
  | .preferred => 1
  | .required => 2

inductive EvidenceRequirement where
  | any | syntheticOrBetter | measured
deriving DecidableEq, Repr

def EvidenceRequirement.raw : EvidenceRequirement → Nat
  | .any => 0
  | .syntheticOrBetter => 1
  | .measured => 2

structure Policy where
  generation : PolicyGeneration := ⟨0⟩
  maxHops : Nat := 8
  pathsPerLogicalEdge : Nat := 1
  disjointness : Disjointness := .none
  domainDiversity : DomainDiversity := .none
  domainDiversityLevel : DomainKind := .rack
  evidence : EvidenceRequirement := .any
  latencyWeightMilli : Nat := 1000
  congestionWeightMilli : Nat := 0
  maxPathCost : Nat := kCostCeiling
  allowUnverifiedCapacity : Bool := false
  forbiddenNodes : List NodeId := []
  forbiddenTiers : List TierId := []
  forbiddenFailureDomains : List FailureDomainId := []
  allowedPathTiers : List TierId := []
  maxSearchExpansions : Nat := 2 ^ 18

namespace Policy

def canonicalize (policy : Policy) : Policy :=
  { policy with
    forbiddenNodes := sortUnique policy.forbiddenNodes
    forbiddenTiers := sortUnique policy.forbiddenTiers
    forbiddenFailureDomains := sortUnique policy.forbiddenFailureDomains
    allowedPathTiers := sortUnique policy.allowedPathTiers }

def requireSortedUnique {α : Type} [LinearOrder α] (values : List α) (name : String) : Result Unit :=
  deny (ascending values = false)
    ⟨.inconsistentMetadata, text name ++ text " is not sorted and de-duplicated"⟩

def validate (policy : Policy) : Result Unit := do
  deny (policy.generation.valid = false) (failure .missingRequiredField "policy generation must be set")
  deny (policy.maxHops < 1 ∨ policy.maxHops > kMaxHops)
    ⟨.valueOutOfRange, text "max-hop limit must be between 1 and " ++ decimal kMaxHops⟩
  deny (policy.pathsPerLogicalEdge < kMinPathsPerLogicalEdge ∨ policy.pathsPerLogicalEdge > kMaxPathsPerLogicalEdge)
    ⟨.pathCountUnsupported, text "paths per logical edge must be between " ++ decimal kMinPathsPerLogicalEdge ++
      text " and " ++ decimal kMaxPathsPerLogicalEdge⟩
  deny (policy.latencyWeightMilli > kMaxScoringWeightMilli ∨ policy.congestionWeightMilli > kMaxScoringWeightMilli)
    (failure .valueOutOfRange "scoring weight exceeds the model ceiling")
  deny (policy.maxPathCost = 0 ∨ policy.maxPathCost > kCostCeiling)
    (failure .valueOutOfRange "max path cost must be between 1 and the cost ceiling")
  deny (policy.forbiddenNodes.length > kMaxPolicySetEntries ∨ policy.forbiddenTiers.length > kMaxPolicySetEntries ∨
      policy.forbiddenFailureDomains.length > kMaxPolicySetEntries ∨
      policy.allowedPathTiers.length > kMaxPolicySetEntries)
    (failure .tooManyItems "policy set exceeds the configured bound")
  deny (policy.maxSearchExpansions = 0 ∨ policy.maxSearchExpansions > kMaxSearchExpansions)
    ⟨.valueOutOfRange, text "search budget must be between 1 and " ++ decimal kMaxSearchExpansions⟩
  forEach (fun node : NodeId => deny (isValidIdentifier node.value = false)
    (failure .invalidCharacter "forbidden node id is not a valid identifier")) policy.forbiddenNodes
  forEach (fun tier : TierId => deny (isValidTierName tier.value = false)
    (failure .invalidCharacter "forbidden tier is not a valid tier name")) policy.forbiddenTiers
  forEach (fun domain : FailureDomainId => deny (isValidIdentifier domain.value = false)
    (failure .invalidCharacter "forbidden failure domain is not a valid identifier")) policy.forbiddenFailureDomains
  forEach (fun tier : TierId => do
    deny (isValidTierName tier.value = false)
      (failure .invalidCharacter "allowed tier is not a valid tier name")
    deny (tier ∈ policy.forbiddenTiers)
      ⟨.inconsistentMetadata, text "tier " ++ tier.value ++ text " is both allowed and forbidden"⟩)
    policy.allowedPathTiers
  requireSortedUnique policy.forbiddenNodes "forbidden node set"
  requireSortedUnique policy.forbiddenTiers "forbidden tier set"
  requireSortedUnique policy.forbiddenFailureDomains "forbidden failure domain set"
  requireSortedUnique policy.allowedPathTiers "allowed tier set"

def encodeCanonical (policy : Policy) : Bytes :=
  ByteWriter.tagged "policy.v1" ++
  ByteWriter.generation policy.generation ++
  ByteWriter.u64 policy.maxHops ++
  ByteWriter.u64 policy.pathsPerLogicalEdge ++
  ByteWriter.u8 policy.disjointness.raw ++
  ByteWriter.u8 policy.domainDiversity.raw ++
  ByteWriter.u8 policy.domainDiversityLevel.raw ++
  ByteWriter.u8 policy.evidence.raw ++
  ByteWriter.u64 policy.latencyWeightMilli ++
  ByteWriter.u64 policy.congestionWeightMilli ++
  ByteWriter.u64 policy.maxPathCost ++
  ByteWriter.boolean policy.allowUnverifiedCapacity ++
  ByteWriter.u64 policy.maxSearchExpansions ++
  ByteWriter.counted ByteWriter.id policy.forbiddenNodes ++
  ByteWriter.counted ByteWriter.id policy.forbiddenTiers ++
  ByteWriter.counted ByteWriter.id policy.forbiddenFailureDomains ++
  ByteWriter.counted ByteWriter.id policy.allowedPathTiers

-- What an accepted policy guarantees, field by field.
structure Sound (policy : Policy) : Prop where
  hops : 1 ≤ policy.maxHops ∧ policy.maxHops ≤ kMaxHops
  paths : 1 ≤ policy.pathsPerLogicalEdge ∧ policy.pathsPerLogicalEdge ≤ kMaxPathsPerLogicalEdge
  weights : policy.latencyWeightMilli ≤ kMaxScoringWeightMilli ∧
    policy.congestionWeightMilli ≤ kMaxScoringWeightMilli
  pathCost : 0 < policy.maxPathCost ∧ policy.maxPathCost ≤ kCostCeiling
  expansions : 0 < policy.maxSearchExpansions
  forbiddenTierNames : ∀ tier ∈ policy.forbiddenTiers, isValidTierName tier.value = true
  forbiddenDomainNames : ∀ domain ∈ policy.forbiddenFailureDomains, isValidIdentifier domain.value = true
  allowedTierNames : ∀ tier ∈ policy.allowedPathTiers, isValidTierName tier.value = true
  nodesSorted : policy.forbiddenNodes.Pairwise (· < ·)
  tiersSorted : policy.forbiddenTiers.Pairwise (· < ·)
  allowedSorted : policy.allowedPathTiers.Pairwise (· < ·)

theorem validate_sound (policy : Policy) (accepted : policy.validate = .ok ()) : Sound policy := by
  simp only [validate, requireSortedUnique, then_ok, deny_ok, for_each_ok, not_or, not_lt,
    Bool.not_eq_false, ascending_iff, gt_iff_lt] at accepted
  obtain ⟨_, hops, paths, weights, cost, _, expansions, _, forbiddenTiers, forbiddenDomains, allowed,
    nodesSorted, tiersSorted, _, allowedSorted⟩ := accepted
  exact {
    hops := hops
    paths := paths
    weights := weights
    pathCost := ⟨Nat.pos_of_ne_zero cost.1, cost.2⟩
    expansions := Nat.pos_of_ne_zero expansions.1
    forbiddenTierNames := forbiddenTiers
    forbiddenDomainNames := forbiddenDomains
    allowedTierNames := fun tier member => (allowed tier member).1
    nodesSorted := nodesSorted
    tiersSorted := tiersSorted
    allowedSorted := allowedSorted }

end Policy

end PathPlanner

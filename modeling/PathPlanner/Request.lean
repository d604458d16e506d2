import PathPlanner.Collective
import PathPlanner.Policy

set_option autoImplicit false

namespace PathPlanner

open Checks Sequence

structure EndpointBinding where
  participant : ParticipantId := unset
  node : NodeId := unset
  allowedFailureDomains : List FailureDomainId := []
  allowedTiers : List TierId := []
deriving DecidableEq, Repr

structure GenerationBindings where
  topology : TopologyGeneration := ⟨0⟩
  failureDomains : FailureDomainGeneration := ⟨0⟩
  capacityEvidence : CapacityEvidenceGeneration := ⟨0⟩
  policy : PolicyGeneration := ⟨0⟩
  plan : CollectivePlanGeneration := ⟨0⟩
deriving DecidableEq, Repr

structure RequestSpec where
  collective : CollectiveSpec := {}
  fabric : FabricSpec := {}
  policy : Policy := {}
  planGeneration : CollectivePlanGeneration := ⟨0⟩
  bindings : List EndpointBinding := []

structure PlanningRequest where
  collective : Collective := {}
  fabric : FabricGraph := {}
  policy : Policy := {}
  planGeneration : CollectivePlanGeneration := ⟨0⟩
  bindings : List EndpointBinding := []
  canonicalDigest : Digest := Digest.zero
  canonicalBytes : Nat := 0

namespace PlanningRequest

def currentBindings (request : PlanningRequest) : GenerationBindings where
  topology := request.fabric.topologyGeneration
  failureDomains := request.fabric.failureDomainGeneration
  capacityEvidence := request.fabric.capacityEvidenceGeneration
  policy := request.policy.generation
  plan := request.planGeneration

-- A lower bound by participant, then one equality test.
def findBinding (request : PlanningRequest) (participant : ParticipantId) : Option EndpointBinding :=
  match request.bindings.dropWhile fun binding => binding.participant < participant with
  | [] => none
  | found :: _ => if found.participant = participant then some found else none

def encodeCanonical (request : PlanningRequest) : Bytes :=
  ByteWriter.tagged "cpath.request.v1" ++
  ByteWriter.u16 kCanonicalFormatVersion ++
  request.collective.encodeCanonical ++
  request.fabric.encodeCanonical ++
  request.policy.encodeCanonical ++
  ByteWriter.counted (fun binding : EndpointBinding =>
    ByteWriter.id binding.participant ++ ByteWriter.id binding.node ++
    ByteWriter.counted ByteWriter.id binding.allowedFailureDomains ++
    ByteWriter.counted ByteWriter.id binding.allowedTiers) request.bindings

def checkBindingNames (binding : EndpointBinding) : Result Unit := do
  deny (isValidIdentifier binding.participant.value = false)
    (failure .invalidCharacter "binding participant is not a valid identifier")
  deny (isValidIdentifier binding.node.value = false)
    (failure .invalidCharacter "binding node is not a valid identifier")

def checkBindingReferences (collective : Collective) (fabric : FabricGraph) (binding : EndpointBinding) :
    Result Unit := do
  deny (binding.participant ∉ collective.participants)
    ⟨.unknownReference, text "binding references participant " ++ binding.participant.value ++
      text " which the collective does not declare"⟩
  deny (fabric.findNode binding.node = none)
    ⟨.unknownEndpointNode, text "binding references unknown node " ++ binding.node.value⟩
  forEach (fun domain => deny (fabric.findFailureDomain domain = none)
    ⟨.unknownReference, text "binding references unknown failure domain " ++ domain.value⟩)
    binding.allowedFailureDomains
  forEach (fun tier : TierId => deny (isValidTierName tier.value = false)
    (failure .invalidCharacter "binding tier is not a valid tier name")) binding.allowedTiers

def checkBinding (collective : Collective) (fabric : FabricGraph) (binding : EndpointBinding) : Result Unit := do
  checkBindingNames binding
  checkBindingReferences collective fabric binding

def validate (request : PlanningRequest) : Result Unit := do
  request.collective.validate
  request.fabric.validate
  request.policy.validate
  deny (request.planGeneration.valid = false) (failure .missingRequiredField "plan generation must be set")
  deny (request.bindings.length > kMaxBindings) (failure .tooManyItems "binding count exceeds limit")
  deny (ascending (request.bindings.map EndpointBinding.participant) = false)
    (failure .inconsistentMetadata "bindings are not in canonical order")
  forEach (checkBinding request.collective request.fabric) request.bindings
  deny (Sha256.hash request.encodeCanonical ≠ request.canonicalDigest)
    (failure .digestMismatch "canonical digest does not match the encoded request")

def canonicalBinding (binding : EndpointBinding) : Result EndpointBinding := do
  checkBindingNames binding
  deny (binding.allowedFailureDomains.length > kMaxPolicySetEntries ∨ binding.allowedTiers.length > kMaxPolicySetEntries)
    (failure .tooManyItems "binding set exceeds the configured bound")
  .ok { binding with
    allowedFailureDomains := sortUnique binding.allowedFailureDomains
    allowedTiers := sortUnique binding.allowedTiers }

def canonicalBindings : List EndpointBinding → Result (List EndpointBinding)
  | [] => .ok []
  | binding :: rest => do
      let first ← canonicalBinding binding
      let others ← canonicalBindings rest
      .ok (first :: others)

def neighbourBindings : List EndpointBinding → Result Unit
  | previous :: current :: rest => do
      deny (current.participant = previous.participant)
        ⟨.duplicateBinding, text "participant " ++ current.participant.value ++ text " is bound more than once"⟩
      neighbourBindings (current :: rest)
  | _ => .ok ()

def build (spec : RequestSpec) : Result PlanningRequest := do
  let collective ← Collective.build spec.collective
  let fabric ← FabricGraph.build spec.fabric
  let policy := spec.policy.canonicalize
  policy.validate
  deny (spec.planGeneration.valid = false) (failure .missingRequiredField "plan generation must be set")
  deny (spec.bindings.length > kMaxBindings) (failure .tooManyItems "binding count exceeds limit")
  let canonical ← canonicalBindings spec.bindings
  let bindings := canonical.insertionSort fun lhs rhs => lhs.participant ≤ rhs.participant
  neighbourBindings bindings
  forEach (checkBindingReferences collective fabric) bindings
  let request : PlanningRequest := { collective, fabric, policy, planGeneration := spec.planGeneration, bindings }
  let encoded := request.encodeCanonical
  let request := { request with canonicalBytes := encoded.length, canonicalDigest := Sha256.hash encoded }
  request.validate
  .ok request

end PlanningRequest

def buildRequest (spec : RequestSpec) : Result PlanningRequest := PlanningRequest.build spec

end PathPlanner

import PathPlanner.Buffer

set_option autoImplicit false

namespace PathPlanner

open Checks Sequence

inductive EvidenceClass where
  | unknown | synthetic | measured
deriving DecidableEq, Repr

def EvidenceClass.raw : EvidenceClass → Nat
  | .unknown => 0
  | .synthetic => 1
  | .measured => 2

inductive DomainKind where
  | device | host | rack | pod | site
deriving DecidableEq, Repr

def DomainKind.raw : DomainKind → Nat
  | .device => 0
  | .host => 1
  | .rack => 2
  | .pod => 3
  | .site => 4

def DomainKind.name : DomainKind → String
  | .device => "device"
  | .host => "host"
  | .rack => "rack"
  | .pod => "pod"
  | .site => "site"

structure Placement where
  site : Bytes := []
  pod : Bytes := []
  rack : Bytes := []
  host : Bytes := []
  deviceIndex : UInt32 := 0
  supplied : Bool := false
deriving DecidableEq, Repr

structure Node where
  id : NodeId := unset
  placement : Placement := {}
  tier : TierId := unset
  eligible : Bool := true
deriving DecidableEq, Repr

structure FailureDomain where
  id : FailureDomainId := unset
  parent : FailureDomainId := unset
  kind : DomainKind := .device
deriving DecidableEq, Repr

structure Edge where
  id : EdgeId := unset
  source : NodeId := unset
  target : NodeId := unset
  capacityMbps : Nat := 0
  latencyMicros : Nat := 0
  reservedMbps : Nat := 0
  tier : TierId := unset
  failureDomain : FailureDomainId := unset
  evidence : EvidenceClass := .unknown
  eligible : Bool := true
deriving DecidableEq, Repr

structure FabricSpec where
  topologyGeneration : TopologyGeneration := ⟨0⟩
  failureDomainGeneration : FailureDomainGeneration := ⟨0⟩
  capacityEvidenceGeneration : CapacityEvidenceGeneration := ⟨0⟩
  failureDomains : List FailureDomain := []
  nodes : List Node := []
  edges : List Edge := []

abbrev NodeIndex := Nat
abbrev EdgeIndex := Nat

-- An unordered map from identities to positions; emplace never replaces.
structure IdMap (Id : Type) where
  entries : List (Id × Nat) := []

namespace IdMap

variable {Id : Type} [DecidableEq Id]

def find (map : IdMap Id) (id : Id) : Option Nat :=
  (map.entries.find? fun entry => entry.1 = id).map Prod.snd

def emplace (map : IdMap Id) (id : Id) (position : Nat) : IdMap Id :=
  match map.find id with
  | some _ => map
  | none => ⟨map.entries ++ [(id, position)]⟩

def emplaceAll (map : IdMap Id) (position : Nat) : List Id → IdMap Id
  | [] => map
  | id :: rest => emplaceAll (map.emplace id position) (position + 1) rest

end IdMap

structure FabricGraph where
  topologyGeneration : TopologyGeneration := ⟨0⟩
  failureDomainGeneration : FailureDomainGeneration := ⟨0⟩
  capacityEvidenceGeneration : CapacityEvidenceGeneration := ⟨0⟩
  failureDomains : List FailureDomain := []
  nodes : List Node := []
  edges : List Edge := []
  outEdgeLists : List (List EdgeIndex) := []
  domainChains : List (List FailureDomainId) := []
  nodePositions : IdMap NodeId := {}
  edgePositions : IdMap EdgeId := {}
  domainPositions : IdMap FailureDomainId := {}

namespace FabricGraph

def findNode (fabric : FabricGraph) (id : NodeId) : Option Node :=
  (fabric.nodePositions.find id).bind fun position => fabric.nodes[position]?

def findEdge (fabric : FabricGraph) (id : EdgeId) : Option Edge :=
  (fabric.edgePositions.find id).bind fun position => fabric.edges[position]?

def findFailureDomain (fabric : FabricGraph) (id : FailureDomainId) : Option FailureDomain :=
  (fabric.domainPositions.find id).bind fun position => fabric.failureDomains[position]?

-- none is kInvalidIndex.
def nodeIndex (fabric : FabricGraph) (id : NodeId) : Option NodeIndex := fabric.nodePositions.find id

def outEdges (fabric : FabricGraph) (node : NodeIndex) : List EdgeIndex := fabric.outEdgeLists.getD node []

def domainChain (fabric : FabricGraph) (id : FailureDomainId) : List FailureDomainId :=
  match fabric.domainPositions.find id with
  | none => []
  | some position => fabric.domainChains.getD position []

def domainContains (fabric : FabricGraph) (ancestor candidate : FailureDomainId) : Bool :=
  ancestor.valid && candidate.valid && (fabric.domainChain candidate).any (· = ancestor)

def edge (fabric : FabricGraph) (index : EdgeIndex) : Edge := fabric.edges.getD index {}

def node (fabric : FabricGraph) (index : NodeIndex) : Node := fabric.nodes.getD index {}

def appendOutEdges (positions : IdMap NodeId) (lists : List (List EdgeIndex)) (index : EdgeIndex) :
    List Edge → List (List EdgeIndex)
  | [] => lists
  | edge :: rest =>
      match positions.find edge.source with
      | none => appendOutEdges positions lists (index + 1) rest
      | some found => appendOutEdges positions (lists.modify found (· ++ [index])) (index + 1) rest

def rebuildIndex (fabric : FabricGraph) : FabricGraph :=
  let nodePositions := IdMap.emplaceAll {} 0 (fabric.nodes.map Node.id)
  { fabric with
    nodePositions
    edgePositions := IdMap.emplaceAll {} 0 (fabric.edges.map Edge.id)
    domainPositions := IdMap.emplaceAll {} 0 (fabric.failureDomains.map FailureDomain.id)
    outEdgeLists := appendOutEdges nodePositions (List.replicate fabric.nodes.length []) 0 fabric.edges }

def validOptionalLabel (label : Bytes) : Bool :=
  label.isEmpty || (decide (label.length ≤ kMaxPlacementLabelBytes) && isValidIdentifier label)

def checkDomainNames (domain : FailureDomain) : Result Unit := do
  deny (isValidIdentifier domain.id.value = false)
    (failure .invalidCharacter "failure domain id is not a valid identifier")
  deny (domain.parent.valid = true ∧ isValidIdentifier domain.parent.value = false)
    (failure .invalidCharacter "failure domain parent is not a valid identifier")

def neighbourDuplicates {α : Type} {tag : IdTag} (lead : String) (id : α → StrongId tag Bytes) : List α → Result Unit
  | previous :: current :: rest => do
      deny (id current = id previous) ⟨.duplicateIdentifier, text lead ++ (id current).value⟩
      neighbourDuplicates lead id (current :: rest)
  | _ => .ok ()

def checkParent (fabric : FabricGraph) (domain : FailureDomain) : Result Unit :=
  if domain.parent.valid = false then .ok ()
  else
    match fabric.findFailureDomain domain.parent with
    | none => .error ⟨.unknownReference, text "failure domain " ++ domain.id.value ++
        text " references unknown parent " ++ domain.parent.value⟩
    | some parent => deny (¬ parent.kind.raw > domain.kind.raw)
        ⟨.inconsistentMetadata, text "failure domain " ++ domain.id.value ++
          text " must be strictly contained by its parent " ++ parent.id.value⟩

-- The remaining levels bound the walk to the root; running out is an error.
def containmentChain (fabric : FabricGraph) : Nat → FailureDomainId → Result (List FailureDomainId)
  | levels, cursor =>
      if cursor.valid = false then .ok []
      else
        match levels with
        | 0 => .error ⟨.inconsistentMetadata, text "failure domain containment chain exceeds " ++
            decimal kMaxHierarchyLevels ++ text " levels"⟩
        | levels + 1 =>
            match fabric.findFailureDomain cursor with
            | none => .ok [cursor]
            | some domain => do
                let rest ← containmentChain fabric levels domain.parent
                .ok (cursor :: rest)

def containmentChains (fabric : FabricGraph) : List FailureDomain → Result (List (List FailureDomainId))
  | [] => .ok []
  | domain :: rest => do
      let chain ← containmentChain fabric kMaxHierarchyLevels domain.id
      let others ← containmentChains fabric rest
      .ok (chain :: others)

def checkNodeNames (node : Node) : Result Unit := do
  deny (isValidIdentifier node.id.value = false) (failure .invalidCharacter "node id is not a valid identifier")
  deny (node.tier.valid = true ∧ isValidTierName node.tier.value = false)
    (failure .invalidCharacter "node tier is not a valid tier name")
  deny ((validOptionalLabel node.placement.site && validOptionalLabel node.placement.pod &&
      validOptionalLabel node.placement.rack && validOptionalLabel node.placement.host) = false)
    (failure .invalidCharacter "node placement label is not a valid label")

def edgeStatus (code : ErrorCode) (edge : Edge) (message : String) (trail : Bytes) : Status :=
  ⟨code, text "edge " ++ edge.id.value ++ text message ++ trail⟩

def checkEdge (fabric : FabricGraph) (edge : Edge) : Result Unit := do
  deny (isValidIdentifier edge.id.value = false) (failure .invalidCharacter "edge id is not a valid identifier")
  deny (isValidIdentifier edge.source.value = false ∨ isValidIdentifier edge.target.value = false)
    (failure .invalidCharacter "edge endpoint is not a valid identifier")
  deny (edge.tier.valid = true ∧ isValidTierName edge.tier.value = false)
    (failure .invalidCharacter "edge tier is not a valid tier name")
  deny (edge.failureDomain.valid = true ∧ isValidIdentifier edge.failureDomain.value = false)
    (failure .invalidCharacter "edge failure domain is not a valid identifier")
  deny (edge.capacityMbps > kMaxCapacityMbps)
    (failure .valueOutOfRange "edge capacity exceeds the model ceiling")
  deny (edge.latencyMicros > kMaxLatencyMicros)
    (failure .valueOutOfRange "edge latency exceeds the model ceiling")
  deny (edge.source = edge.target) (edgeStatus .inconsistentMetadata edge " is a self loop" [])
  deny (edge.reservedMbps > edge.capacityMbps)
    (edgeStatus .inconsistentMetadata edge " has reserved capacity above its verified capacity" [])
  deny (fabric.nodePositions.find edge.source = none)
    (edgeStatus .unknownReference edge " references unknown node " edge.source.value)
  deny (fabric.nodePositions.find edge.target = none)
    (edgeStatus .unknownReference edge " references unknown node " edge.target.value)
  deny (edge.failureDomain.valid = true ∧ fabric.domainPositions.find edge.failureDomain = none)
    (edgeStatus .unknownReference edge " references unknown failure domain " edge.failureDomain.value)

def edgeNotAfter (lhs rhs : Edge) : Prop :=
  lhs.source < rhs.source ∨ (lhs.source = rhs.source ∧
    (lhs.target < rhs.target ∨ (lhs.target = rhs.target ∧ lhs.id ≤ rhs.id)))

def edgeBefore (lhs rhs : Edge) : Prop :=
  lhs.source < rhs.source ∨ (lhs.source = rhs.source ∧
    (lhs.target < rhs.target ∨ (lhs.target = rhs.target ∧ lhs.id < rhs.id)))

instance : DecidableRel edgeNotAfter := fun lhs rhs => by unfold edgeNotAfter; infer_instance

instance : DecidableRel edgeBefore := fun lhs rhs => by unfold edgeBefore; infer_instance

def firstAdjacentEqual {α : Type} [DecidableEq α] : List α → Option α
  | a :: b :: rest => if a = b then some a else firstAdjacentEqual (b :: rest)
  | _ => none

def checkEdgeIdentities (edges : List Edge) : Result Unit :=
  match firstAdjacentEqual (sortValues (edges.map Edge.id)) with
  | none => .ok ()
  | some duplicate => .error ⟨.duplicateIdentifier, text "duplicate edge id " ++ duplicate.value⟩

def validateEdge (fabric : FabricGraph) (edge : Edge) : Result Unit := do
  deny (fabric.findNode edge.source = none) (edgeStatus .unknownReference edge " references unknown node" [])
  deny (fabric.findNode edge.target = none) (edgeStatus .unknownReference edge " references unknown node" [])
  deny (edge.source = edge.target) (edgeStatus .inconsistentMetadata edge " is a self loop" [])
  deny (edge.reservedMbps > edge.capacityMbps)
    (edgeStatus .inconsistentMetadata edge " reserves more than its capacity" [])
  deny (edge.failureDomain.valid = true ∧ fabric.findFailureDomain edge.failureDomain = none)
    (edgeStatus .unknownReference edge " references an unknown failure domain" [])

def validateDomain (fabric : FabricGraph) (domain : FailureDomain) : Result Unit :=
  if domain.parent.valid = false then .ok ()
  else
    match fabric.findFailureDomain domain.parent with
    | none => .error ⟨.unknownReference, text "failure domain " ++ domain.id.value ++
        text " references an unknown parent"⟩
    | some parent => deny (¬ parent.kind.raw > domain.kind.raw)
        ⟨.inconsistentMetadata, text "failure domain " ++ domain.id.value ++ text " is not strictly contained"⟩

def validate (fabric : FabricGraph) : Result Unit := do
  deny (fabric.nodes.length > kMaxNodes) (failure .tooManyItems "node count exceeds limit")
  deny (fabric.edges.length > kMaxEdges) (failure .tooManyItems "edge count exceeds limit")
  deny (fabric.failureDomains.length > kMaxFailureDomains)
    (failure .tooManyItems "failure domain count exceeds limit")
  deny (ascending (fabric.failureDomains.map FailureDomain.id) = false)
    (failure .inconsistentMetadata "failure domains are not in canonical order")
  deny (ascending (fabric.nodes.map Node.id) = false)
    (failure .inconsistentMetadata "nodes are not in canonical order")
  deny (¬ fabric.edges.IsChain edgeBefore) (failure .inconsistentMetadata "edges are not in canonical order")
  deny (fabric.domainChains.length ≠ fabric.failureDomains.length)
    (failure .internalError "failure domain chain index is inconsistent")
  deny (adjacentEqual (sortValues (fabric.edges.map Edge.id)) = true)
    (failure .duplicateIdentifier "the fabric repeats an edge identity")
  deny (adjacentEqual (sortValues (fabric.nodes.map Node.id)) = true)
    (failure .duplicateIdentifier "the fabric repeats a node identity")
  forEach fabric.validateEdge fabric.edges
  forEach fabric.validateDomain fabric.failureDomains
  forEach (fun entry => deny ((fabric.nodes[entry.2]?).map Node.id ≠ some entry.1)
    (failure .internalError "node index is inconsistent")) fabric.nodePositions.entries
  forEach (fun entry => deny ((fabric.edges[entry.2]?).map Edge.id ≠ some entry.1)
    (failure .internalError "edge index is inconsistent")) fabric.edgePositions.entries

def build (spec : FabricSpec) : Result FabricGraph := do
  deny (spec.failureDomains.length > kMaxFailureDomains)
    (failure .tooManyItems "failure domain count exceeds limit")
  deny (spec.nodes.length > kMaxNodes) (failure .tooManyItems "node count exceeds limit")
  deny (spec.edges.length > kMaxEdges) (failure .tooManyItems "edge count exceeds limit")
  forEach checkDomainNames spec.failureDomains
  let failureDomains := spec.failureDomains.insertionSort fun lhs rhs => lhs.id ≤ rhs.id
  neighbourDuplicates "duplicate failure domain id " FailureDomain.id failureDomains
  let graph : FabricGraph := rebuildIndex {
    topologyGeneration := spec.topologyGeneration
    failureDomainGeneration := spec.failureDomainGeneration
    capacityEvidenceGeneration := spec.capacityEvidenceGeneration
    failureDomains }
  forEach graph.checkParent failureDomains
  let domainChains ← graph.containmentChains failureDomains
  forEach checkNodeNames spec.nodes
  let nodes := spec.nodes.insertionSort fun lhs rhs => lhs.id ≤ rhs.id
  neighbourDuplicates "duplicate node id " Node.id nodes
  let graph := rebuildIndex { graph with domainChains, nodes }
  forEach graph.checkEdge spec.edges
  let edges := spec.edges.insertionSort edgeNotAfter
  checkEdgeIdentities edges
  let graph := rebuildIndex { graph with edges }
  validate graph
  .ok graph

def encodeCanonical (fabric : FabricGraph) : Bytes :=
  ByteWriter.tagged "fabric.v1" ++
  ByteWriter.generation fabric.topologyGeneration ++
  ByteWriter.generation fabric.failureDomainGeneration ++
  ByteWriter.generation fabric.capacityEvidenceGeneration ++
  ByteWriter.counted (fun domain : FailureDomain =>
    ByteWriter.id domain.id ++ ByteWriter.id domain.parent ++ ByteWriter.u8 domain.kind.raw)
    fabric.failureDomains ++
  ByteWriter.counted (fun node : Node =>
    ByteWriter.id node.id ++ ByteWriter.string node.placement.site ++ ByteWriter.string node.placement.pod ++
    ByteWriter.string node.placement.rack ++ ByteWriter.string node.placement.host ++
    ByteWriter.u32 node.placement.deviceIndex.toNat ++ ByteWriter.boolean node.placement.supplied ++
    ByteWriter.id node.tier ++ ByteWriter.boolean node.eligible) fabric.nodes ++
  ByteWriter.counted (fun edge : Edge =>
    ByteWriter.id edge.id ++ ByteWriter.id edge.source ++ ByteWriter.id edge.target ++
    ByteWriter.u64 edge.capacityMbps ++ ByteWriter.u64 edge.latencyMicros ++ ByteWriter.u64 edge.reservedMbps ++
    ByteWriter.id edge.tier ++ ByteWriter.id edge.failureDomain ++ ByteWriter.u8 edge.evidence.raw ++
    ByteWriter.boolean edge.eligible) fabric.edges

end FabricGraph

end PathPlanner

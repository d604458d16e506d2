import PathPlanner.Dsl.Assignments

set_option autoImplicit false

namespace PathPlanner

open Checks

namespace Dsl

inductive SectionName where
  | collective | groups | domains | nodes | edges | bindings | policy | forbidden
deriving DecidableEq, Repr

def parseSectionName : Bytes → Option SectionName :=
  parseNamed [("collective", .collective), ("groups", .groups), ("domains", .domains), ("nodes", .nodes), ("edges", .edges),
    ("bindings", .bindings), ("policy", .policy), ("forbidden", .forbidden)]

structure ReaderState where
  bannerSeen : Bool := false
  collectiveSeen : Bool := false
  sectionName : Option SectionName := none
  sectionSeen : List SectionName := []
  spec : RequestSpec := {}

-- The first word of a line, and what follows it and the spaces after it.
def firstWord (line : Bytes) : Bytes := line.takeWhile fun ch => !isSpace ch

def afterWord (line : Bytes) : Bytes := line.dropWhile fun ch => !isSpace ch

def handleBanner (line : Bytes) : Result Unit := do
  deny (firstWord line ≠ text "cpath-request") (failure .missingRequiredField "expected the banner 'cpath-request <version>'")
  let version ← underKey (text "banner version") (parseU64 ((afterWord line).dropWhile isSpace))
  deny (version ≠ 1) ⟨.unsupportedFormatVersion, text "unsupported request DSL version " ++ decimal version⟩

inductive HeaderKeyword where
  | planGeneration | topologyGeneration | failureDomainGeneration | capacityEvidenceGeneration | policyGeneration
deriving DecidableEq, Repr

def parseHeaderKeyword : Bytes → Option HeaderKeyword :=
  parseNamed [("plan-generation", .planGeneration), ("topology-generation", .topologyGeneration),
    ("failure-domain-generation", .failureDomainGeneration), ("capacity-evidence-generation", .capacityEvidenceGeneration),
    ("policy-generation", .policyGeneration)]

def setHeader (spec : RequestSpec) (keyword : HeaderKeyword) (number : UInt64) : RequestSpec :=
  match keyword with
  | .planGeneration => { spec with planGeneration := ⟨number⟩ }
  | .topologyGeneration => { spec with fabric := { spec.fabric with topologyGeneration := ⟨number⟩ } }
  | .failureDomainGeneration => { spec with fabric := { spec.fabric with failureDomainGeneration := ⟨number⟩ } }
  | .capacityEvidenceGeneration => { spec with fabric := { spec.fabric with capacityEvidenceGeneration := ⟨number⟩ } }
  | .policyGeneration => { spec with policy := { spec.policy with generation := ⟨number⟩ } }

def readHeader (line : Bytes) : Result (HeaderKeyword × UInt64) := do
  let value := (afterWord line).dropWhile isSpace
  deny (value = []) (failure .invalidSyntax "header line requires a value")
  let number ← underKey (firstWord line) (parseU64 value)
  match parseHeaderKeyword (firstWord line) with
  | some keyword => .ok (keyword, UInt64.ofNat number)
  | none => .error ⟨.unknownKeyword, text "unknown header keyword " ++ firstWord line⟩

def handleHeader (spec : RequestSpec) (line : Bytes) : Result RequestSpec := do
  let (keyword, number) ← readHeader line
  .ok (setHeader spec keyword number)

def handleSection (state : ReaderState) (line : Bytes) : Result ReaderState := do
  deny (line.length < 3 ∨ line.getLast? ≠ some 93) (failure .invalidSyntax "malformed section header")
  let name := (line.drop 1).take (line.length - 2)
  deny (name = []) (failure .invalidSyntax "empty section name")
  match parseSectionName name with
  | none => .error ⟨.unknownKeyword, text "unknown section [" ++ name ++ text "]"⟩
  | some sectionName => do
      deny (sectionName ∈ state.sectionSeen) ⟨.duplicateIdentifier, text "repeated section [" ++ name ++ text "]"⟩
      .ok { state with sectionName := some sectionName, sectionSeen := state.sectionSeen ++ [sectionName] }

def readCollective (entries : AssignmentList) (collective : CollectiveSpec) : Result CollectiveSpec := do
  let kind ← entries.named "kind" parseCollectiveKind collective.kind
    ⟨.valueOutOfRange, text "unknown collective kind " ++ entries.get "kind"⟩
  let demand ← entries.number "demand" 0 false
  deny (demand > kMaxCapacityMbps) (failure .valueOutOfRange "declared demand exceeds the model ceiling")
  .ok { collective with kind, demandMbps := demand }

def handleCollective (state : ReaderState) (line : Bytes) : Result ReaderState := do
  let entries ← AssignmentList.parse line
  entries.rejectUnknown ["id", "kind", "demand"]
  entries.require "id"
  let id ← underKey (text "id") (makeIdentifier (entries.get "id"))
  deny (state.collectiveSeen = true) (failure .duplicateIdentifier "collective is declared more than once")
  let collective ← readCollective entries { state.spec.collective with id := ⟨id⟩ }
  .ok { state with collectiveSeen := true, spec := { state.spec with collective } }

def readGroup (id : Bytes) (entries : AssignmentList) : Result GroupSpec := do
  let level ← entries.number32 "level" 0 true
  entries.require "pattern"
  let pattern ← entries.named "pattern" parseGroupPattern .ring (failure .valueOutOfRange "unknown group pattern")
  let direction ← entries.named "direction" parseTreeDirection .forward (failure .valueOutOfRange "unknown tree direction")
  let root ← entries.optional "root" makeIdentifier
  entries.require "members"
  let members ← entries.nameList "members" makeIdentifier
    (some (kMaxGroupMembers, failure .tooManyItems "group declares too many members")) []
  .ok { id := ⟨id⟩, level, pattern, direction, root, members }

-- Where the records of a section are kept.
structure Slot (α : Type) where
  items : RequestSpec → List α
  put : RequestSpec → List α → RequestSpec

def handleItem {α : Type} (keys : List String) (slot : Slot α) (limit : Nat) (excess : Status)
    (read : Bytes → AssignmentList → Result α) (spec : RequestSpec) (id : Bytes) (entries : AssignmentList) : Result RequestSpec := do
  entries.rejectUnknown keys
  deny ((slot.items spec).length ≥ limit) excess
  let item ← read id entries
  .ok (slot.put spec (slot.items spec ++ [item]))

def groupSlot : Slot GroupSpec where
  items spec := spec.collective.groups
  put spec groups := { spec with collective := { spec.collective with groups } }

def domainSlot : Slot FailureDomain where
  items spec := spec.fabric.failureDomains
  put spec failureDomains := { spec with fabric := { spec.fabric with failureDomains } }

def nodeSlot : Slot Node where
  items spec := spec.fabric.nodes
  put spec nodes := { spec with fabric := { spec.fabric with nodes } }

def edgeSlot : Slot Edge where
  items spec := spec.fabric.edges
  put spec edges := { spec with fabric := { spec.fabric with edges } }

def bindingSlot : Slot EndpointBinding where
  items spec := spec.bindings
  put spec bindings := { spec with bindings }

-- Only groups are looked up among those read before.
def handleGroup (spec : RequestSpec) (id : Bytes) (entries : AssignmentList) : Result RequestSpec := do
  entries.rejectUnknown ["level", "pattern", "root", "direction", "members"]
  deny (spec.collective.groups.length ≥ kMaxGroups) (failure .tooManyItems "group count exceeds limit")
  deny (⟨id⟩ ∈ spec.collective.groups.map GroupSpec.id) ⟨.duplicateIdentifier, text "duplicate group id " ++ id⟩
  let group ← readGroup id entries
  .ok (groupSlot.put spec (spec.collective.groups ++ [group]))

def readDomain (id : Bytes) (entries : AssignmentList) : Result FailureDomain := do
  let kind ← entries.named "kind" parseDomainKind .device (failure .valueOutOfRange "unknown failure domain kind")
  let parent ← entries.optional "parent" makeIdentifier
  .ok { id := ⟨id⟩, kind, parent }

def handleDomain : RequestSpec → Bytes → AssignmentList → Result RequestSpec :=
  handleItem ["kind", "parent"] domainSlot kMaxFailureDomains
    (failure .tooManyItems "failure domain count exceeds limit") readDomain

def readNode (id : Bytes) (entries : AssignmentList) : Result Node := do
  let site ← entries.label "site"
  let pod ← entries.label "pod"
  let rack ← entries.label "rack"
  let host ← entries.label "host"
  let supplied := entries.has "site" || entries.has "pod" || entries.has "rack" || entries.has "host" || entries.has "device"
  let device ← entries.number32 "device" 0 false
  let tier ← entries.optional "tier" makeTierName
  let eligible ← entries.named "eligible" parseBool true (failure .valueOutOfRange "eligible must be 0 or 1")
  .ok { id := ⟨id⟩, placement := { site, pod, rack, host, deviceIndex := UInt32.ofNat device, supplied }, tier, eligible }

def handleNode : RequestSpec → Bytes → AssignmentList → Result RequestSpec :=
  handleItem ["site", "pod", "rack", "host", "device", "tier", "eligible"] nodeSlot kMaxNodes
    (failure .tooManyItems "node count exceeds limit") readNode

def readEdge (id : Bytes) (entries : AssignmentList) : Result Edge := do
  entries.require "from"
  entries.require "to"
  let source ← makeIdentifier (entries.get "from")
  let target ← makeIdentifier (entries.get "to")
  let capacity ← entries.number "capacity" 0 false
  let latency ← entries.number "latency" 0 false
  let reserved ← entries.number "reserved" 0 false
  let tier ← entries.optional "tier" makeTierName
  let failureDomain ← entries.optional "domain" makeIdentifier
  let evidence ← entries.named "evidence" parseEvidenceClass .unknown (failure .valueOutOfRange "unknown evidence class")
  let eligible ← entries.named "eligible" parseBool true (failure .valueOutOfRange "eligible must be 0 or 1")
  .ok { id := ⟨id⟩, source := ⟨source⟩, target := ⟨target⟩, capacityMbps := capacity, latencyMicros := latency,
        reservedMbps := reserved, tier, failureDomain, evidence, eligible }

def handleEdge : RequestSpec → Bytes → AssignmentList → Result RequestSpec :=
  handleItem ["from", "to", "capacity", "latency", "reserved", "tier", "domain", "evidence", "eligible"] edgeSlot kMaxEdges
    (failure .tooManyItems "edge count exceeds limit") readEdge

def readBinding (id : Bytes) (entries : AssignmentList) : Result EndpointBinding := do
  entries.require "node"
  let node ← underKey (text "node") (makeIdentifier (entries.get "node"))
  let allowedFailureDomains ← entries.nameList "domains" makeIdentifier none []
  let allowedTiers ← entries.nameList "tiers" makeTierName none []
  .ok { participant := ⟨id⟩, node := ⟨node⟩, allowedFailureDomains, allowedTiers }

def handleBinding : RequestSpec → Bytes → AssignmentList → Result RequestSpec :=
  handleItem ["node", "domains", "tiers"] bindingSlot kMaxBindings
    (failure .tooManyItems "binding count exceeds limit") readBinding

def policyKeys : List String :=
  ["max-hops", "paths-per-logical-edge", "disjointness", "domain-diversity", "domain-diversity-level", "evidence",
    "latency-weight-milli", "congestion-weight-milli", "max-path-cost", "allow-unverified-capacity", "max-search-expansions",
    "allowed-tiers"]

-- The six numbers are read before any failure is looked at, and a failure of one of them does not name its key.
def policyNumber (entries : AssignmentList) (key : String) (current : Nat) : Result Nat :=
  match entries.number key current false with
  | .ok value => .ok value
  | .error _ => .error (failure .malformedNumber "policy value is not a decimal number")

def setBound (what : String) : Option (Nat × Status) := some (kMaxPolicySetEntries, failure .tooManyItems what)

def readPolicy (policy : Policy) (entries : AssignmentList) : Result Policy := do
  let maxHops ← policyNumber entries "max-hops" policy.maxHops
  let paths ← policyNumber entries "paths-per-logical-edge" policy.pathsPerLogicalEdge
  let latency ← policyNumber entries "latency-weight-milli" policy.latencyWeightMilli
  let congestion ← policyNumber entries "congestion-weight-milli" policy.congestionWeightMilli
  let maxCost ← policyNumber entries "max-path-cost" policy.maxPathCost
  let expansions ← policyNumber entries "max-search-expansions" policy.maxSearchExpansions
  let disjointness ← entries.named "disjointness" parseDisjointness policy.disjointness
    (failure .valueOutOfRange "unknown disjointness mode")
  let diversity ← entries.named "domain-diversity" parseDomainDiversity policy.domainDiversity
    (failure .valueOutOfRange "unknown domain diversity mode")
  let level ← entries.named "domain-diversity-level" parseDomainKind policy.domainDiversityLevel
    (failure .valueOutOfRange "unknown domain diversity level")
  let evidence ← entries.named "evidence" parseEvidenceRequirement policy.evidence
    (failure .valueOutOfRange "unknown evidence requirement")
  let unverified ← entries.named "allow-unverified-capacity" parseBool policy.allowUnverifiedCapacity
    (failure .valueOutOfRange "allow-unverified-capacity must be 0 or 1")
  let tiers ← entries.nameList "allowed-tiers" makeTierName (setBound "allowed tier set exceeds the bound") policy.allowedPathTiers
  .ok { policy with
    maxHops, pathsPerLogicalEdge := paths, latencyWeightMilli := latency, congestionWeightMilli := congestion
    maxPathCost := maxCost, maxSearchExpansions := expansions, disjointness, domainDiversity := diversity
    domainDiversityLevel := level, evidence, allowUnverifiedCapacity := unverified, allowedPathTiers := tiers }

def handlePolicy (spec : RequestSpec) (line : Bytes) : Result RequestSpec := do
  let entries ← AssignmentList.parse line
  entries.rejectUnknown policyKeys
  let policy ← readPolicy spec.policy entries
  .ok { spec with policy }

def readForbidden (policy : Policy) (entries : AssignmentList) : Result Policy := do
  let nodes ← entries.nameList "nodes" makeIdentifier (setBound "forbidden node set exceeds the bound") policy.forbiddenNodes
  let tiers ← entries.nameList "tiers" makeTierName (setBound "forbidden tier set exceeds the bound") policy.forbiddenTiers
  let domains ← entries.nameList "domains" makeIdentifier (setBound "forbidden failure domain set exceeds the bound")
    policy.forbiddenFailureDomains
  .ok { policy with forbiddenNodes := nodes, forbiddenTiers := tiers, forbiddenFailureDomains := domains }

def handleForbidden (spec : RequestSpec) (line : Bytes) : Result RequestSpec := do
  let entries ← AssignmentList.parse line
  entries.rejectUnknown ["nodes", "tiers", "domains"]
  let policy ← readForbidden spec.policy entries
  .ok { spec with policy }

-- Every section but three has lines that begin with an identifier.
def handleRecord (spec : RequestSpec) (line : Bytes) (handle : RequestSpec → Bytes → AssignmentList → Result RequestSpec) :
    Result RequestSpec := do
  let id ← underKey (text "identifier") (makeIdentifier (firstWord line))
  let entries ← AssignmentList.parse (afterWord line)
  handle spec id entries

def handleEntry (state : ReaderState) (sectionName : SectionName) (line : Bytes) : Result ReaderState := do
  let changed (outcome : Result RequestSpec) : Result ReaderState := outcome.map fun spec => { state with spec }
  match sectionName with
  | .policy => changed (handlePolicy state.spec line)
  | .forbidden => changed (handleForbidden state.spec line)
  | .collective => handleCollective state line
  | .groups => changed (handleRecord state.spec line handleGroup)
  | .domains => changed (handleRecord state.spec line handleDomain)
  | .nodes => changed (handleRecord state.spec line handleNode)
  | .edges => changed (handleRecord state.spec line handleEdge)
  | .bindings => changed (handleRecord state.spec line handleBinding)

def isSectionLine (line : Bytes) : Bool := line.head? = some 91

def handleLine (state : ReaderState) (line : Bytes) : Result ReaderState :=
  if isSectionLine line = true then handleSection state line
  else if state.bannerSeen = false then (handleBanner line).map fun _ => { state with bannerSeen := true }
  else
    match state.sectionName with
    | none => (handleHeader state.spec line).map fun spec => { state with spec }
    | some sectionName => handleEntry state sectionName line

-- A line without the carriage return at its end and the spaces around it.
def trimmed (raw : Bytes) : Bytes :=
  let line := if raw.getLast? = some 13 then raw.dropLast else raw
  (line.dropWhile isSpace).rdropWhile isSpace

def isSkipped (line : Bytes) : Bool := line = [] || line.head? = some 35

-- A failure inside a line names the line.
def atLine {α : Type} (number : Nat) (outcome : Result α) : Result α :=
  match outcome with
  | .ok value => .ok value
  | .error status => .error ⟨status.code, text "line " ++ decimal number ++ text ": " ++ status.detail⟩

def readLines (state : ReaderState) (number : Nat) : List Bytes → Result ReaderState
  | [] => .ok state
  | raw :: rest => do
      deny (raw.length > kMaxTextLineBytes)
        ⟨.lineTooLong, text "line " ++ decimal number ++ text " exceeds " ++ decimal kMaxTextLineBytes ++ text " bytes"⟩
      if isSkipped (trimmed raw) = true then readLines state (number + 1) rest
      else do
        let next ← atLine number (handleLine state (trimmed raw))
        readLines next (number + 1) rest

def parseRequestSpec (input : Bytes) : Result RequestSpec := do
  deny (input.length > kMaxInputBytes) (failure .inputTooLarge "input exceeds the accepted size bound")
  deny (input = []) (failure .emptyInput "input is empty")
  let state ← readLines {} 1 (input.splitOn 10)
  deny (state.bannerSeen = false) (failure .missingRequiredField "input does not start with the cpath-request banner")
  .ok state.spec

def parseRequestText (input : Bytes) : Result PlanningRequest := do
  let spec ← parseRequestSpec input
  buildRequest spec

end Dsl

end PathPlanner

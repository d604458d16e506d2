import PathPlanner.Buffer

set_option autoImplicit false

namespace PathPlanner

open Checks Sequence

inductive CollectiveKind where
  | ring | tree | pairwise | allToAll | hierarchical
deriving DecidableEq, Repr

def CollectiveKind.raw : CollectiveKind → Nat
  | .ring => 0
  | .tree => 1
  | .pairwise => 2
  | .allToAll => 3
  | .hierarchical => 4

inductive TreeDirection where
  | forward | reverse | bidirectional
deriving DecidableEq, Repr

def TreeDirection.raw : TreeDirection → Nat
  | .forward => 0
  | .reverse => 1
  | .bidirectional => 2

inductive GroupPattern where
  | ring | tree | pairwise | allToAll
deriving DecidableEq, Repr

def GroupPattern.raw : GroupPattern → Nat
  | .ring => 0
  | .tree => 1
  | .pairwise => 2
  | .allToAll => 3

structure LogicalEdge where
  src : ParticipantId := unset
  dst : ParticipantId := unset
deriving DecidableEq, Repr

def LogicalEdge.less (lhs rhs : LogicalEdge) : Prop :=
  lhs.src < rhs.src ∨ (lhs.src = rhs.src ∧ lhs.dst < rhs.dst)

instance : DecidableRel LogicalEdge.less := fun lhs rhs =>
  inferInstanceAs (Decidable (lhs.src < rhs.src ∨ (lhs.src = rhs.src ∧ lhs.dst < rhs.dst)))

structure GroupSpec where
  id : GroupId := unset
  level : Nat := 0
  pattern : GroupPattern := .ring
  direction : TreeDirection := .forward
  root : ParticipantId := unset
  members : List ParticipantId := []
deriving DecidableEq, Repr

structure CollectiveSpec where
  id : CollectiveId := unset
  kind : CollectiveKind := .ring
  demandMbps : Nat := 0
  groups : List GroupSpec := []

structure Collective where
  id : CollectiveId := unset
  kind : CollectiveKind := .ring
  demandMbps : Nat := 0
  participants : List ParticipantId := []
  logicalEdges : List LogicalEdge := []
  logicalEdgeStage : List Nat := []
  groups : List GroupSpec := []
  stageCount : Nat := 1

namespace Collective

def rotateRingCanonical (members : List ParticipantId) : List ParticipantId :=
  match members.min? with
  | none => members
  | some smallest => members.rotate (members.idxOf smallest)

def pairUp : List ParticipantId → List LogicalEdge
  | first :: second :: rest => ⟨first, second⟩ :: ⟨second, first⟩ :: pairUp rest
  | _ => []

def treeEdges (group : GroupSpec) (member : ParticipantId) : List LogicalEdge :=
  if member = group.root then []
  else
    (if group.direction = .forward ∨ group.direction = .bidirectional then [⟨group.root, member⟩] else []) ++
      (if group.direction = .reverse ∨ group.direction = .bidirectional then [⟨member, group.root⟩] else [])

def groupStatus (code : ErrorCode) (lead : String) (group : GroupSpec) (trail : String) : Status :=
  ⟨code, text lead ++ group.id.value ++ text trail⟩

-- Named, so that every decision about a participant in a list rests on the one proof.
instance participantLawful : LawfulBEq ParticipantId := inferInstance

def appendGroupEdges (group : GroupSpec) : Result (List LogicalEdge) :=
  match group.pattern with
  | .ring => do
      deny (group.members.length < 2)
        (groupStatus .inconsistentMetadata "ring group " group " needs at least two members")
      .ok (List.zipWith LogicalEdge.mk group.members (group.members.rotate 1))
  | .tree => do
      deny (group.members.length < 2)
        (groupStatus .inconsistentMetadata "tree group " group " needs at least two members")
      deny (group.root.valid = false)
        (groupStatus .missingRequiredField "tree group " group " needs a root participant")
      deny (group.root ∉ group.members)
        (groupStatus .unknownReference "tree group " group " root is not a member of the group")
      .ok (group.members.flatMap (treeEdges group))
  | .pairwise => do
      deny (group.members.length % 2 ≠ 0)
        (groupStatus .inconsistentMetadata "pairwise group " group " needs an even number of members")
      .ok (pairUp group.members)
  | .allToAll => do
      deny (group.members.length < 2)
        (groupStatus .inconsistentMetadata "all-to-all group " group " needs at least two members")
      .ok (group.members.flatMap fun src =>
        (group.members.filter fun dst => src ≠ dst).map fun dst => ⟨src, dst⟩)

def canonicalMembers (group : GroupSpec) : Result GroupSpec := do
  deny (isValidIdentifier group.id.value = false) (failure .invalidCharacter "group id is not a valid identifier")
  deny (group.level ≥ kMaxHierarchyLevels)
    (failure .valueOutOfRange "group level exceeds the supported hierarchy depth")
  deny (group.members = []) (groupStatus .emptyCollective "group " group " declares no members")
  deny (group.members.length > kMaxGroupMembers)
    (groupStatus .tooManyItems "group " group " declares too many members")
  forEach (fun member => deny (isValidIdentifier member.value = false)
    (failure .invalidCharacter "participant id is not a valid identifier")) group.members
  deny (group.root.valid = true ∧ isValidIdentifier group.root.value = false)
    (failure .invalidCharacter "group root is not a valid identifier")
  if group.pattern = .ring then do
    deny (adjacentEqual (sortValues group.members) = true)
      (groupStatus .duplicateIdentifier "ring group " group " repeats a participant")
    .ok { group with members := rotateRingCanonical group.members }
  else do
    deny (adjacentEqual (sortValues group.members) = true)
      (groupStatus .duplicateIdentifier "group " group " repeats a participant")
    .ok { group with members := sortValues group.members }

def canonicalGroups : List GroupSpec → Result (List GroupSpec)
  | [] => .ok []
  | group :: rest => do
      let first ← canonicalMembers group
      let others ← canonicalGroups rest
      .ok (first :: others)

def groupNotAfter (lhs rhs : GroupSpec) : Prop :=
  lhs.level < rhs.level ∨ (lhs.level = rhs.level ∧ lhs.id ≤ rhs.id)

instance : DecidableRel groupNotAfter := fun lhs rhs =>
  inferInstanceAs (Decidable (lhs.level < rhs.level ∨ (lhs.level = rhs.level ∧ lhs.id ≤ rhs.id)))

def neighbourIds : List GroupSpec → Result Unit
  | previous :: current :: rest => do
      deny (current.id = previous.id) (groupStatus .duplicateIdentifier "duplicate group id " current "")
      neighbourIds (current :: rest)
  | _ => .ok ()

abbrev StagedEdge := LogicalEdge × Nat

def deriveEdges : List GroupSpec → Result (List StagedEdge)
  | [] => .ok []
  | group :: rest => do
      let first ← appendGroupEdges group
      let others ← deriveEdges rest
      .ok (first.map (fun edge => (edge, group.level)) ++ others)

def stagedNotAfter (lhs rhs : StagedEdge) : Prop :=
  lhs.1.less rhs.1 ∨ (lhs.1 = rhs.1 ∧ lhs.2 ≤ rhs.2)

instance : DecidableRel stagedNotAfter := fun lhs rhs =>
  inferInstanceAs (Decidable (lhs.1.less rhs.1 ∨ (lhs.1 = rhs.1 ∧ lhs.2 ≤ rhs.2)))

def selfLoops (derived : List StagedEdge) : Result Unit :=
  forEach (fun staged => deny (staged.1.src = staged.1.dst)
    ⟨.selfLoopLogicalEdge, text "logical edge from " ++ staged.1.src.value ++ text " to itself"⟩) derived

def validate (collective : Collective) : Result Unit := do
  deny (collective.logicalEdges = []) (failure .emptyCollective "collective has no logical edges")
  deny (collective.logicalEdges.length > kMaxLogicalEdges)
    (failure .tooManyItems "logical edge count exceeds limit")
  deny (collective.logicalEdgeStage.length ≠ collective.logicalEdges.length)
    (failure .internalError "stage index is not parallel to the logical edge list")
  deny (¬ collective.logicalEdges.IsChain LogicalEdge.less)
    (failure .inconsistentMetadata "logical edges are not in canonical order")
  forEach (fun edge => deny (edge.src = edge.dst) (failure .selfLoopLogicalEdge "logical edge is a self loop"))
    collective.logicalEdges
  deny (ascending collective.participants = false)
    (failure .inconsistentMetadata "participants are not in canonical order")
  deny (collective.stageCount = 0) (failure .inconsistentMetadata "collective reports zero stages")
  forEach (fun stage => deny (stage ≥ collective.stageCount)
    (failure .inconsistentMetadata "logical edge stage is out of range")) collective.logicalEdgeStage

def build (spec : CollectiveSpec) : Result Collective := do
  deny (isValidIdentifier spec.id.value = false)
    (failure .invalidCharacter "collective id is not a valid identifier")
  deny (spec.groups = []) (failure .emptyCollective "collective declares no groups")
  deny (spec.groups.length > kMaxGroups) (failure .tooManyItems "group count exceeds limit")
  deny (spec.demandMbps > kMaxCapacityMbps)
    (failure .valueOutOfRange "declared collective demand exceeds the model ceiling")
  let canonical ← canonicalGroups spec.groups
  let groups := canonical.insertionSort groupNotAfter
  neighbourIds groups
  let derived ← deriveEdges groups
  deny (derived = []) (failure .emptyCollective "collective derives no logical edges")
  deny (derived.length > kMaxLogicalEdges) (failure .tooManyItems "derived logical edge count exceeds limit")
  let ordered := derived.insertionSort stagedNotAfter
  selfLoops ordered
  -- Of equal edges the first is kept, which carries the smallest stage.
  let kept := uniqueBy Prod.fst ordered
  let logicalEdges := kept.map Prod.fst
  let participants := sortUnique (logicalEdges.flatMap fun edge => [edge.src, edge.dst])
  deny (participants.length > kMaxParticipants) (failure .tooManyItems "participant count exceeds limit")
  let result : Collective := {
    id := spec.id
    kind := spec.kind
    demandMbps := spec.demandMbps
    participants
    logicalEdges
    logicalEdgeStage := kept.map Prod.snd
    groups
    stageCount := (kept.map Prod.snd).foldl (fun count stage => max count (stage + 1)) 1 }
  validate result
  .ok result

def encodeCanonical (collective : Collective) : Bytes :=
  ByteWriter.tagged "collective.v1" ++
  ByteWriter.id collective.id ++
  ByteWriter.u8 collective.kind.raw ++
  ByteWriter.u64 collective.demandMbps ++
  ByteWriter.u32 collective.stageCount ++
  ByteWriter.counted ByteWriter.id collective.participants ++
  ByteWriter.counted (fun staged : StagedEdge =>
    ByteWriter.id staged.1.src ++ ByteWriter.id staged.1.dst ++ ByteWriter.u32 staged.2)
    (collective.logicalEdges.zip collective.logicalEdgeStage) ++
  ByteWriter.counted (fun group : GroupSpec =>
    ByteWriter.id group.id ++ ByteWriter.u32 group.level ++ ByteWriter.u8 group.pattern.raw ++
    ByteWriter.u8 group.direction.raw ++ ByteWriter.id group.root ++
    ByteWriter.counted ByteWriter.id group.members) collective.groups

end Collective

end PathPlanner

import PathPlanner.Status
import PathPlanner.Lib.Sequence

set_option autoImplicit false

namespace PathPlanner

def kMaxIdentifierBytes : Nat := 64
def kMaxTierNameBytes : Nat := 32
def kMaxPlacementLabelBytes : Nat := 32
def kMaxNodes : Nat := 65536
def kMaxEdges : Nat := 1048576
def kMaxFailureDomains : Nat := 65536
def kMaxParticipants : Nat := 65536
def kMaxLogicalEdges : Nat := 262144
def kMaxBindings : Nat := 65536
def kMaxGroups : Nat := 4096
def kMaxGroupMembers : Nat := 65536
def kMaxPolicySetEntries : Nat := 4096
def kMinPathsPerLogicalEdge : Nat := 1
def kMaxPathsPerLogicalEdge : Nat := 8
def kMaxHops : Nat := 256
def kMaxStages : Nat := 64
def kMaxHierarchyLevels : Nat := 8
def kMaxSearchExpansions : Nat := 2 ^ 24
def kCostCeiling : Nat := 2 ^ 62
def kMaxScoringWeightMilli : Nat := 1000000
def kMaxCapacityMbps : Nat := 2 ^ 40
def kMaxLatencyMicros : Nat := 2 ^ 40
def kCanonicalFormatVersion : Nat := 1

instance byteOrder : LinearOrder UInt8 where
  le_refl a := Nat.le_refl a.toNat
  le_trans a b c := Nat.le_trans (n := a.toNat) (m := b.toNat) (k := c.toNat)
  le_antisymm a b left right := UInt8.toNat_inj.mp (Nat.le_antisymm left right)
  le_total a b := Nat.le_total a.toNat b.toNat
  lt_iff_le_not_ge a b := Nat.lt_iff_le_and_not_ge (m := a.toNat) (n := b.toNat)
  toDecidableLE := fun a b => inferInstanceAs (Decidable (a ≤ b))
  toDecidableLT := fun a b => inferInstanceAs (Decidable (a < b))

-- The tag keeps identities of different kinds apart, as the template parameter does.
inductive IdTag where
  | node | edge | participant | logicalEdge | path | collective | group | failureDomain | tier
  | collectivePlan | topologyGeneration | failureDomainGeneration | capacityEvidenceGeneration
  | policyGeneration | collectivePlanGeneration | epoch | incarnation

structure StrongId (tag : IdTag) (Rep : Type) where
  value : Rep
deriving DecidableEq, Repr

class Sentinel (Rep : Type) where
  isSet : Rep → Bool

instance : Sentinel Bytes := ⟨fun bytes => !bytes.isEmpty⟩
instance : Sentinel UInt64 := ⟨fun n => n != 0⟩

namespace StrongId

variable {tag : IdTag} {Rep : Type}

def valid [Sentinel Rep] (id : StrongId tag Rep) : Bool := Sentinel.isSet id.value

theorem value_injective : Function.Injective (StrongId.value : StrongId tag Rep → Rep) := by
  rintro ⟨a⟩ ⟨b⟩ same
  exact congrArg StrongId.mk same

instance [LinearOrder Rep] : LinearOrder (StrongId tag Rep) :=
  LinearOrder.lift' StrongId.value value_injective

end StrongId

abbrev NodeId := StrongId .node Bytes
abbrev EdgeId := StrongId .edge Bytes
abbrev ParticipantId := StrongId .participant Bytes
abbrev LogicalEdgeId := StrongId .logicalEdge UInt64
abbrev PathId := StrongId .path UInt64
abbrev CollectiveId := StrongId .collective Bytes
abbrev GroupId := StrongId .group Bytes
abbrev FailureDomainId := StrongId .failureDomain Bytes
abbrev TierId := StrongId .tier Bytes
abbrev TopologyGeneration := StrongId .topologyGeneration UInt64
abbrev FailureDomainGeneration := StrongId .failureDomainGeneration UInt64
abbrev CapacityEvidenceGeneration := StrongId .capacityEvidenceGeneration UInt64
abbrev PolicyGeneration := StrongId .policyGeneration UInt64
abbrev CollectivePlanGeneration := StrongId .collectivePlanGeneration UInt64
abbrev Epoch := StrongId .epoch UInt64
abbrev Incarnation := StrongId .incarnation UInt64

-- The default-constructed identity of a string kind, never a valid one.
def unset {tag : IdTag} : StrongId tag Bytes := ⟨[]⟩

@[simp] theorem unset_invalid {tag : IdTag} : (unset : StrongId tag Bytes).valid = false := rfl

theorem valid_iff_nonempty {tag : IdTag} (id : StrongId tag Bytes) : id.valid = true ↔ id.value ≠ [] := by
  cases h : id.value <;> simp [StrongId.valid, Sentinel.isSet, h]

def alphanumeric (ch : UInt8) : Bool :=
  (97 ≤ ch && ch ≤ 122) || (65 ≤ ch && ch ≤ 90) || (48 ≤ ch && ch ≤ 57) || ch == 95

def identifierByte (ch : UInt8) : Bool :=
  alphanumeric ch || ch == 45 || ch == 46 || ch == 58

def validIdentifier (name : Bytes) (maxBytes : Nat) : Bool :=
  match name with
  | [] => false
  | first :: _ => decide (name.length ≤ maxBytes) && alphanumeric first && name.all identifierByte

def isValidIdentifier (name : Bytes) : Bool := validIdentifier name kMaxIdentifierBytes

def isValidTierName (name : Bytes) : Bool := validIdentifier name kMaxTierNameBytes

theorem valid_identifier_nonempty (name : Bytes) (maxBytes : Nat) (valid : validIdentifier name maxBytes = true) :
    name ≠ [] := by
  rintro rfl
  simp [validIdentifier] at valid

theorem valid_identifier_length (name : Bytes) (maxBytes : Nat) (valid : validIdentifier name maxBytes = true) :
    name.length ≤ maxBytes := by
  cases name with
  | nil => simp [validIdentifier] at valid
  | cons first rest =>
      simp only [validIdentifier, Bool.and_eq_true, decide_eq_true_eq] at valid
      exact valid.1.1

end PathPlanner

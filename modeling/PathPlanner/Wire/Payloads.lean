import PathPlanner.Store.Record
import PathPlanner.Planner.Outcome

set_option autoImplicit false

namespace PathPlanner

open Codec

def kWireProtocolVersion : Nat := 1
def kMaxFramePayloadBytes : Nat := 1024 * 1024
def kMaxDetailBytes : Nat := 512
def kMaxPendingRequestsPerSession : Nat := 64

def kCodeTable : List ErrorCode := [
  .ok, .invalidSyntax, .unknownKeyword, .duplicateIdentifier, .missingRequiredField, .valueOutOfRange, .tooManyItems,
  .stringTooLong, .lineTooLong, .inputTooLarge, .invalidCharacter, .unknownReference, .trailingGarbage,
  .unsupportedFormatVersion, .emptyInput, .malformedNumber, .inconsistentMetadata, .duplicateLogicalEdge,
  .selfLoopLogicalEdge, .emptyCollective, .participantNotInCollective, .unknownEndpointNode, .pathCountUnsupported,
  .duplicateBinding, .staleTopologyGeneration, .staleFailureDomainGeneration, .staleCapacityEvidenceGeneration,
  .stalePolicyGeneration, .stalePlanGeneration, .staleEpoch, .incarnationMismatch, .planInputMismatch,
  .revalidationRequired, .notAuthoritative, .planNotCurrent, .generationRegression, .unboundParticipant, .noPath,
  .hopLimitExceeded, .costLimitExceeded, .insufficientDisjointPaths, .domainDiversityUnsatisfiable,
  .failureDomainForbidden, .tierForbidden, .nodeForbidden, .capacityEvidenceInsufficient, .edgeHasNoVerifiedCapacity,
  .unsupportedDisjointness, .endpointBudgetExceeded, .searchBudgetExceeded, .endpointIneligible, .insufficientCapacity,
  .notFound, .corruptRecord, .truncatedRecord, .oversizedRecord, .unsupportedRecordVersion, .digestMismatch,
  .storeCapacityExceeded, .atomicReplaceFailed, .storeIoFailure, .storeNotOpen, .storeAlreadyOpen, .recordIncompatible,
  .pathEscape, .badMagic, .badProtocolVersion, .badHeaderChecksum, .badPayloadDigest, .frameTooLarge, .unexpectedFrameType,
  .sequenceMismatch, .sessionClosed, .sessionLimitExceeded, .sessionHandshakeRequired, .socketFailure, .connectionRefused,
  .sendFailure, .receiveFailure, .serviceStopping, .replayDetected, .messageTooLarge, .peerClosed, .noRouteToService,
  .internalError, .notImplemented, .overflow, .cancelled, .timeout]

def isDefinedErrorCode (raw : Nat) : Bool := kCodeTable.any fun code => code.raw = raw

theorem code_defined (code : ErrorCode) : isDefinedErrorCode code.raw = true := by
  cases code <;> decide

theorem code_raw_small (code : ErrorCode) : code.raw < 2 ^ 16 := by
  cases code <;> decide

namespace Wire

def kMaxLabelBytes : Nat := 128
def kMaxKind : Nat := 4
def kMaxFreshness : Nat := 6
def kMaxConflict : Nat := 17

structure HelloPayload where
  protocolVersion : UInt16 := 1
  clientLabel : Bytes := []
  observedEpoch : UInt64 := 0
deriving DecidableEq, Repr

structure HelloAckPayload where
  protocolVersion : UInt16 := 1
  sessionId : UInt64 := 0
  epoch : UInt64 := 0
  incarnation : UInt64 := 0
  serverLabel : Bytes := []
  maxFramePayload : UInt32 := UInt32.ofNat kMaxFramePayloadBytes
  maxPendingRequests : UInt64 := UInt64.ofNat kMaxPendingRequestsPerSession
deriving DecidableEq, Repr

structure ErrorPayload where
  code : UInt16 := 0
  requestId : UInt32 := 0
  message : Bytes := []
deriving DecidableEq, Repr

structure PlanRequestPayload where
  requestId : UInt32 := 0
  includeExplanation : Bool := false
  requestText : Bytes := []
deriving DecidableEq, Repr

structure DenialPayload where
  code : UInt16 := 0
  kind : UInt8 := 0
  conflict : UInt8 := 0
  logicalEdge : UInt64 := 0
  participant : Bytes := []
  message : Bytes := []
deriving DecidableEq, Repr

structure PlanResponsePayload where
  requestId : UInt32 := 0
  code : UInt16 := 0
  hasPlan : Bool := false
  planRecord : Bytes := []
  denials : List DenialPayload := []
  explanation : Bytes := []
  searchExpansions : UInt64 := 0
deriving DecidableEq, Repr

structure GetPlanRequestPayload where
  requestId : UInt32 := 0
  planId : Digest := Digest.zero
deriving DecidableEq

structure GetPlanResponsePayload where
  requestId : UInt32 := 0
  code : UInt16 := 0
  hasPlan : Bool := false
  planRecord : Bytes := []
  freshness : UInt8 := 0
deriving DecidableEq, Repr

structure ListPlansRequestPayload where
  requestId : UInt32 := 0
deriving DecidableEq, Repr

structure PlanSummaryPayload where
  planId : Digest := Digest.zero
  generation : UInt64 := 0
  collective : Bytes := []
  kind : UInt32 := 0
  storedSequence : UInt64 := 0
  recordBytes : UInt64 := 0
  freshness : UInt8 := 0
deriving DecidableEq

structure ListPlansResponsePayload where
  requestId : UInt32 := 0
  code : UInt16 := 0
  plans : List PlanSummaryPayload := []
deriving DecidableEq

structure RevalidateRequestPayload where
  requestId : UInt32 := 0
  planId : Digest := Digest.zero
  requestText : Bytes := []
deriving DecidableEq

structure RevalidateResponsePayload where
  requestId : UInt32 := 0
  code : UInt16 := 0
  stillValid : Bool := false
  freshness : UInt8 := 0
  currentInputDigest : Digest := Digest.zero
  detail : Bytes := []
deriving DecidableEq

structure ShutdownRequestPayload where
  requestId : UInt32 := 0
  expectedEpoch : UInt64 := 0
deriving DecidableEq, Repr

def unknownEnum (field : String) (value : Nat) : Status :=
  ⟨.invalidSyntax, text field ++ text " value " ++ decimal value ++ text " is not a known enumerator"⟩

def readErrorCode : ByteReader UInt16 :=
  checked ByteReader.word16 (fun value => isDefinedErrorCode value.toNat = false) fun value => unknownEnum "error code" value.toNat

def readFreshness : ByteReader UInt8 :=
  checked ByteReader.word8 (fun value => value.toNat > kMaxFreshness) fun value => unknownEnum "freshness" value.toNat

def readConflict : ByteReader UInt8 :=
  checked ByteReader.word8 (fun value => value.toNat > kMaxConflict) fun value => unknownEnum "conflict kind" value.toNat

def readKind : ByteReader UInt8 :=
  checked ByteReader.word8 (fun value => value.toNat > kMaxKind) fun _ =>
    failure .invalidSyntax "denial kind is outside the defined range"

-- Byte blobs are laid out as strings are, with a message of their own.
def readBytes (maxBytes : Nat) : ByteReader Bytes := do
  let length ← checked ByteReader.u32 (· > maxBytes) fun length =>
    ⟨.stringTooLong, ByteReader.tooLong "encoded byte string length " length maxBytes⟩
  ByteReader.raw length

def encodeHello (value : HelloPayload) : Bytes :=
  ByteWriter.u16 value.protocolVersion.toNat ++
  ByteWriter.string value.clientLabel ++
  ByteWriter.u64 value.observedEpoch.toNat

def readHello : ByteReader HelloPayload := do
  let protocolVersion ← ByteReader.word16
  let clientLabel ← ByteReader.string kMaxLabelBytes
  let observedEpoch ← ByteReader.word64
  pure { protocolVersion, clientLabel, observedEpoch }

def decodeHello : Bytes → Result HelloPayload := ByteReader.complete readHello

def encodeHelloAck (value : HelloAckPayload) : Bytes :=
  ByteWriter.u16 value.protocolVersion.toNat ++
  ByteWriter.u64 value.sessionId.toNat ++
  ByteWriter.u64 value.epoch.toNat ++
  ByteWriter.u64 value.incarnation.toNat ++
  ByteWriter.string value.serverLabel ++
  ByteWriter.u32 value.maxFramePayload.toNat ++
  ByteWriter.u64 value.maxPendingRequests.toNat

def readHelloAck : ByteReader HelloAckPayload := do
  let protocolVersion ← ByteReader.word16
  let sessionId ← ByteReader.word64
  let epoch ← ByteReader.word64
  let incarnation ← ByteReader.word64
  let serverLabel ← ByteReader.string kMaxLabelBytes
  let maxFramePayload ← ByteReader.word32
  let maxPendingRequests ← ByteReader.word64
  pure { protocolVersion, sessionId, epoch, incarnation, serverLabel, maxFramePayload, maxPendingRequests }

def decodeHelloAck : Bytes → Result HelloAckPayload := ByteReader.complete readHelloAck

def encodeError (value : ErrorPayload) : Bytes :=
  ByteWriter.u16 value.code.toNat ++ ByteWriter.u32 value.requestId.toNat ++ ByteWriter.string value.message

def readError : ByteReader ErrorPayload := do
  let code ← readErrorCode
  let requestId ← ByteReader.word32
  let message ← ByteReader.string kMaxDetailBytes
  pure { code, requestId, message }

def decodeError : Bytes → Result ErrorPayload := ByteReader.complete readError

def encodePlanRequest (value : PlanRequestPayload) : Bytes :=
  ByteWriter.u32 value.requestId.toNat ++ ByteWriter.boolean value.includeExplanation ++ ByteWriter.string value.requestText

def readPlanRequest : ByteReader PlanRequestPayload := do
  let requestId ← ByteReader.word32
  let includeExplanation ← ByteReader.boolean
  let requestText ← ByteReader.string kMaxFramePayloadBytes
  pure { requestId, includeExplanation, requestText }

def decodePlanRequest : Bytes → Result PlanRequestPayload := ByteReader.complete readPlanRequest

def encodeDenial (value : DenialPayload) : Bytes :=
  ByteWriter.u16 value.code.toNat ++
  ByteWriter.u8 value.kind.toNat ++
  ByteWriter.u8 value.conflict.toNat ++
  ByteWriter.u64 value.logicalEdge.toNat ++
  ByteWriter.string value.participant ++
  ByteWriter.string value.message

def decodeDenial : ByteReader DenialPayload := do
  let code ← readErrorCode
  let kind ← readKind
  let conflict ← readConflict
  let logicalEdge ← ByteReader.word64
  let participant ← ByteReader.string kMaxLabelBytes
  let message ← ByteReader.string kMaxDetailBytes
  pure { code, kind, conflict, logicalEdge, participant, message }

def encodePlanResponse (value : PlanResponsePayload) : Bytes :=
  ByteWriter.u32 value.requestId.toNat ++
  ByteWriter.u16 value.code.toNat ++
  ByteWriter.boolean value.hasPlan ++
  ByteWriter.string value.planRecord ++
  ByteWriter.counted encodeDenial value.denials ++
  ByteWriter.string value.explanation ++
  ByteWriter.u64 value.searchExpansions.toNat

def readPlanResponse : ByteReader PlanResponsePayload := do
  let requestId ← ByteReader.word32
  let code ← readErrorCode
  let hasPlan ← ByteReader.boolean
  let planRecord ← readBytes kMaxPlanRecordBytes
  let denials ← ByteReader.counted kMaxDenials decodeDenial
  let explanation ← ByteReader.string kMaxFramePayloadBytes
  let searchExpansions ← ByteReader.word64
  pure { requestId, code, hasPlan, planRecord, denials, explanation, searchExpansions }

def decodePlanResponse : Bytes → Result PlanResponsePayload := ByteReader.complete readPlanResponse

def encodeGetPlanRequest (value : GetPlanRequestPayload) : Bytes :=
  ByteWriter.u32 value.requestId.toNat ++ ByteWriter.digest value.planId

def readGetPlanRequest : ByteReader GetPlanRequestPayload := do
  let requestId ← ByteReader.word32
  let planId ← ByteReader.digest
  pure { requestId, planId }

def decodeGetPlanRequest : Bytes → Result GetPlanRequestPayload := ByteReader.complete readGetPlanRequest

def encodeGetPlanResponse (value : GetPlanResponsePayload) : Bytes :=
  ByteWriter.u32 value.requestId.toNat ++
  ByteWriter.u16 value.code.toNat ++
  ByteWriter.boolean value.hasPlan ++
  ByteWriter.string value.planRecord ++
  ByteWriter.u8 value.freshness.toNat

def readGetPlanResponse : ByteReader GetPlanResponsePayload := do
  let requestId ← ByteReader.word32
  let code ← readErrorCode
  let hasPlan ← ByteReader.boolean
  let planRecord ← readBytes kMaxPlanRecordBytes
  let freshness ← readFreshness
  pure { requestId, code, hasPlan, planRecord, freshness }

def decodeGetPlanResponse : Bytes → Result GetPlanResponsePayload := ByteReader.complete readGetPlanResponse

def encodeListPlansRequest (value : ListPlansRequestPayload) : Bytes := ByteWriter.u32 value.requestId.toNat

def readListPlansRequest : ByteReader ListPlansRequestPayload := do
  let requestId ← ByteReader.word32
  pure { requestId }

def decodeListPlansRequest : Bytes → Result ListPlansRequestPayload := ByteReader.complete readListPlansRequest

def encodePlanSummary (value : PlanSummaryPayload) : Bytes :=
  ByteWriter.digest value.planId ++
  ByteWriter.u64 value.generation.toNat ++
  ByteWriter.string value.collective ++
  ByteWriter.u32 value.kind.toNat ++
  ByteWriter.u64 value.storedSequence.toNat ++
  ByteWriter.u64 value.recordBytes.toNat ++
  ByteWriter.u8 value.freshness.toNat

def decodePlanSummary : ByteReader PlanSummaryPayload := do
  let planId ← ByteReader.digest
  let generation ← ByteReader.word64
  let collective ← ByteReader.string kMaxLabelBytes
  let kind ← ByteReader.word32
  let storedSequence ← ByteReader.word64
  let recordBytes ← ByteReader.word64
  let freshness ← readFreshness
  pure { planId, generation, collective, kind, storedSequence, recordBytes, freshness }

def encodeListPlansResponse (value : ListPlansResponsePayload) : Bytes :=
  ByteWriter.u32 value.requestId.toNat ++
  ByteWriter.u16 value.code.toNat ++
  ByteWriter.counted encodePlanSummary value.plans

def readListPlansResponse : ByteReader ListPlansResponsePayload := do
  let requestId ← ByteReader.word32
  let code ← readErrorCode
  let plans ← ByteReader.counted kMaxStoreRecords decodePlanSummary
  pure { requestId, code, plans }

def decodeListPlansResponse : Bytes → Result ListPlansResponsePayload := ByteReader.complete readListPlansResponse

def encodeRevalidateRequest (value : RevalidateRequestPayload) : Bytes :=
  ByteWriter.u32 value.requestId.toNat ++ ByteWriter.digest value.planId ++ ByteWriter.string value.requestText

def readRevalidateRequest : ByteReader RevalidateRequestPayload := do
  let requestId ← ByteReader.word32
  let planId ← ByteReader.digest
  let requestText ← ByteReader.string kMaxFramePayloadBytes
  pure { requestId, planId, requestText }

def decodeRevalidateRequest : Bytes → Result RevalidateRequestPayload := ByteReader.complete readRevalidateRequest

def encodeRevalidateResponse (value : RevalidateResponsePayload) : Bytes :=
  ByteWriter.u32 value.requestId.toNat ++
  ByteWriter.u16 value.code.toNat ++
  ByteWriter.boolean value.stillValid ++
  ByteWriter.u8 value.freshness.toNat ++
  ByteWriter.digest value.currentInputDigest ++
  ByteWriter.string value.detail

def readRevalidateResponse : ByteReader RevalidateResponsePayload := do
  let requestId ← ByteReader.word32
  let code ← readErrorCode
  let stillValid ← ByteReader.boolean
  let freshness ← readFreshness
  let currentInputDigest ← ByteReader.digest
  let detail ← ByteReader.string kMaxDetailBytes
  pure { requestId, code, stillValid, freshness, currentInputDigest, detail }

def decodeRevalidateResponse : Bytes → Result RevalidateResponsePayload := ByteReader.complete readRevalidateResponse

def encodeShutdownRequest (value : ShutdownRequestPayload) : Bytes :=
  ByteWriter.u32 value.requestId.toNat ++ ByteWriter.u64 value.expectedEpoch.toNat

def readShutdownRequest : ByteReader ShutdownRequestPayload := do
  let requestId ← ByteReader.word32
  let expectedEpoch ← ByteReader.word64
  pure { requestId, expectedEpoch }

def decodeShutdownRequest : Bytes → Result ShutdownRequestPayload := ByteReader.complete readShutdownRequest

end Wire

end PathPlanner

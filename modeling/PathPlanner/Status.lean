import PathPlanner.Lib.Checks

set_option autoImplicit false

namespace PathPlanner

-- A std::string is the list of its bytes; every literal of the source is ASCII.
abbrev Bytes := List UInt8

def text (literal : String) : Bytes := literal.toList.map fun c => UInt8.ofNat c.toNat

def decimal (n : Nat) : Bytes := (Nat.toDigits 10 n).map fun c => UInt8.ofNat c.toNat

inductive ErrorCode where
  | ok | invalidSyntax | unknownKeyword | duplicateIdentifier | missingRequiredField | valueOutOfRange
  | tooManyItems | stringTooLong | lineTooLong | inputTooLarge | invalidCharacter | unknownReference
  | trailingGarbage | unsupportedFormatVersion | emptyInput | malformedNumber | inconsistentMetadata
  | duplicateLogicalEdge | selfLoopLogicalEdge | emptyCollective | participantNotInCollective
  | unknownEndpointNode | pathCountUnsupported | duplicateBinding | staleTopologyGeneration
  | staleFailureDomainGeneration | staleCapacityEvidenceGeneration | stalePolicyGeneration
  | stalePlanGeneration | staleEpoch | incarnationMismatch | planInputMismatch | revalidationRequired
  | notAuthoritative | planNotCurrent | generationRegression | unboundParticipant | noPath | hopLimitExceeded
  | costLimitExceeded | insufficientDisjointPaths | domainDiversityUnsatisfiable | failureDomainForbidden
  | tierForbidden | nodeForbidden | capacityEvidenceInsufficient | edgeHasNoVerifiedCapacity
  | unsupportedDisjointness | endpointBudgetExceeded | searchBudgetExceeded | endpointIneligible
  | insufficientCapacity | notFound | corruptRecord | truncatedRecord | oversizedRecord
  | unsupportedRecordVersion | digestMismatch | storeCapacityExceeded | atomicReplaceFailed | storeIoFailure
  | storeNotOpen | storeAlreadyOpen | recordIncompatible | pathEscape | badMagic | badProtocolVersion
  | badHeaderChecksum | badPayloadDigest | frameTooLarge | unexpectedFrameType | sequenceMismatch
  | sessionClosed | sessionLimitExceeded | sessionHandshakeRequired | socketFailure | connectionRefused
  | sendFailure | receiveFailure | serviceStopping | replayDetected | messageTooLarge | peerClosed
  | noRouteToService | internalError | notImplemented | overflow | cancelled | timeout
deriving DecidableEq, Repr

def ErrorCode.raw : ErrorCode → Nat
  | .ok => 0
  | .invalidSyntax => 1
  | .unknownKeyword => 2
  | .duplicateIdentifier => 3
  | .missingRequiredField => 4
  | .valueOutOfRange => 5
  | .tooManyItems => 6
  | .stringTooLong => 7
  | .lineTooLong => 8
  | .inputTooLarge => 9
  | .invalidCharacter => 10
  | .unknownReference => 11
  | .trailingGarbage => 12
  | .unsupportedFormatVersion => 13
  | .emptyInput => 14
  | .malformedNumber => 15
  | .inconsistentMetadata => 16
  | .duplicateLogicalEdge => 17
  | .selfLoopLogicalEdge => 18
  | .emptyCollective => 19
  | .participantNotInCollective => 20
  | .unknownEndpointNode => 21
  | .pathCountUnsupported => 22
  | .duplicateBinding => 23
  | .staleTopologyGeneration => 100
  | .staleFailureDomainGeneration => 101
  | .staleCapacityEvidenceGeneration => 102
  | .stalePolicyGeneration => 103
  | .stalePlanGeneration => 104
  | .staleEpoch => 105
  | .incarnationMismatch => 106
  | .planInputMismatch => 107
  | .revalidationRequired => 108
  | .notAuthoritative => 109
  | .planNotCurrent => 110
  | .generationRegression => 111
  | .unboundParticipant => 200
  | .noPath => 202
  | .hopLimitExceeded => 203
  | .costLimitExceeded => 204
  | .insufficientDisjointPaths => 205
  | .domainDiversityUnsatisfiable => 206
  | .failureDomainForbidden => 207
  | .tierForbidden => 208
  | .nodeForbidden => 209
  | .capacityEvidenceInsufficient => 210
  | .edgeHasNoVerifiedCapacity => 211
  | .unsupportedDisjointness => 215
  | .endpointBudgetExceeded => 217
  | .searchBudgetExceeded => 218
  | .endpointIneligible => 219
  | .insufficientCapacity => 221
  | .notFound => 300
  | .corruptRecord => 301
  | .truncatedRecord => 302
  | .oversizedRecord => 303
  | .unsupportedRecordVersion => 304
  | .digestMismatch => 305
  | .storeCapacityExceeded => 306
  | .atomicReplaceFailed => 307
  | .storeIoFailure => 308
  | .storeNotOpen => 309
  | .storeAlreadyOpen => 310
  | .recordIncompatible => 311
  | .pathEscape => 312
  | .badMagic => 400
  | .badProtocolVersion => 401
  | .badHeaderChecksum => 402
  | .badPayloadDigest => 403
  | .frameTooLarge => 404
  | .unexpectedFrameType => 405
  | .sequenceMismatch => 406
  | .sessionClosed => 407
  | .sessionLimitExceeded => 408
  | .sessionHandshakeRequired => 409
  | .socketFailure => 410
  | .connectionRefused => 411
  | .sendFailure => 412
  | .receiveFailure => 413
  | .serviceStopping => 414
  | .replayDetected => 415
  | .messageTooLarge => 416
  | .peerClosed => 417
  | .noRouteToService => 418
  | .internalError => 900
  | .notImplemented => 901
  | .overflow => 902
  | .cancelled => 903
  | .timeout => 904

def ErrorCode.symbol : ErrorCode → String
  | .ok => "ok"
  | .invalidSyntax => "invalid_syntax"
  | .unknownKeyword => "unknown_keyword"
  | .duplicateIdentifier => "duplicate_identifier"
  | .missingRequiredField => "missing_required_field"
  | .valueOutOfRange => "value_out_of_range"
  | .tooManyItems => "too_many_items"
  | .stringTooLong => "string_too_long"
  | .lineTooLong => "line_too_long"
  | .inputTooLarge => "input_too_large"
  | .invalidCharacter => "invalid_character"
  | .unknownReference => "unknown_reference"
  | .trailingGarbage => "trailing_garbage"
  | .unsupportedFormatVersion => "unsupported_format_version"
  | .emptyInput => "empty_input"
  | .malformedNumber => "malformed_number"
  | .inconsistentMetadata => "inconsistent_metadata"
  | .duplicateLogicalEdge => "duplicate_logical_edge"
  | .selfLoopLogicalEdge => "self_loop_logical_edge"
  | .emptyCollective => "empty_collective"
  | .participantNotInCollective => "participant_not_in_collective"
  | .unknownEndpointNode => "unknown_endpoint_node"
  | .pathCountUnsupported => "path_count_unsupported"
  | .duplicateBinding => "duplicate_binding"
  | .staleTopologyGeneration => "stale_topology_generation"
  | .staleFailureDomainGeneration => "stale_failure_domain_generation"
  | .staleCapacityEvidenceGeneration => "stale_capacity_evidence_generation"
  | .stalePolicyGeneration => "stale_policy_generation"
  | .stalePlanGeneration => "stale_plan_generation"
  | .staleEpoch => "stale_epoch"
  | .incarnationMismatch => "incarnation_mismatch"
  | .planInputMismatch => "plan_input_mismatch"
  | .revalidationRequired => "revalidation_required"
  | .notAuthoritative => "not_authoritative"
  | .planNotCurrent => "plan_not_current"
  | .generationRegression => "generation_regression"
  | .unboundParticipant => "unbound_participant"
  | .noPath => "no_path"
  | .hopLimitExceeded => "hop_limit_exceeded"
  | .costLimitExceeded => "cost_limit_exceeded"
  | .insufficientDisjointPaths => "insufficient_disjoint_paths"
  | .domainDiversityUnsatisfiable => "domain_diversity_unsatisfiable"
  | .failureDomainForbidden => "failure_domain_forbidden"
  | .tierForbidden => "tier_forbidden"
  | .nodeForbidden => "node_forbidden"
  | .capacityEvidenceInsufficient => "capacity_evidence_insufficient"
  | .edgeHasNoVerifiedCapacity => "edge_has_no_verified_capacity"
  | .unsupportedDisjointness => "unsupported_disjointness"
  | .endpointBudgetExceeded => "endpoint_budget_exceeded"
  | .searchBudgetExceeded => "search_budget_exceeded"
  | .endpointIneligible => "endpoint_ineligible"
  | .insufficientCapacity => "insufficient_capacity"
  | .notFound => "not_found"
  | .corruptRecord => "corrupt_record"
  | .truncatedRecord => "truncated_record"
  | .oversizedRecord => "oversized_record"
  | .unsupportedRecordVersion => "unsupported_record_version"
  | .digestMismatch => "digest_mismatch"
  | .storeCapacityExceeded => "store_capacity_exceeded"
  | .atomicReplaceFailed => "atomic_replace_failed"
  | .storeIoFailure => "store_io_failure"
  | .storeNotOpen => "store_not_open"
  | .storeAlreadyOpen => "store_already_open"
  | .recordIncompatible => "record_incompatible"
  | .pathEscape => "path_escape"
  | .badMagic => "bad_magic"
  | .badProtocolVersion => "bad_protocol_version"
  | .badHeaderChecksum => "bad_header_checksum"
  | .badPayloadDigest => "bad_payload_digest"
  | .frameTooLarge => "frame_too_large"
  | .unexpectedFrameType => "unexpected_frame_type"
  | .sequenceMismatch => "sequence_mismatch"
  | .sessionClosed => "session_closed"
  | .sessionLimitExceeded => "session_limit_exceeded"
  | .sessionHandshakeRequired => "session_handshake_required"
  | .socketFailure => "socket_failure"
  | .connectionRefused => "connection_refused"
  | .sendFailure => "send_failure"
  | .receiveFailure => "receive_failure"
  | .serviceStopping => "service_stopping"
  | .replayDetected => "replay_detected"
  | .messageTooLarge => "message_too_large"
  | .peerClosed => "peer_closed"
  | .noRouteToService => "no_route_to_service"
  | .internalError => "internal_error"
  | .notImplemented => "not_implemented"
  | .overflow => "overflow"
  | .cancelled => "cancelled"
  | .timeout => "timeout"

inductive ErrorCategory where
  | none | input | authority | planning | persistence | protocol | internal
deriving DecidableEq, Repr

def categoryOf (code : ErrorCode) : ErrorCategory :=
  if code.raw = 0 then .none
  else if code.raw < 100 then .input
  else if code.raw < 200 then .authority
  else if code.raw < 300 then .planning
  else if code.raw < 400 then .persistence
  else if code.raw < 500 then .protocol
  else .internal

-- The failing Status; success is the ok side of Except.
structure Status where
  code : ErrorCode
  detail : Bytes
deriving DecidableEq, Repr

-- An empty detail leaves the symbol alone.
def Status.toText (status : Status) : Bytes :=
  text status.code.symbol ++ if status.detail.isEmpty then [] else text ": " ++ status.detail

abbrev Result (α : Type) := Except Status α

def failure (code : ErrorCode) (detail : String) : Status := ⟨code, text detail⟩

end PathPlanner

import PathPlanner.PlanCodec

set_option autoImplicit false

namespace PathPlanner

open Checks Codec

def kStoreFormatVersion : Nat := 1

def kMaxStoreRecords : Nat := 4096

def kRecordMagic : Bytes := text "CPPR"

def kMetaMagic : Bytes := text "CPPS"

def kMetaBytes : Nat := 34

def kRecordDigests : Nat := 64

def kRecordFileHeaderBytes : Nat := 14

structure StoredPlanSummary where
  id : CollectivePlanId := ⟨Digest.zero⟩
  generation : CollectivePlanGeneration := ⟨0⟩
  bindings : GenerationBindings := {}
  collective : CollectiveId := unset
  kind : CollectiveKind := .ring
  storedSequence : UInt64 := 0
  recordBytes : UInt64 := 0
  writtenIncarnation : Incarnation := ⟨0⟩
  writtenUnixMicros : UInt64 := 0
deriving DecidableEq

namespace StoreRecord

-- The little-endian word at an offset, as the decoders shift it together.
def wordAt (bytes : Bytes) (offset : Nat) : Nat :=
  let byte (k : Nat) : Nat := (bytes.getD (offset + k) 0).toNat
  byte 0 + byte 1 * 2 ^ 8 + byte 2 * 2 ^ 16 + byte 3 * 2 ^ 24

-- The words both readings of the header start with.
structure RecordLayout where
  version : UInt16
  headerLength : UInt32
  payloadLength : UInt32
deriving DecidableEq

structure RecordMetadata where
  incarnation : Incarnation
  sequence : UInt64
  unixMicros : UInt64
  generation : CollectivePlanGeneration
  bindings : GenerationBindings
  collective : CollectiveId
  kind : UInt8
  inputDigest : Digest
deriving DecidableEq

def encodeLayout (layout : RecordLayout) : Bytes :=
  kRecordMagic ++
  ByteWriter.u16 layout.version.toNat ++
  ByteWriter.u32 layout.headerLength.toNat ++
  ByteWriter.u32 layout.payloadLength.toNat

def encodeMetadata (metadata : RecordMetadata) : Bytes :=
  ByteWriter.generation metadata.incarnation ++
  ByteWriter.u64 metadata.sequence.toNat ++
  ByteWriter.u64 metadata.unixMicros.toNat ++
  ByteWriter.generation metadata.generation ++
  Plan.encodeBindings metadata.bindings ++
  ByteWriter.id metadata.collective ++
  ByteWriter.u8 metadata.kind.toNat ++
  ByteWriter.digest metadata.inputDigest

def metadataOf (plan : Plan) (incarnation : Incarnation) (sequence unixMicros : UInt64) : RecordMetadata where
  incarnation := incarnation
  sequence := sequence
  unixMicros := unixMicros
  generation := plan.generation
  bindings := plan.bindings
  collective := plan.collective
  kind := UInt8.ofNat plan.kind.raw
  inputDigest := plan.inputDigest

-- The length field is back-patched with the size the header has with a zero in its place.
def layoutOf (plan : Plan) (metadata : RecordMetadata) : RecordLayout :=
  let draft : RecordLayout := {
    version := UInt16.ofNat kStoreFormatVersion
    headerLength := 0
    payloadLength := UInt32.ofNat ((Plan.encode plan).length + kRecordDigests) }
  { draft with headerLength := UInt32.ofNat (encodeLayout draft ++ encodeMetadata metadata).length }

def encodeHeader (plan : Plan) (incarnation : Incarnation) (sequence unixMicros : UInt64) : Bytes :=
  let metadata := metadataOf plan incarnation sequence unixMicros
  encodeLayout (layoutOf plan metadata) ++ encodeMetadata metadata

def encodePlanRecord (plan : Plan) (requestDigest : Digest) (incarnation : Incarnation) (sequence unixMicros : UInt64) : Bytes :=
  let header := encodeHeader plan incarnation sequence unixMicros
  header ++ (ByteWriter.u32 (crc32 header).toNat ++ (Plan.encode plan ++
    (ByteWriter.digest (Sha256.hash (Plan.encode plan)) ++ ByteWriter.digest requestDigest)))

-- The magic is compared once, on the file's first bytes; the readers only step over it.
def readLayout : ByteReader RecordLayout := do
  let _ ← ByteReader.raw kRecordMagic.length
  let version ← ByteReader.word16
  let headerLength ← ByteReader.word32
  let payloadLength ← ByteReader.word32
  pure { version, headerLength, payloadLength }

def readMetadata : ByteReader RecordMetadata := do
  let incarnation ← ByteReader.generation _
  let sequence ← ByteReader.word64
  let unixMicros ← ByteReader.word64
  let generation ← ByteReader.generation _
  let bindings ← Plan.decodeBindings
  let collective ← ByteReader.id _
  let kind ← ByteReader.word8
  let inputDigest ← ByteReader.digest
  pure { incarnation, sequence, unixMicros, generation, bindings, collective, kind, inputDigest }

def readHeader : ByteReader (RecordLayout × RecordMetadata) := do
  let layout ← readLayout
  let metadata ← readMetadata
  pure (layout, metadata)

def checkLayout (bytes : Bytes) (layout : RecordLayout) : Result Unit := do
  let headerLength := layout.headerLength.toNat
  let payloadLength := layout.payloadLength.toNat
  deny (layout.version.toNat ≠ kStoreFormatVersion) ⟨.unsupportedRecordVersion,
    text "record format version " ++ decimal layout.version.toNat ++ text " is not supported"⟩
  deny (payloadLength > kMaxPlanRecordBytes ∨ headerLength > kMaxPlanRecordBytes)
    (failure .oversizedRecord "record declares an oversize section")
  deny (payloadLength < kRecordDigests) (failure .truncatedRecord "record payload cannot hold its digests")
  deny (bytes.length < headerLength + 4 + payloadLength) (failure .truncatedRecord "record is truncated")
  deny (bytes.length > headerLength + 4 + payloadLength) ⟨.trailingGarbage,
    decimal (bytes.length - (headerLength + 4 + payloadLength)) ++ text " trailing bytes after the record"⟩
  deny ((crc32 (bytes.take headerLength)).toNat ≠ wordAt bytes headerLength)
    (failure .corruptRecord "record header failed its integrity check")

def checkHeader (declared layout : RecordLayout) (metadata : RecordMetadata) : Result Unit := do
  deny (declared.headerLength ≠ layout.headerLength ∨ declared.payloadLength ≠ layout.payloadLength)
    (failure .corruptRecord "record header disagrees with its own layout")
  deny (declared.version ≠ layout.version) (failure .corruptRecord "record header version is inconsistent")
  deny (metadata.kind.toNat > CollectiveKind.hierarchical.raw)
    (failure .corruptRecord "record declares an unknown collective kind")

def decodePayload (payload : Bytes) (planBytes : Nat) : Result Plan := do
  let encoded := payload.take planBytes
  deny (Sha256.hash encoded ≠ Digest.ofBytes (payload.drop planBytes))
    (failure .digestMismatch "record payload failed its digest check")
  let plan ← Plan.decode encoded
  deny (plan.inputDigest ≠ Digest.ofBytes (payload.drop (planBytes + kDigestBytes)))
    (failure .digestMismatch "record request digest does not match the plan it carries")
  .ok plan

def summaryOf (plan : Plan) (incarnation : Incarnation) (sequence unixMicros : UInt64) (recordBytes : Nat) : StoredPlanSummary where
  id := plan.id
  generation := plan.generation
  bindings := plan.bindings
  collective := plan.collective
  kind := plan.kind
  storedSequence := sequence
  recordBytes := UInt64.ofNat recordBytes
  writtenIncarnation := incarnation
  writtenUnixMicros := unixMicros

-- The summary takes its identity from the plan and its provenance from the header.
def decodePlanRecord (bytes : Bytes) : Result (Plan × StoredPlanSummary) := do
  deny (bytes.length > kMaxPlanRecordBytes + 4096) (failure .oversizedRecord "record exceeds the accepted bound")
  deny (bytes.length < kRecordFileHeaderBytes) (failure .truncatedRecord "record is shorter than its file header")
  deny (bytes.take kRecordMagic.length ≠ kRecordMagic) (failure .corruptRecord "record magic is wrong")
  let (layout, _) ← readLayout bytes
  checkLayout bytes layout
  let (declared, metadata) ← ByteReader.complete readHeader (bytes.take layout.headerLength.toNat)
  checkHeader declared layout metadata
  let plan ← decodePayload (bytes.drop (layout.headerLength.toNat + 4)) (layout.payloadLength.toNat - kRecordDigests)
  .ok (plan, summaryOf plan metadata.incarnation metadata.sequence metadata.unixMicros bytes.length)

end StoreRecord

end PathPlanner

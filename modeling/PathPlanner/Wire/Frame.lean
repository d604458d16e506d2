import PathPlanner.Wire.Payloads

set_option autoImplicit false

namespace PathPlanner

open Checks Codec

def kFrameMagic : UInt32 := 0x31505043
def kFrameHeaderBytes : Nat := 56
def kFrameTrailerBytes : Nat := 32
def kHeaderCrcCoverageBytes : Nat := 36

inductive FrameType where
  | hello | helloAck | planRequest | planResponse | getPlanRequest | getPlanResponse | storePutRequest | storePutResponse
  | listPlansRequest | listPlansResponse | revalidateRequest | revalidateResponse | ping | pong | error | shutdownRequest
  | shutdownAck | bye
deriving DecidableEq, Repr

def FrameType.raw : FrameType → Nat
  | .hello => 1
  | .helloAck => 2
  | .planRequest => 3
  | .planResponse => 4
  | .getPlanRequest => 5
  | .getPlanResponse => 6
  | .storePutRequest => 7
  | .storePutResponse => 8
  | .listPlansRequest => 9
  | .listPlansResponse => 10
  | .revalidateRequest => 11
  | .revalidateResponse => 12
  | .ping => 13
  | .pong => 14
  | .error => 15
  | .shutdownRequest => 16
  | .shutdownAck => 17
  | .bye => 18

-- Only the known frame types have a value.
def FrameType.ofRaw? : Nat → Option FrameType
  | 1 => some .hello
  | 2 => some .helloAck
  | 3 => some .planRequest
  | 4 => some .planResponse
  | 5 => some .getPlanRequest
  | 6 => some .getPlanResponse
  | 7 => some .storePutRequest
  | 8 => some .storePutResponse
  | 9 => some .listPlansRequest
  | 10 => some .listPlansResponse
  | 11 => some .revalidateRequest
  | 12 => some .revalidateResponse
  | 13 => some .ping
  | 14 => some .pong
  | 15 => some .error
  | 16 => some .shutdownRequest
  | 17 => some .shutdownAck
  | 18 => some .bye
  | _ => none

structure FrameHeader where
  magic : UInt32 := kFrameMagic
  version : UInt16 := UInt16.ofNat kWireProtocolVersion
  type : FrameType := .ping
  flags : UInt32 := 0
  sequence : UInt64 := 0
  epoch : UInt64 := 0
  payloadLength : UInt32 := 0
  headerCrc : UInt32 := 0
  sessionId : UInt64 := 0
  requestId : UInt32 := 0
  reserved : UInt32 := 0
deriving DecidableEq, Repr

structure Frame where
  header : FrameHeader := {}
  payload : Bytes := []
deriving DecidableEq, Repr

namespace Wire

-- The header words as they stand on the wire, before any of them is judged.
structure RawHeader where
  magic : UInt32
  version : UInt16
  type : UInt16
  flags : UInt32
  sequence : UInt64
  epoch : UInt64
  payloadLength : UInt32
  futureWord : UInt32
  headerCrc : UInt32
  sessionId : UInt64
  requestId : UInt32
  reserved : UInt32

-- The checksum covers the words up to the one reserved for a future revision.
def coveredWords (header : RawHeader) : Bytes :=
  ByteWriter.u32 header.magic.toNat ++
  ByteWriter.u16 header.version.toNat ++
  ByteWriter.u16 header.type.toNat ++
  ByteWriter.u32 header.flags.toNat ++
  ByteWriter.u64 header.sequence.toNat ++
  ByteWriter.u64 header.epoch.toNat ++
  ByteWriter.u32 header.payloadLength.toNat ++
  ByteWriter.u32 header.futureWord.toNat

def headerWords (header : RawHeader) : Bytes :=
  coveredWords header ++
  ByteWriter.u32 header.headerCrc.toNat ++
  ByteWriter.u64 header.sessionId.toNat ++
  ByteWriter.u32 header.requestId.toNat ++
  ByteWriter.u32 header.reserved.toNat

def checksum (covered : Bytes) : UInt32 := UInt32.ofBitVec (crc32 covered)

def canonicalWords (header : FrameHeader) (payloadBytes : Nat) : RawHeader where
  magic := kFrameMagic
  version := UInt16.ofNat kWireProtocolVersion
  type := UInt16.ofNat header.type.raw
  flags := header.flags
  sequence := header.sequence
  epoch := header.epoch
  payloadLength := UInt32.ofNat payloadBytes
  futureWord := 0
  headerCrc := 0
  sessionId := header.sessionId
  requestId := header.requestId
  reserved := 0

def checksummed (header : FrameHeader) (payloadBytes : Nat) : RawHeader :=
  let canonical := canonicalWords header payloadBytes
  { canonical with headerCrc := checksum (coveredWords canonical) }

-- An oversized payload yields nothing, which is never a frame.
def encodeFrame (header : FrameHeader) (payload : Bytes) : Bytes :=
  if payload.length > kMaxFramePayloadBytes then []
  else
    let body := headerWords (checksummed header payload.length) ++ payload
    body ++ (Sha256.hash body).bytes

def readRawHeader : ByteReader RawHeader := do
  let magic ← ByteReader.word32
  let version ← ByteReader.word16
  let type ← ByteReader.word16
  let flags ← ByteReader.word32
  let sequence ← ByteReader.word64
  let epoch ← ByteReader.word64
  let payloadLength ← ByteReader.word32
  let futureWord ← ByteReader.word32
  let headerCrc ← ByteReader.word32
  let sessionId ← ByteReader.word64
  let requestId ← ByteReader.word32
  let reserved ← ByteReader.word32
  pure { magic, version, type, flags, sequence, epoch, payloadLength, futureWord, headerCrc, sessionId, requestId, reserved }

-- The word reserved for a future revision is read and dropped.
def FrameHeader.ofRaw (raw : RawHeader) (type : FrameType) : FrameHeader where
  magic := raw.magic
  version := raw.version
  type := type
  flags := raw.flags
  sequence := raw.sequence
  epoch := raw.epoch
  payloadLength := raw.payloadLength
  headerCrc := raw.headerCrc
  sessionId := raw.sessionId
  requestId := raw.requestId
  reserved := raw.reserved

def judgeHeader (covered : Bytes) (raw : RawHeader) : Result FrameHeader := do
  deny (raw.magic ≠ kFrameMagic) ⟨.badMagic, text "frame magic " ++ decimal raw.magic.toNat ++
    text " does not match the expected magic"⟩
  deny (raw.version.toNat ≠ kWireProtocolVersion) ⟨.badProtocolVersion, text "frame protocol version " ++
    decimal raw.version.toNat ++ text " is not supported"⟩
  match FrameType.ofRaw? raw.type.toNat with
  | none => .error ⟨.unexpectedFrameType, text "frame type " ++ decimal raw.type.toNat ++ text " is not known"⟩
  | some type => do
      deny (raw.reserved ≠ 0) (failure .invalidSyntax "reserved header word must be zero")
      deny (checksum covered ≠ raw.headerCrc) ⟨.badHeaderChecksum, text "header checksum " ++ decimal raw.headerCrc.toNat ++
        text " does not match " ++ decimal (checksum covered).toNat⟩
      deny (raw.payloadLength.toNat > kMaxFramePayloadBytes) ⟨.frameTooLarge, text "payload length " ++
        decimal raw.payloadLength.toNat ++ text " exceeds the limit " ++ decimal kMaxFramePayloadBytes⟩
      .ok (FrameHeader.ofRaw raw type)

-- On success all of the header's bytes have been consumed.
def decodeFrameHeader (bytes : Bytes) : Result FrameHeader := do
  deny (bytes.length < kFrameHeaderBytes) ⟨.truncatedRecord, text "frame header needs " ++ decimal kFrameHeaderBytes ++
    text " bytes but only " ++ decimal bytes.length ++ text " are available"⟩
  let raw ← ByteReader.complete readRawHeader (bytes.take kFrameHeaderBytes)
  judgeHeader (bytes.take kHeaderCrcCoverageBytes) raw

def decodeFrame (bytes : Bytes) : Result Frame := do
  let header ← decodeFrameHeader bytes
  let payloadBytes := header.payloadLength.toNat
  let bodyBytes := kFrameHeaderBytes + payloadBytes
  let totalBytes := bodyBytes + kFrameTrailerBytes
  deny (bytes.length < totalBytes) ⟨.truncatedRecord, text "frame needs " ++ decimal totalBytes ++ text " bytes but only " ++
    decimal bytes.length ++ text " are available"⟩
  deny (bytes.length > totalBytes) ⟨.trailingGarbage, decimal (bytes.length - totalBytes) ++ text " bytes follow the frame"⟩
  deny ((bytes.drop bodyBytes).take kFrameTrailerBytes ≠ (Sha256.hash (bytes.take bodyBytes)).bytes)
    (failure .badPayloadDigest "payload digest does not match")
  .ok { header, payload := (bytes.drop kFrameHeaderBytes).take payloadBytes }

end Wire

end PathPlanner

import PathPlanner.Wire.Frame

set_option autoImplicit false

namespace PathPlanner

open Checks Codec

namespace Wire

theorem frame_type_of_raw (type : FrameType) : FrameType.ofRaw? (UInt16.ofNat type.raw).toNat = some type := by
  cases type <;> rfl

theorem frame_type_raw (raw : Nat) (type : FrameType) (known : FrameType.ofRaw? raw = some type) : type.raw = raw := by
  unfold FrameType.ofRaw? at known
  split at known <;> cases known <;> rfl

@[simp] theorem covered_words_length (header : RawHeader) : (coveredWords header).length = kHeaderCrcCoverageBytes := rfl

@[simp] theorem header_words_length (header : RawHeader) : (headerWords header).length = kFrameHeaderBytes := rfl

theorem raw_header_reads : Reads readRawHeader headerWords always :=
  (Reads.field always RawHeader.magic ByteReader.word32_reads fun magic =>
    .field _ RawHeader.version ByteReader.word16_reads fun version =>
    .field _ RawHeader.type ByteReader.word16_reads fun type =>
    .field _ RawHeader.flags ByteReader.word32_reads fun flags =>
    .field _ RawHeader.sequence ByteReader.word64_reads fun sequence =>
    .field _ RawHeader.epoch ByteReader.word64_reads fun epoch =>
    .field _ RawHeader.payloadLength ByteReader.word32_reads fun payloadLength =>
    .field _ RawHeader.futureWord ByteReader.word32_reads fun futureWord =>
    .field _ RawHeader.headerCrc ByteReader.word32_reads fun headerCrc =>
    .field _ RawHeader.sessionId ByteReader.word64_reads fun sessionId =>
    .field _ RawHeader.requestId ByteReader.word32_reads fun requestId =>
    .final _ RawHeader.reserved (fun reserved =>
        { magic, version, type, flags, sequence, epoch, payloadLength, futureWord, headerCrc, sessionId, requestId, reserved })
      ByteReader.word32_reads (by rintro _ ⟨⟩; simp [and_assoc])).convert (by simp [headerWords, coveredWords]) (by simp)

theorem headerWords_injective (left right : RawHeader) (same : headerWords left = headerWords right) : left = right :=
  raw_header_reads.delimited.injective left right trivial trivial same

-- What the header checks settle.
structure Judged (covered : Bytes) (raw : RawHeader) (type : FrameType) : Prop where
  magic : raw.magic = kFrameMagic
  version : raw.version.toNat = kWireProtocolVersion
  known : FrameType.ofRaw? raw.type.toNat = some type
  reserved : raw.reserved = 0
  crc : checksum covered = raw.headerCrc
  length : raw.payloadLength.toNat ≤ kMaxFramePayloadBytes

theorem judge_header_ok (covered : Bytes) (raw : RawHeader) (header : FrameHeader) :
    judgeHeader covered raw = .ok header ↔ ∃ type, Judged covered raw type ∧ header = FrameHeader.ofRaw raw type := by
  unfold judgeHeader
  simp only [then_ok, deny_ok, not_not, ne_eq]
  cases known : FrameType.ofRaw? raw.type.toNat with
  | none =>
      refine iff_of_false (by simp) ?_
      rintro ⟨type, judged, _⟩
      rw [judged.known] at known
      cases known
  | some type =>
      simp only [then_ok, deny_ok, not_not, not_lt, gt_iff_lt, Except.ok.injEq]
      constructor
      · rintro ⟨magic, version, reserved, crc, length, rfl⟩
        exact ⟨type, ⟨magic, version, known, reserved, crc, length⟩, rfl⟩
      · rintro ⟨found, judged, rfl⟩
        rw [judged.known, Option.some.injEq] at known
        subst known
        exact ⟨judged.magic, judged.version, judged.reserved, judged.crc, judged.length, rfl⟩

-- The bytes of a frame with the given header words.
def frameBytes (raw : RawHeader) (payload : Bytes) : Bytes :=
  headerWords raw ++ payload ++ (Sha256.hash (headerWords raw ++ payload)).bytes

theorem take_covered (raw : RawHeader) (rest : Bytes) : (headerWords raw ++ rest).take kHeaderCrcCoverageBytes = coveredWords raw := by
  rw [headerWords]
  simp only [List.append_assoc]
  exact List.take_left' (covered_words_length raw)

theorem decode_frame_ok (bytes : Bytes) (frame : Frame) :
    decodeFrame bytes = .ok frame ↔ ∃ raw type, Judged (coveredWords raw) raw type ∧ frame.header = FrameHeader.ofRaw raw type ∧
      frame.payload.length = raw.payloadLength.toNat ∧ bytes = frameBytes raw frame.payload := by
  unfold decodeFrame decodeFrameHeader
  constructor
  · intro decoded
    obtain ⟨header, headerRead, decoded⟩ := (bind_ok _ _ _).mp decoded
    simp only [then_ok, deny_ok, not_lt, not_not, ne_eq, Except.ok.injEq, gt_iff_lt] at decoded headerRead
    obtain ⟨short, long, digest, rfl⟩ := decoded
    obtain ⟨_, headerRead⟩ := headerRead
    obtain ⟨raw, rawRead, judged⟩ := (bind_ok _ _ _).mp headerRead
    obtain ⟨_, words⟩ := ByteReader.complete_canonical raw_header_reads _ _ rawRead
    have split : bytes = headerWords raw ++ bytes.drop kFrameHeaderBytes := by
      rw [← words, List.take_append_drop]
    have covered : bytes.take kHeaderCrcCoverageBytes = coveredWords raw := by
      rw [split]
      exact take_covered raw _
    rw [covered] at judged
    obtain ⟨type, facts, rfl⟩ := (judge_header_ok _ _ _).mp judged
    have length : (FrameHeader.ofRaw raw type).payloadLength = raw.payloadLength := rfl
    rw [length] at short long digest ⊢
    have body : bytes.take (kFrameHeaderBytes + raw.payloadLength.toNat) =
        headerWords raw ++ (bytes.drop kFrameHeaderBytes).take raw.payloadLength.toNat := by
      rw [List.take_add, words]
    refine ⟨raw, type, facts, rfl, ?_, ?_⟩
    · rw [List.length_take, List.length_drop]
      omega
    · rw [body] at digest
      rw [frameBytes, ← digest, ← body, List.take_of_length_le (l := List.drop _ bytes) (by rw [List.length_drop]; omega),
        List.take_append_drop]
  · rintro ⟨raw, type, judged, header, length, rfl⟩
    have size : (frameBytes raw frame.payload).length = kFrameHeaderBytes + raw.payloadLength.toNat + kFrameTrailerBytes := by
      rw [frameBytes, List.length_append, List.length_append, header_words_length, length, (Sha256.hash _).size]
      rfl
    have first : (frameBytes raw frame.payload).take kFrameHeaderBytes = headerWords raw := by
      rw [frameBytes, List.append_assoc]
      exact List.take_left' (header_words_length raw)
    have covered : (frameBytes raw frame.payload).take kHeaderCrcCoverageBytes = coveredWords raw := by
      rw [frameBytes, List.append_assoc]
      exact take_covered raw _
    have bodySize : (headerWords raw ++ frame.payload).length = kFrameHeaderBytes + raw.payloadLength.toNat := by
      rw [List.length_append, header_words_length, length]
    have body : (frameBytes raw frame.payload).take (kFrameHeaderBytes + raw.payloadLength.toNat) = headerWords raw ++ frame.payload :=
      List.take_left' bodySize
    have trailer : (frameBytes raw frame.payload).drop (kFrameHeaderBytes + raw.payloadLength.toNat) =
        (Sha256.hash (headerWords raw ++ frame.payload)).bytes := List.drop_left' bodySize
    have payload : ((frameBytes raw frame.payload).drop kFrameHeaderBytes).take raw.payloadLength.toNat = frame.payload := by
      rw [frameBytes, List.append_assoc, List.drop_left' (header_words_length raw)]
      exact List.take_left' length
    rw [bind_ok]
    refine ⟨FrameHeader.ofRaw raw type, ?_, ?_⟩
    · rw [then_ok, deny_ok, bind_ok, first, covered]
      exact ⟨by rw [size]; omega, raw, ByteReader.complete_accepts raw_header_reads raw trivial,
        (judge_header_ok _ _ _).mpr ⟨type, judged, rfl⟩⟩
    · have same : (FrameHeader.ofRaw raw type).payloadLength = raw.payloadLength := rfl
      simp only [then_ok, deny_ok, same, size, body, trailer, payload, Except.ok.injEq]
      refine ⟨lt_irrefl _, lt_irrefl _, ?_, ?_⟩
      · rw [not_not]
        exact List.take_of_length_le (Sha256.hash _).size.le
      · rw [← header]

theorem encode_frame_bytes (header : FrameHeader) (payload : Bytes) (small : payload.length ≤ kMaxFramePayloadBytes) :
    encodeFrame header payload = frameBytes (checksummed header payload.length) payload := by
  rw [encodeFrame, if_neg (not_lt.mpr small)]
  rfl

theorem checksummed_judged (header : FrameHeader) (payloadBytes : Nat) (small : payloadBytes ≤ kMaxFramePayloadBytes) :
    Judged (coveredWords (checksummed header payloadBytes)) (checksummed header payloadBytes) header.type where
  magic := rfl
  version := rfl
  known := frame_type_of_raw header.type
  reserved := rfl
  crc := rfl
  length := by
    change (UInt32.ofNat payloadBytes).toNat ≤ _
    rw [UInt32.toNat_ofNat']
    exact (Nat.mod_le _ _).trans small

-- The header encode_frame lays out for a payload.
def encodedHeader (header : FrameHeader) (payloadBytes : Nat) : FrameHeader :=
  FrameHeader.ofRaw (checksummed header payloadBytes) header.type

theorem decode_encode_frame (header : FrameHeader) (payload : Bytes) (small : payload.length ≤ kMaxFramePayloadBytes) :
    decodeFrame (encodeFrame header payload) = .ok ⟨encodedHeader header payload.length, payload⟩ := by
  rw [encode_frame_bytes header payload small, decode_frame_ok]
  refine ⟨checksummed header payload.length, header.type, checksummed_judged header _ small, rfl, ?_, rfl⟩
  change payload.length = (UInt32.ofNat payload.length).toNat
  rw [UInt32.toNat_ofNat', Nat.mod_eq_of_lt (lt_of_le_of_lt small (by decide))]

-- Re-encoding a judged header restores every word but the one reserved for a future revision.
theorem checksummed_of_raw (raw : RawHeader) (type : FrameType) (judged : Judged (coveredWords raw) raw type) :
    checksummed (FrameHeader.ofRaw raw type) raw.payloadLength.toNat = raw ↔ raw.futureWord = 0 := by
  constructor
  · intro same
    rw [← same]
    rfl
  · intro zero
    have version : UInt16.ofNat kWireProtocolVersion = raw.version := by
      rw [← judged.version, UInt16.ofNat_toNat]
    have number : UInt16.ofNat type.raw = raw.type := by
      rw [frame_type_raw _ type judged.known, UInt16.ofNat_toNat]
    have words : canonicalWords (FrameHeader.ofRaw raw type) raw.payloadLength.toNat = { raw with headerCrc := 0 } := by
      obtain ⟨magic, _, _, _, _, _, _, _, _, _, _, _⟩ := raw
      simp only [canonicalWords, FrameHeader.ofRaw, version, number, UInt32.ofNat_toNat, RawHeader.mk.injEq, true_and]
      exact ⟨judged.magic.symm, zero.symm, judged.reserved.symm⟩
    have crc : checksum (coveredWords { raw with headerCrc := 0 }) = raw.headerCrc := judged.crc
    rw [checksummed, words]
    dsimp only
    rw [crc]

def alignmentWord (bytes : Bytes) : Bytes := (bytes.drop 32).take 4

theorem alignment_word_frame (raw : RawHeader) (payload : Bytes) :
    alignmentWord (frameBytes raw payload) = ByteWriter.u32 raw.futureWord.toNat := rfl

-- Each frame of a known type decodes to itself, and an accepted byte string is canonical exactly when its alignment word is zero.
theorem frame_codec_canonical_iff (header : FrameHeader) (payload bytes : Bytes) (frame : Frame) :
    (payload.length ≤ kMaxFramePayloadBytes →
      decodeFrame (encodeFrame header payload) = .ok ⟨encodedHeader header payload.length, payload⟩) ∧
    (decodeFrame bytes = .ok frame →
      (encodeFrame frame.header frame.payload = bytes ↔ alignmentWord bytes = [0, 0, 0, 0])) := by
  refine ⟨decode_encode_frame header payload, fun decoded => ?_⟩
  obtain ⟨raw, type, judged, header, length, rfl⟩ := (decode_frame_ok bytes frame).mp decoded
  have word : alignmentWord (frameBytes raw frame.payload) = [0, 0, 0, 0] ↔ raw.futureWord = 0 := by
    rw [alignment_word_frame]
    constructor
    · intro zero
      have same := ByteReader.word32_reads.delimited.injective raw.futureWord 0 trivial trivial zero
      exact same
    · intro zero
      rw [zero]
      rfl
  rw [word, encode_frame_bytes _ _ (length.le.trans judged.length), header, length, ← checksummed_of_raw raw type judged]
  constructor
  · intro same
    have words := congrArg (List.take kFrameHeaderBytes) same
    simp only [frameBytes, List.append_assoc, List.take_left' (header_words_length _)] at words
    exact headerWords_injective _ _ words
  · intro same
    rw [same]

-- A ping whose alignment word is one, correctly checksummed.
def markedHeader : RawHeader :=
  let marked : RawHeader := { canonicalWords {} 0 with futureWord := 1 }
  { marked with headerCrc := checksum (coveredWords marked) }

theorem frame_codec_not_canonical : ¬ ((∀ (header : FrameHeader) (payload : Bytes), payload.length ≤ kMaxFramePayloadBytes →
      decodeFrame (encodeFrame header payload) = .ok ⟨encodedHeader header payload.length, payload⟩) ∧
    ∀ (bytes : Bytes) (frame : Frame), decodeFrame bytes = .ok frame → encodeFrame frame.header frame.payload = bytes) := by
  rintro ⟨_, canonical⟩
  have decoded : decodeFrame (frameBytes markedHeader []) = .ok ⟨FrameHeader.ofRaw markedHeader .ping, []⟩ := by
    decide +kernel
  have same := canonical _ _ decoded
  revert same
  decide +kernel

end Wire

end PathPlanner

import PathPlanner.Store.Record

set_option autoImplicit false

namespace PathPlanner.StoreRecord

open Checks Codec

theorem metadata_reads : Reads readMetadata encodeMetadata (fun metadata => Plan.Short metadata.collective) :=
  (Reads.field always RecordMetadata.incarnation (ByteReader.generation_reads _) fun incarnation =>
    .field _ RecordMetadata.sequence ByteReader.word64_reads fun sequence =>
    .field _ RecordMetadata.unixMicros ByteReader.word64_reads fun unixMicros =>
    .field _ RecordMetadata.generation (ByteReader.generation_reads _) fun generation =>
    .field _ RecordMetadata.bindings Plan.bindings_reads fun bindings =>
    .field _ RecordMetadata.collective (ByteReader.id_reads _) fun collective =>
    .field _ RecordMetadata.kind ByteReader.word8_reads fun kind =>
    .final _ RecordMetadata.inputDigest (fun inputDigest =>
        { incarnation, sequence, unixMicros, generation, bindings, collective, kind, inputDigest }) ByteReader.digest_reads
      (by rintro _ ⟨⟩; simp [and_assoc])).convert (by simp [encodeMetadata]) (by simp [Plan.Short])

theorem read_layout (layout : RecordLayout) (rest : Bytes) : readLayout (encodeLayout layout ++ rest) = .ok (layout, rest) := by
  rw [encodeLayout, List.append_assoc, List.append_assoc, List.append_assoc, readLayout, bind_accepted]
  refine ⟨kRecordMagic, _, (ByteReader.raw_reads _).accepts kRecordMagic _ rfl, ?_⟩
  rw [bind_accepted]
  refine ⟨layout.version, _, ByteReader.word16_reads.accepts _ _ trivial, ?_⟩
  rw [bind_accepted]
  refine ⟨layout.headerLength, _, ByteReader.word32_reads.accepts _ _ trivial, ?_⟩
  rw [bind_accepted]
  exact ⟨layout.payloadLength, _, ByteReader.word32_reads.accepts _ _ trivial, rfl⟩

theorem read_header (layout : RecordLayout) (metadata : RecordMetadata) (short : Plan.Short metadata.collective) :
    ByteReader.complete readHeader (encodeLayout layout ++ encodeMetadata metadata) = .ok (layout, metadata) := by
  have read : readHeader (encodeLayout layout ++ encodeMetadata metadata) = .ok ((layout, metadata), []) := by
    rw [readHeader, bind_accepted]
    refine ⟨layout, _, read_layout layout _, ?_⟩
    rw [bind_accepted]
    refine ⟨metadata, [], ?_, rfl⟩
    simpa using metadata_reads.accepts metadata [] short
  rw [ByteReader.complete, whole, read]
  rfl

@[simp] theorem encode_layout_length (layout : RecordLayout) : (encodeLayout layout).length = kRecordFileHeaderBytes := rfl

@[simp] theorem encode_metadata_length (metadata : RecordMetadata) :
    (encodeMetadata metadata).length = 109 + metadata.collective.value.length := by
  simp [encodeMetadata, Plan.encodeBindings, kDigestBytes]
  omega

-- A record of a plan under any header that declares its lengths; the encoder's header is the one taken from the plan.
def headerWith (plan : Plan) (metadata : RecordMetadata) : Bytes := encodeLayout (layoutOf plan metadata) ++ encodeMetadata metadata

def recordWith (plan : Plan) (metadata : RecordMetadata) (requestDigest : Digest) : Bytes :=
  headerWith plan metadata ++ (ByteWriter.u32 (crc32 (headerWith plan metadata)).toNat ++ (Plan.encode plan ++
    (ByteWriter.digest (Sha256.hash (Plan.encode plan)) ++ ByteWriter.digest requestDigest)))

theorem encode_record_with (plan : Plan) (digest : Digest) (incarnation : Incarnation) (sequence unixMicros : UInt64) :
    encodePlanRecord plan digest incarnation sequence unixMicros =
      recordWith plan (metadataOf plan incarnation sequence unixMicros) digest := rfl

theorem header_with_length (plan : Plan) (metadata : RecordMetadata) :
    (headerWith plan metadata).length = 123 + metadata.collective.value.length := by
  rw [headerWith, List.length_append, encode_layout_length, encode_metadata_length]
  simp only [kRecordFileHeaderBytes]
  omega

theorem layout_header_length (plan : Plan) (metadata : RecordMetadata) (small : 123 + metadata.collective.value.length < 2 ^ 32) :
    (layoutOf plan metadata).headerLength.toNat = (headerWith plan metadata).length := by
  have long : kRecordFileHeaderBytes + (109 + metadata.collective.value.length) = 123 + metadata.collective.value.length := by
    simp only [kRecordFileHeaderBytes]
    omega
  rw [header_with_length, layoutOf, List.length_append, encode_layout_length, encode_metadata_length]
  simp only [UInt32.toNat_ofNat', long]
  exact Nat.mod_eq_of_lt small

theorem layout_payload_length (plan : Plan) (metadata : RecordMetadata)
    (small : (Plan.encode plan).length + kRecordDigests < 2 ^ 32) :
    (layoutOf plan metadata).payloadLength.toNat = (Plan.encode plan).length + kRecordDigests := by
  rw [layoutOf]
  simp only [UInt32.toNat_ofNat']
  exact Nat.mod_eq_of_lt small

theorem record_with_length (plan : Plan) (metadata : RecordMetadata) (digest : Digest) :
    (recordWith plan metadata digest).length =
      127 + metadata.collective.value.length + ((Plan.encode plan).length + kRecordDigests) := by
  simp only [recordWith, List.length_append, header_with_length, ByteWriter.u32_length, ByteWriter.digest_length,
    kRecordDigests, kDigestBytes]
  omega

theorem encode_record_length (plan : Plan) (digest : Digest) (incarnation : Incarnation) (sequence unixMicros : UInt64) :
    (encodePlanRecord plan digest incarnation sequence unixMicros).length =
      127 + plan.collective.value.length + ((Plan.encode plan).length + kRecordDigests) :=
  record_with_length plan (metadataOf plan incarnation sequence unixMicros) digest

theorem word_at_append (front rest : Bytes) (value : Nat) (small : value < 2 ^ 32) :
    wordAt (front ++ (ByteWriter.u32 value ++ rest)) front.length = value := by
  have byte (k : Nat) : (front ++ (ByteWriter.u32 value ++ rest)).getD (front.length + k) 0 = (ByteWriter.u32 value ++ rest).getD k 0 := by
    rw [List.getD_append_right _ _ _ _ (Nat.le_add_right _ _), Nat.add_sub_cancel_left]
  simp only [wordAt, byte]
  simp [ByteWriter.u32, ByteWriter.u16, ByteWriter.u8]
  omega

-- The plans whose records the decoder accepts.
structure Storable (plan : Plan) : Prop where
  decodable : Plan.Decodable plan
  room : (Plan.encode plan).length + kRecordDigests ≤ kMaxPlanRecordBytes

-- The headers the decoder accepts.
structure Readable (metadata : RecordMetadata) : Prop where
  collective : Plan.Short metadata.collective
  kind : metadata.kind.toNat ≤ CollectiveKind.hierarchical.raw

theorem readable_short (metadata : RecordMetadata) (readable : Readable metadata) :
    123 + metadata.collective.value.length ≤ 187 := by
  have short : metadata.collective.value.length ≤ 64 := readable.collective
  omega

theorem metadata_readable (plan : Plan) (storable : Storable plan) (incarnation : Incarnation) (sequence unixMicros : UInt64) :
    Readable (metadataOf plan incarnation sequence unixMicros) where
  collective := storable.decodable.fits.collective
  kind := by
    change (UInt8.ofNat plan.kind.raw).toNat ≤ _
    cases plan.kind <;> decide

theorem payload_decodes (plan : Plan) (storable : Storable plan) :
    decodePayload (Plan.encode plan ++ (ByteWriter.digest (Sha256.hash (Plan.encode plan)) ++ ByteWriter.digest plan.inputDigest))
      (Plan.encode plan).length = .ok plan := by
  have stored (digest : Digest) (rest : Bytes) : Digest.ofBytes (ByteWriter.digest digest ++ rest) = digest := by
    apply Digest.bytes_injective
    simp only [Digest.ofBytes, ByteWriter.digest, List.append_assoc]
    exact List.take_left' digest.size
  have last (digest : Digest) : Digest.ofBytes (ByteWriter.digest digest) = digest := by
    simpa using stored digest []
  rw [decodePayload, List.take_left, List.drop_left, stored, List.drop_append, List.drop_eq_nil_of_le (Nat.le_add_right _ _),
    List.nil_append, Nat.add_sub_cancel_left, List.drop_left' (by simp), last]
  simp only [then_ok, deny_ok, ne_eq, not_true_eq_false, not_false_eq_true, true_and]
  rw [bind_ok]
  exact ⟨plan, Plan.decode_encode plan storable.decodable, by simp⟩

theorem layout_checks (plan : Plan) (metadata : RecordMetadata) (digest : Digest) (storable : Storable plan)
    (readable : Readable metadata) : checkLayout (recordWith plan metadata digest) (layoutOf plan metadata) = .ok () := by
  have short := readable_short metadata readable
  have room := storable.room
  have total := record_with_length plan metadata digest
  have headerLength := layout_header_length plan metadata (by omega)
  have header := header_with_length plan metadata
  have payloadLength := layout_payload_length plan metadata (by simp only [kMaxPlanRecordBytes] at room; omega)
  have word := word_at_append (headerWith plan metadata)
    (Plan.encode plan ++ (ByteWriter.digest (Sha256.hash (Plan.encode plan)) ++ ByteWriter.digest digest))
    (crc32 (headerWith plan metadata)).toNat (BitVec.isLt _)
  unfold checkLayout
  simp only [then_ok, deny_ok, headerLength, payloadLength]
  refine ⟨by simp [layoutOf, kStoreFormatVersion], ?_, by omega, by omega, by omega, ?_⟩
  · simp only [kMaxPlanRecordBytes] at room ⊢
    omega
  · rw [recordWith, List.take_left, word]
    simp

theorem record_layout_read (plan : Plan) (metadata : RecordMetadata) (digest : Digest) :
    ∃ rest, readLayout (recordWith plan metadata digest) = .ok (layoutOf plan metadata, rest) := by
  rw [recordWith, headerWith, List.append_assoc]
  exact ⟨_, read_layout _ _⟩

theorem record_payload (plan : Plan) (metadata : RecordMetadata) (digest : Digest) :
    (recordWith plan metadata digest).drop ((headerWith plan metadata).length + 4) =
      Plan.encode plan ++ (ByteWriter.digest (Sha256.hash (Plan.encode plan)) ++ ByteWriter.digest digest) := by
  rw [recordWith, List.drop_append, List.drop_eq_nil_of_le (Nat.le_add_right _ _), List.nil_append,
    Nat.add_sub_cancel_left, List.drop_left' (by simp)]

-- The decoder takes the plan from the payload and the provenance from whatever the header says.
theorem decode_record_with (plan : Plan) (metadata : RecordMetadata) (storable : Storable plan) (readable : Readable metadata) :
    decodePlanRecord (recordWith plan metadata plan.inputDigest) =
      .ok (plan, summaryOf plan metadata.incarnation metadata.sequence metadata.unixMicros
        (recordWith plan metadata plan.inputDigest).length) := by
  have short := readable_short metadata readable
  have room := storable.room
  have total := record_with_length plan metadata plan.inputDigest
  have headerLength := layout_header_length plan metadata (by omega)
  have payloadLength := layout_payload_length plan metadata (by simp only [kMaxPlanRecordBytes] at room; omega)
  have checked := layout_checks plan metadata plan.inputDigest storable readable
  have payload := record_payload plan metadata plan.inputDigest
  obtain ⟨rest, layoutRead⟩ := record_layout_read plan metadata plan.inputDigest
  have headerTaken : (recordWith plan metadata plan.inputDigest).take (headerWith plan metadata).length = headerWith plan metadata := by
    rw [recordWith, List.take_left]
  unfold decodePlanRecord
  rw [then_ok, deny_ok, then_ok, deny_ok, then_ok, deny_ok, bind_ok]
  refine ⟨by simp only [kMaxPlanRecordBytes] at room ⊢; omega, by simp only [kRecordFileHeaderBytes]; omega,
    not_not.mpr rfl, _, layoutRead, ?_⟩
  simp only [headerLength, payloadLength, headerTaken, payload, then_ok, Nat.add_sub_cancel]
  refine ⟨checked, ?_⟩
  rw [bind_ok]
  refine ⟨_, read_header _ _ readable.collective, ?_⟩
  rw [then_ok, bind_ok]
  refine ⟨?_, plan, payload_decodes plan storable, rfl⟩
  simpa [checkHeader] using readable.kind

theorem decode_encode_record (plan : Plan) (digest : Digest) (incarnation : Incarnation) (sequence unixMicros : UInt64)
    (storable : Storable plan) (same : plan.inputDigest = digest) :
    decodePlanRecord (encodePlanRecord plan digest incarnation sequence unixMicros) =
      .ok (plan, summaryOf plan incarnation sequence unixMicros
        (encodePlanRecord plan digest incarnation sequence unixMicros).length) := by
  subst same
  exact decode_record_with plan _ storable (metadata_readable plan storable incarnation sequence unixMicros)

-- Plans with the same encoding share their input digest, whether or not the decoder accepts it.
theorem encode_digest (left right : Plan) (same : Plan.encode left = Plan.encode right) : left.inputDigest = right.inputDigest := by
  simp only [Plan.encode, List.append_assoc] at same
  have tails := List.append_cancel_left (List.append_cancel_left same)
  exact Digest.bytes_injective (List.append_inj_left tails (left.inputDigest.size.trans right.inputDigest.size.symm))

-- A record that decodes carries a plan the decoder accepts, with the bytes of the plan put into it.
theorem encoded_record_decodes (plan found : Plan) (digest : Digest) (incarnation : Incarnation) (sequence unixMicros : UInt64)
    (summary : StoredPlanSummary)
    (decoded : decodePlanRecord (encodePlanRecord plan digest incarnation sequence unixMicros) = .ok (found, summary)) :
    Storable found ∧ Plan.encode found = Plan.encode plan ∧ summary.id = found.id := by
  rw [encode_record_with] at decoded
  generalize metadataOf plan incarnation sequence unixMicros = metadata at decoded
  have total := record_with_length plan metadata digest
  have payload := record_payload plan metadata digest
  obtain ⟨rest, layoutRead⟩ := record_layout_read plan metadata digest
  unfold decodePlanRecord at decoded
  rw [then_ok, deny_ok, then_ok, then_ok, layoutRead] at decoded
  obtain ⟨size, _, _, decoded⟩ := decoded
  rw [bind_ok] at decoded
  obtain ⟨_, ⟨⟩, decoded⟩ := decoded
  simp only [then_ok] at decoded
  obtain ⟨checked, decoded⟩ := decoded
  simp only [kMaxPlanRecordBytes] at size
  have payloadLength := layout_payload_length plan metadata (by omega)
  have headerLength := layout_header_length plan metadata (by omega)
  have room : (Plan.encode plan).length + kRecordDigests ≤ kMaxPlanRecordBytes := by
    unfold checkLayout at checked
    simp only [then_ok, deny_ok, payloadLength] at checked
    omega
  rw [bind_ok] at decoded
  obtain ⟨⟨declared, metadata⟩, _, decoded⟩ := decoded
  simp only [then_ok, headerLength, payload, payloadLength, Nat.add_sub_cancel] at decoded
  obtain ⟨_, decoded⟩ := decoded
  rw [bind_ok] at decoded
  obtain ⟨carried, read, ⟨⟩⟩ := decoded
  unfold decodePayload at read
  rw [List.take_left, then_ok, bind_ok] at read
  obtain ⟨_, other, read, last⟩ := read
  rw [then_ok] at last
  obtain ⟨_, ⟨⟩⟩ := last
  obtain ⟨decodable, encoded⟩ := Plan.decode_canonical _ _ read
  exact ⟨⟨decodable, by rw [encoded]; exact room⟩, encoded, rfl⟩

end PathPlanner.StoreRecord

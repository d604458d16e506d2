import PathPlanner.Store.RecordCodec
import PathPlanner.Planner.PlanRecord

set_option autoImplicit false

namespace PathPlanner.StoreRecord

open Checks Codec PlanCollective

def layoutWords (layout : RecordLayout) : Bytes :=
  ByteWriter.u16 layout.version.toNat ++ (ByteWriter.u32 layout.headerLength.toNat ++ ByteWriter.u32 layout.payloadLength.toNat)

theorem encode_layout_words (layout : RecordLayout) : encodeLayout layout = kRecordMagic ++ layoutWords layout := by
  simp [encodeLayout, layoutWords]

-- The readers step over four bytes of any content.
theorem read_layout_canonical (input rest : Bytes) (layout : RecordLayout) (accepted : readLayout input = .ok (layout, rest)) :
    kRecordMagic.length ≤ input.length ∧ input = input.take kRecordMagic.length ++ layoutWords layout ++ rest := by
  rw [readLayout, bind_accepted] at accepted
  obtain ⟨lead, _, leadRead, accepted⟩ := accepted
  rw [bind_accepted] at accepted
  obtain ⟨version, _, versionRead, accepted⟩ := accepted
  rw [bind_accepted] at accepted
  obtain ⟨headerLength, _, headerRead, accepted⟩ := accepted
  rw [bind_accepted] at accepted
  obtain ⟨payloadLength, _, payloadRead, ⟨⟩⟩ := accepted
  obtain ⟨long, rfl⟩ := (ByteReader.raw_reads _).canonical _ _ _ leadRead
  obtain ⟨_, rfl⟩ := ByteReader.word16_reads.canonical _ _ _ versionRead
  obtain ⟨_, rfl⟩ := ByteReader.word32_reads.canonical _ _ _ headerRead
  obtain ⟨_, rfl⟩ := ByteReader.word32_reads.canonical _ _ _ payloadRead
  rw [← long, List.take_left]
  exact ⟨by simp, by simp [layoutWords]⟩

theorem read_header_canonical (input : Bytes) (layout : RecordLayout) (metadata : RecordMetadata)
    (accepted : ByteReader.complete readHeader input = .ok (layout, metadata)) :
    Plan.Short metadata.collective ∧ kRecordMagic.length ≤ input.length ∧
      input = input.take kRecordMagic.length ++ layoutWords layout ++ encodeMetadata metadata := by
  rw [ByteReader.complete, whole] at accepted
  cases outcome : readHeader input with
  | error failed => simp [outcome] at accepted
  | ok step =>
      obtain ⟨⟨found, fields⟩, rest⟩ := step
      simp only [outcome] at accepted
      split_ifs at accepted with empty
      cases accepted
      subst empty
      rw [readHeader, bind_accepted] at outcome
      obtain ⟨first, middle, layoutRead, outcome⟩ := outcome
      rw [bind_accepted] at outcome
      obtain ⟨second, after, metadataRead, ⟨⟩⟩ := outcome
      obtain ⟨short, rfl⟩ := metadata_reads.canonical _ _ _ metadataRead
      have same := read_layout_canonical _ _ _ layoutRead
      rw [List.append_nil] at same
      exact ⟨short, same⟩

theorem word_bytes (bytes : Bytes) (offset : Nat) (inside : offset + 4 ≤ bytes.length) :
    bytes.drop offset = ByteWriter.u32 (wordAt bytes offset) ++ bytes.drop (offset + 4) := by
  have byte (value : UInt8) (rest : Nat) : UInt8.ofNat ((value.toNat + 2 ^ 8 * rest) % 2 ^ 8) = value := by
    rw [Nat.add_mul_mod_self_left, Nat.mod_eq_of_lt value.toNat_lt, UInt8.ofNat_toNat]
  obtain ⟨a, b, c, d, rest, tail⟩ : ∃ a b c d rest, bytes.drop offset = a :: b :: c :: d :: rest := by
    have long : 4 ≤ (bytes.drop offset).length := by rw [List.length_drop]; omega
    match bytes.drop offset, long with
    | a :: b :: c :: d :: rest, _ => exact ⟨a, b, c, d, rest, rfl⟩
  have after : bytes.drop (offset + 4) = rest := by
    rw [← List.drop_drop, tail]
    rfl
  have held (k : Nat) : bytes.getD (offset + k) 0 = (bytes.drop offset).getD k 0 := by simp [List.getD_eq_getElem?_getD]
  have word : wordAt bytes offset = a.toNat + b.toNat * 2 ^ 8 + c.toNat * 2 ^ 16 + d.toNat * 2 ^ 24 := by
    simp only [wordAt, held, tail]
    rfl
  have aSmall := a.toNat_lt
  have bSmall := b.toNat_lt
  have cSmall := c.toNat_lt
  have dSmall := d.toNat_lt
  rw [after, tail, word]
  simp only [ByteWriter.u32, ByteWriter.u16, ByteWriter.u8, List.cons_append, List.nil_append, List.cons.injEq, and_true]
  refine ⟨?_, ?_, ?_, ?_⟩
  · rw [show (a.toNat + b.toNat * 2 ^ 8 + c.toNat * 2 ^ 16 + d.toNat * 2 ^ 24) % 2 ^ 16 % 2 ^ 8 = a.toNat by omega, UInt8.ofNat_toNat]
  · rw [show (a.toNat + b.toNat * 2 ^ 8 + c.toNat * 2 ^ 16 + d.toNat * 2 ^ 24) % 2 ^ 16 / 2 ^ 8 % 2 ^ 8 = b.toNat by omega,
      UInt8.ofNat_toNat]
  · rw [show (a.toNat + b.toNat * 2 ^ 8 + c.toNat * 2 ^ 16 + d.toNat * 2 ^ 24) / 2 ^ 16 % 2 ^ 16 % 2 ^ 8 = c.toNat by omega,
      UInt8.ofNat_toNat]
  · rw [show (a.toNat + b.toNat * 2 ^ 8 + c.toNat * 2 ^ 16 + d.toNat * 2 ^ 24) / 2 ^ 16 % 2 ^ 16 / 2 ^ 8 % 2 ^ 8 = d.toNat by omega,
      UInt8.ofNat_toNat]

theorem of_bytes_take (bytes : Bytes) (long : kDigestBytes ≤ bytes.length) : (Digest.ofBytes bytes).bytes = bytes.take kDigestBytes := by
  simp only [Digest.ofBytes]
  exact List.take_append_of_le_length long

-- An accepted payload is a plan's encoding with its two digests.
theorem payload_canonical (payload : Bytes) (planBytes : Nat) (plan : Plan) (long : payload.length = planBytes + kRecordDigests)
    (accepted : decodePayload payload planBytes = .ok plan) :
    Plan.Decodable plan ∧ planBytes = (Plan.encode plan).length ∧
      payload = Plan.encode plan ++ (ByteWriter.digest (Sha256.hash (Plan.encode plan)) ++ ByteWriter.digest plan.inputDigest) := by
  rw [decodePayload, then_ok, deny_ok, bind_ok] at accepted
  obtain ⟨hashed, found, read, accepted⟩ := accepted
  rw [then_ok, deny_ok] at accepted
  obtain ⟨digest, ⟨⟩⟩ := accepted
  obtain ⟨decodable, encoded⟩ := Plan.decode_canonical _ _ read
  have size : planBytes = (Plan.encode plan).length := by
    rw [encoded, List.length_take]
    omega
  have first : ByteWriter.digest (Sha256.hash (Plan.encode plan)) = (payload.drop planBytes).take kDigestBytes := by
    rw [ByteWriter.digest, encoded, not_not.mp hashed]
    exact of_bytes_take _ (by rw [List.length_drop, long]; simp [kDigestBytes, kRecordDigests])
  have second : ByteWriter.digest plan.inputDigest = (payload.drop planBytes).drop kDigestBytes := by
    have whole : ((payload.drop planBytes).drop kDigestBytes).length = kDigestBytes := by
      rw [List.length_drop, List.length_drop, long]
      simp [kDigestBytes, kRecordDigests]
    rw [ByteWriter.digest, not_not.mp digest, of_bytes_take, ← List.drop_drop, List.take_of_length_le (le_of_eq whole)]
    rw [← List.drop_drop, whole]
  refine ⟨decodable, size, ?_⟩
  rw [first, second, List.take_append_drop, encoded, List.take_append_drop]

theorem layout_ext (left right : RecordLayout) (version : left.version = right.version)
    (headerLength : left.headerLength = right.headerLength) (payloadLength : left.payloadLength = right.payloadLength) :
    left = right := by
  cases left
  cases right
  simp only [RecordLayout.mk.injEq]
  exact ⟨version, headerLength, payloadLength⟩

-- Every accepted record is a plan's record under some header.
theorem decode_record_canonical (bytes : Bytes) (plan : Plan) (summary : StoredPlanSummary)
    (decoded : decodePlanRecord bytes = .ok (plan, summary)) :
    Storable plan ∧ ∃ metadata, Readable metadata ∧ bytes = recordWith plan metadata plan.inputDigest ∧
      summary = summaryOf plan metadata.incarnation metadata.sequence metadata.unixMicros bytes.length := by
  unfold decodePlanRecord at decoded
  rw [then_ok, then_ok, then_ok, deny_ok, bind_ok] at decoded
  obtain ⟨_, _, magic, ⟨layout, rest⟩, layoutRead, decoded⟩ := decoded
  have magic := not_not.mp ((deny_ok _ _).mp magic)
  simp only [then_ok] at decoded
  obtain ⟨checked, decoded⟩ := decoded
  rw [bind_ok] at decoded
  obtain ⟨⟨declared, metadata⟩, headerRead, decoded⟩ := decoded
  simp only [then_ok] at decoded
  obtain ⟨agrees, decoded⟩ := decoded
  rw [bind_ok] at decoded
  obtain ⟨found, payloadRead, ⟨⟩⟩ := decoded
  unfold checkLayout at checked
  simp only [then_ok, deny_ok, not_not, not_lt, not_or, ne_eq] at checked
  obtain ⟨version, ⟨payloadSmall, headerSmall⟩, holds, notShort, notLong, crc⟩ := checked
  unfold checkHeader at agrees
  simp only [then_ok, deny_ok, not_not, not_lt, not_or, ne_eq] at agrees
  obtain ⟨⟨sameHeader, samePayload⟩, sameVersion, kind⟩ := agrees
  obtain rfl : declared = layout := layout_ext declared layout sameVersion sameHeader samePayload
  have total : bytes.length = declared.headerLength.toNat + 4 + declared.payloadLength.toNat := le_antisymm notLong notShort
  obtain ⟨short, lead, headerBytes⟩ := read_header_canonical _ _ _ headerRead
  have headerLong : (bytes.take declared.headerLength.toNat).length = declared.headerLength.toNat := by
    rw [List.length_take]
    omega
  rw [headerLong] at lead
  rw [List.take_take, min_eq_left lead, magic, ← encode_layout_words] at headerBytes
  obtain ⟨decodable, planBytes, payload⟩ := payload_canonical (bytes.drop (declared.headerLength.toNat + 4)) _ plan
    (by rw [List.length_drop, total, Nat.sub_add_cancel holds]; omega) payloadRead
  have room : (Plan.encode plan).length + kRecordDigests = declared.payloadLength.toNat := by omega
  have header : 123 + metadata.collective.value.length = declared.headerLength.toNat := by
    rw [← headerLong, headerBytes, List.length_append, encode_layout_length, encode_metadata_length]
    simp only [kRecordFileHeaderBytes]
    omega
  have layout : declared = layoutOf plan metadata := by
    simp only [kMaxPlanRecordBytes] at payloadSmall headerSmall
    have here := layout_header_length plan metadata (by omega)
    have there := layout_payload_length plan metadata (by omega)
    rw [header_with_length, header] at here
    rw [room] at there
    apply layout_ext
    · exact UInt16.toNat_inj.mp (by rw [version]; rfl)
    · exact UInt32.toNat_inj.mp here.symm
    · exact UInt32.toNat_inj.mp there.symm
  have front : bytes.take declared.headerLength.toNat = headerWith plan metadata := by rw [headerBytes, headerWith, ← layout]
  refine ⟨⟨decodable, by omega⟩, metadata, ⟨short, kind⟩, ?_, rfl⟩
  calc bytes = bytes.take declared.headerLength.toNat ++ bytes.drop declared.headerLength.toNat := (List.take_append_drop _ _).symm
    _ = headerWith plan metadata ++ (ByteWriter.u32 (crc32 (headerWith plan metadata)).toNat ++
          bytes.drop (declared.headerLength.toNat + 4)) := by
        rw [word_bytes bytes declared.headerLength.toNat (by omega), ← crc, front]
    _ = recordWith plan metadata plan.inputDigest := by rw [payload, recordWith]

-- The fields an encoding starts with, whether or not the decoder takes the rest.
theorem encode_fields (left right : Plan) (here : left.collective.value.length < 2 ^ 32) (there : right.collective.value.length < 2 ^ 32)
    (same : Plan.encode left = Plan.encode right) : left.inputDigest = right.inputDigest ∧ left.generation = right.generation ∧
      left.bindings = right.bindings ∧ left.collective = right.collective ∧ left.kind = right.kind := by
  have digest := encode_digest left right same
  simp only [Plan.encode, List.append_assoc] at same
  rw [digest] at same
  have tails := List.append_cancel_left (List.append_cancel_left (List.append_cancel_left same))
  obtain ⟨generation, tails⟩ := (ByteReader.generation_reads _).delimited _ _ _ _ trivial trivial tails
  obtain ⟨bindings, tails⟩ := Plan.bindings_reads.delimited _ _ _ _ trivial trivial tails
  obtain ⟨collective, tails⟩ := (ByteReader.string_reads (2 ^ 32 - 1) (by decide)).delimited _ _ _ _
    (Nat.le_sub_one_of_lt here) (Nat.le_sub_one_of_lt there) tails
  obtain ⟨kind, _⟩ := Plan.kind_reads.delimited _ _ _ _ trivial trivial tails
  exact ⟨digest, generation, bindings, StrongId.value_injective collective, kind⟩

-- The metadata that a record's header carries.
def headerMetadata (bytes : Bytes) : Option RecordMetadata := (readHeader bytes).toOption.map fun read => read.1.2

theorem header_metadata_with (plan : Plan) (metadata : RecordMetadata) (digest : Digest) (readable : Readable metadata) :
    headerMetadata (recordWith plan metadata digest) = some metadata := by
  have read (rest : Bytes) : readHeader (encodeLayout (layoutOf plan metadata) ++ (encodeMetadata metadata ++ rest)) =
      .ok ((layoutOf plan metadata, metadata), rest) := by
    rw [readHeader, bind_accepted]
    refine ⟨_, _, read_layout _ _, ?_⟩
    rw [bind_accepted]
    exact ⟨metadata, rest, metadata_reads.accepts metadata rest readable.collective, rfl⟩
  rw [headerMetadata, recordWith, headerWith, List.append_assoc, read]
  rfl

structure HeaderAgrees (metadata : RecordMetadata) (plan : Plan) : Prop where
  generation : metadata.generation = plan.generation
  bindings : metadata.bindings = plan.bindings
  collective : metadata.collective = plan.collective
  kind : metadata.kind.toNat = plan.kind.raw
  inputDigest : metadata.inputDigest = plan.inputDigest

theorem metadata_agrees (plan : Plan) (incarnation : Incarnation) (sequence unixMicros : UInt64) :
    HeaderAgrees (metadataOf plan incarnation sequence unixMicros) plan where
  generation := rfl
  bindings := rfl
  collective := rfl
  kind := by
    change (UInt8.ofNat plan.kind.raw).toNat = _
    cases plan.kind <;> rfl
  inputDigest := rfl

-- The header repeats the plan's own fields, and the plan encodes back to the record.
structure Consistent (bytes : Bytes) (plan : Plan) (summary : StoredPlanSummary) : Prop where
  header : ∃ metadata, headerMetadata bytes = some metadata ∧ HeaderAgrees metadata plan
  reencoded : encodePlanRecord plan plan.inputDigest summary.writtenIncarnation summary.storedSequence
    summary.writtenUnixMicros = bytes

-- A record that was written for some plan carries the header of the plan it decodes to.
theorem encoded_metadata (bytes : Bytes) (plan written : Plan) (digest : Digest) (incarnation : Incarnation)
    (sequence unixMicros : UInt64) (metadata : RecordMetadata) (storable : Storable plan) (readable : Readable metadata)
    (record : bytes = recordWith plan metadata plan.inputDigest)
    (encoded : bytes = encodePlanRecord written digest incarnation sequence unixMicros)
    (same : Plan.encode plan = Plan.encode written) :
    metadata = metadataOf plan incarnation sequence unixMicros ∧ headerMetadata bytes = some metadata := by
  have small : written.collective.value.length < 2 ^ 32 := by
    have here := congrArg List.length encoded
    rw [record, record_with_length, encode_record_length] at here
    have short := readable_short metadata readable
    have room := storable.room
    simp only [kMaxPlanRecordBytes] at room
    omega
  have short : plan.collective.value.length ≤ 64 := storable.decodable.fits.collective
  obtain ⟨_, generation, bindings, collective, kind⟩ := encode_fields plan written (by omega) small same
  have inputs := encode_digest plan written same
  have header : metadataOf written incarnation sequence unixMicros = metadataOf plan incarnation sequence unixMicros := by
    simp only [metadataOf, generation, bindings, collective, kind, inputs]
  have again : bytes = recordWith plan (metadataOf plan incarnation sequence unixMicros) digest := by
    rw [encoded, encode_record_with, header]
    simp only [recordWith, headerWith, layoutOf, same]
  have found := header_metadata_with plan metadata plan.inputDigest readable
  have other := header_metadata_with plan _ digest (metadata_readable plan storable incarnation sequence unixMicros)
  rw [← again] at other
  rw [← record] at found
  exact ⟨Option.some.inj (found.symm.trans other), found⟩

theorem encoded_record_summary (plan written : Plan) (digest : Digest) (incarnation : Incarnation) (sequence unixMicros : UInt64)
    (summary : StoredPlanSummary)
    (decoded : decodePlanRecord (encodePlanRecord written digest incarnation sequence unixMicros) = .ok (plan, summary)) :
    summary = summaryOf plan incarnation sequence unixMicros
      (encodePlanRecord written digest incarnation sequence unixMicros).length := by
  obtain ⟨storable, metadata, readable, record, carried⟩ := decode_record_canonical _ plan summary decoded
  have same := (encoded_record_decodes _ _ _ _ _ _ _ decoded).2.1
  obtain ⟨rfl, _⟩ := encoded_metadata _ plan written digest incarnation sequence unixMicros metadata storable readable record rfl same
  exact carried

-- The decoder compares none of the header's copies with the plan: they agree in the records the encoder writes.
theorem record_consistent_iff (bytes : Bytes) (plan : Plan) (summary : StoredPlanSummary)
    (accepted : decodePlanRecord bytes = .ok (plan, summary)) :
    Consistent bytes plan summary ↔ ∃ written digest incarnation sequence unixMicros,
      bytes = encodePlanRecord written digest incarnation sequence unixMicros := by
  obtain ⟨storable, metadata, readable, record, carried⟩ := decode_record_canonical bytes plan summary accepted
  constructor
  · intro consistent
    exact ⟨plan, plan.inputDigest, _, _, _, consistent.reencoded.symm⟩
  · rintro ⟨written, digest, incarnation, sequence, unixMicros, encoded⟩
    have same : Plan.encode plan = Plan.encode written := by
      rw [encoded] at accepted
      exact (encoded_record_decodes _ _ _ _ _ _ _ accepted).2.1
    obtain ⟨header, found⟩ := encoded_metadata bytes plan written digest incarnation sequence unixMicros metadata storable readable
      record encoded same
    subst header
    refine ⟨⟨_, found, metadata_agrees plan incarnation sequence unixMicros⟩, ?_⟩
    rw [carried]
    exact record.symm

-- The smallest plan the decoder takes, and its record under a header of another generation.
def blankPlan : Plan := { id := ⟨Digest.ofBytes [1]⟩, inputDigest := Digest.ofBytes [1] }

theorem blank_storable : Storable blankPlan where
  decodable := {
    fits := {
      identity := rfl
      collective := Nat.zero_le _
      stageCount := by decide
      stages := ⟨by decide, by simp [blankPlan]⟩
      paths := ⟨by decide, by simp [blankPlan]⟩
      allocations := ⟨by decide, by simp [blankPlan]⟩ }
    counted := rfl
    nonzero := by decide
    size := by decide +kernel }
  room := by decide +kernel

def strayMetadata : RecordMetadata := { metadataOf blankPlan ⟨1⟩ 1 0 with generation := ⟨7⟩ }

theorem stray_readable : Readable strayMetadata := ⟨Nat.zero_le _, by decide⟩

theorem stray_record_iff : (∃ summary, decodePlanRecord (recordWith blankPlan strayMetadata blankPlan.inputDigest) = .ok (blankPlan, summary) ∧
    (Consistent (recordWith blankPlan strayMetadata blankPlan.inputDigest) blankPlan summary ↔
      ∃ written digest incarnation sequence unixMicros,
        recordWith blankPlan strayMetadata blankPlan.inputDigest = encodePlanRecord written digest incarnation sequence unixMicros)) :=
  ⟨_, decode_record_with blankPlan strayMetadata blank_storable stray_readable,
    record_consistent_iff _ _ _ (decode_record_with blankPlan strayMetadata blank_storable stray_readable)⟩

theorem record_inconsistent : ¬ ∀ (bytes : Bytes) (plan : Plan) (summary : StoredPlanSummary),
    decodePlanRecord bytes = .ok (plan, summary) → Consistent bytes plan summary := by
  intro claimed
  have consistent := claimed _ _ _ (decode_record_with blankPlan strayMetadata blank_storable stray_readable)
  obtain ⟨metadata, found, agrees⟩ := consistent.header
  rw [header_metadata_with blankPlan strayMetadata _ stray_readable, Option.some.injEq] at found
  subst found
  exact absurd agrees.generation (by decide)

-- The planner's records come back with the provenance they were given.
theorem planned_record_round_trip (input : BuiltRequest) (limits : PlannerLimits) (plan : Plan)
    (planned : (planCollective input.request limits).plan = some plan) (incarnation : Incarnation) (sequence unixMicros : UInt64)
    (nonzero : plan.inputDigest.isZero = false) (room : (Plan.encode plan).length + kRecordDigests ≤ kMaxPlanRecordBytes) :
    ∃ summary, decodePlanRecord (encodePlanRecord plan input.request.canonicalDigest incarnation sequence unixMicros) =
        .ok (plan, summary) ∧
      summary.id = plan.id ∧ summary.generation = plan.generation ∧ summary.bindings = plan.bindings ∧
      summary.collective = plan.collective ∧ summary.kind = plan.kind ∧ summary.writtenIncarnation = incarnation ∧
      summary.storedSequence = sequence ∧ summary.writtenUnixMicros = unixMicros ∧
      summary.recordBytes.toNat = (encodePlanRecord plan input.request.canonicalDigest incarnation sequence unixMicros).length := by
  have small : (Plan.encode plan).length ≤ kMaxPlanRecordBytes := by omega
  have storable : Storable plan := ⟨planned_decodable input limits plan planned nonzero small, room⟩
  have same : plan.inputDigest = input.request.canonicalDigest :=
    (ValidatePlan.validate_plan_ok.mp (planned_valid input planned)).identity.digest
  refine ⟨_, decode_encode_record plan _ incarnation sequence unixMicros storable same, rfl, rfl, rfl, rfl, rfl, rfl, rfl, rfl, ?_⟩
  have short : plan.collective.value.length ≤ 64 := storable.decodable.fits.collective
  have total := encode_record_length plan input.request.canonicalDigest incarnation sequence unixMicros
  simp only [kMaxPlanRecordBytes] at room
  simp only [summaryOf, UInt64.toNat_ofNat']
  exact Nat.mod_eq_of_lt (by omega)

theorem two_leaves_record : twoLeavesPlan.inputDigest.isZero = false ∧
    (Plan.encode twoLeavesPlan).length + kRecordDigests + 191 ≤ kMaxPlanRecordBytes := by
  rw [twoLeavesPlan, BuiltRequest.drafted]
  decide +kernel

theorem two_leaves_round_trip : ∃ summary,
    decodePlanRecord (encodePlanRecord twoLeavesPlan twoLeaves.request.canonicalDigest ⟨3⟩ 5 7) = .ok (twoLeavesPlan, summary) ∧
      summary.id = twoLeavesPlan.id ∧ summary.generation = twoLeavesPlan.generation ∧
      summary.bindings = twoLeavesPlan.bindings ∧ summary.collective = twoLeavesPlan.collective ∧
      summary.kind = twoLeavesPlan.kind ∧ summary.writtenIncarnation = ⟨3⟩ ∧ summary.storedSequence = 5 ∧
      summary.writtenUnixMicros = 7 ∧ summary.recordBytes.toNat =
        (encodePlanRecord twoLeavesPlan twoLeaves.request.canonicalDigest ⟨3⟩ 5 7).length :=
  planned_record_round_trip twoLeaves {} twoLeavesPlan two_leaves_plan ⟨3⟩ 5 7 two_leaves_record.1 (by have room := two_leaves_record.2; omega)

end PathPlanner.StoreRecord

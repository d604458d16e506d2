import PathPlanner.Wire.Payloads

set_option autoImplicit false

namespace PathPlanner

open Codec

namespace Wire

-- The bounds each payload decoder declares.
def CodeFits (code : UInt16) : Prop := isDefinedErrorCode code.toNat = true

def FreshnessFits (freshness : UInt8) : Prop := freshness.toNat ≤ kMaxFreshness

structure DenialPayload.Fits (value : DenialPayload) : Prop where
  code : CodeFits value.code
  kind : value.kind.toNat ≤ kMaxKind
  conflict : value.conflict.toNat ≤ kMaxConflict
  participant : value.participant.length ≤ kMaxLabelBytes
  message : value.message.length ≤ kMaxDetailBytes

structure PlanSummaryPayload.Fits (value : PlanSummaryPayload) : Prop where
  collective : value.collective.length ≤ kMaxLabelBytes
  freshness : FreshnessFits value.freshness

def HelloPayload.Fits (value : HelloPayload) : Prop := value.clientLabel.length ≤ kMaxLabelBytes

def HelloAckPayload.Fits (value : HelloAckPayload) : Prop := value.serverLabel.length ≤ kMaxLabelBytes

structure ErrorPayload.Fits (value : ErrorPayload) : Prop where
  code : CodeFits value.code
  message : value.message.length ≤ kMaxDetailBytes

def PlanRequestPayload.Fits (value : PlanRequestPayload) : Prop := value.requestText.length ≤ kMaxFramePayloadBytes

structure PlanResponsePayload.Fits (value : PlanResponsePayload) : Prop where
  code : CodeFits value.code
  record : value.planRecord.length ≤ kMaxPlanRecordBytes
  denials : value.denials.length ≤ kMaxDenials ∧ ∀ denial ∈ value.denials, DenialPayload.Fits denial
  explanation : value.explanation.length ≤ kMaxFramePayloadBytes

structure GetPlanResponsePayload.Fits (value : GetPlanResponsePayload) : Prop where
  code : CodeFits value.code
  record : value.planRecord.length ≤ kMaxPlanRecordBytes
  freshness : FreshnessFits value.freshness

structure ListPlansResponsePayload.Fits (value : ListPlansResponsePayload) : Prop where
  code : CodeFits value.code
  plans : value.plans.length ≤ kMaxStoreRecords ∧ ∀ summary ∈ value.plans, PlanSummaryPayload.Fits summary

def RevalidateRequestPayload.Fits (value : RevalidateRequestPayload) : Prop := value.requestText.length ≤ kMaxFramePayloadBytes

structure RevalidateResponsePayload.Fits (value : RevalidateResponsePayload) : Prop where
  code : CodeFits value.code
  freshness : FreshnessFits value.freshness
  detail : value.detail.length ≤ kMaxDetailBytes

theorem error_code_reads : Reads readErrorCode (fun code => ByteWriter.u16 code.toNat) CodeFits :=
  (ByteReader.word16_reads.checked _ _).convert (fun _ => rfl) (by simp [CodeFits])

theorem bounded_byte_reads (bound : Nat) (error : UInt8 → Status) :
    Reads (checked ByteReader.word8 (fun value => value.toNat > bound) error) (fun value => ByteWriter.u8 value.toNat)
      (fun value => value.toNat ≤ bound) :=
  (ByteReader.word8_reads.checked _ _).convert (fun _ => rfl) (by simp)

theorem freshness_reads : Reads readFreshness (fun value => ByteWriter.u8 value.toNat) FreshnessFits := bounded_byte_reads _ _

theorem conflict_reads : Reads readConflict (fun value => ByteWriter.u8 value.toNat) (·.toNat ≤ kMaxConflict) :=
  bounded_byte_reads _ _

theorem kind_reads : Reads readKind (fun value => ByteWriter.u8 value.toNat) (·.toNat ≤ kMaxKind) := bounded_byte_reads _ _

theorem bytes_reads (maxBytes : Nat) (fits : maxBytes < 2 ^ 32) :
    Reads (readBytes maxBytes) ByteWriter.string (·.length ≤ maxBytes) := by
  have lengths := ByteReader.u32_reads.checked (· > maxBytes) fun length =>
    ⟨.stringTooLong, ByteReader.tooLong "encoded byte string length " length maxBytes⟩
  have body := Reads.field always List.length lengths fun length => (ByteReader.raw_reads length).convert (fun _ => rfl) fun bytes =>
    (show (always bytes ∧ bytes.length = length) ∧ True ↔ _ by simp)
  refine body.convert (fun _ => rfl) fun bytes => ?_
  simp only [always_holds, true_and, and_true, not_lt, gt_iff_lt]
  omega

theorem hello_reads : Reads readHello encodeHello HelloPayload.Fits :=
  (Reads.field always HelloPayload.protocolVersion ByteReader.word16_reads fun protocolVersion =>
    .field _ HelloPayload.clientLabel (ByteReader.string_reads _ (by decide)) fun clientLabel =>
    .final _ HelloPayload.observedEpoch (fun observedEpoch => { protocolVersion, clientLabel, observedEpoch })
      ByteReader.word64_reads (by rintro _ ⟨⟩; simp [and_assoc])).convert (by simp [encodeHello]) (by simp [HelloPayload.Fits])

theorem hello_ack_reads : Reads readHelloAck encodeHelloAck HelloAckPayload.Fits :=
  (Reads.field always HelloAckPayload.protocolVersion ByteReader.word16_reads fun protocolVersion =>
    .field _ HelloAckPayload.sessionId ByteReader.word64_reads fun sessionId =>
    .field _ HelloAckPayload.epoch ByteReader.word64_reads fun epoch =>
    .field _ HelloAckPayload.incarnation ByteReader.word64_reads fun incarnation =>
    .field _ HelloAckPayload.serverLabel (ByteReader.string_reads _ (by decide)) fun serverLabel =>
    .field _ HelloAckPayload.maxFramePayload ByteReader.word32_reads fun maxFramePayload =>
    .final _ HelloAckPayload.maxPendingRequests (fun maxPendingRequests =>
        { protocolVersion, sessionId, epoch, incarnation, serverLabel, maxFramePayload, maxPendingRequests })
      ByteReader.word64_reads (by rintro _ ⟨⟩; simp [and_assoc])).convert (by simp [encodeHelloAck]) (by simp [HelloAckPayload.Fits])

theorem error_reads : Reads readError encodeError ErrorPayload.Fits :=
  (Reads.field always ErrorPayload.code error_code_reads fun code =>
    .field _ ErrorPayload.requestId ByteReader.word32_reads fun requestId =>
    .final _ ErrorPayload.message (fun message => { code, requestId, message }) (ByteReader.string_reads _ (by decide))
      (by rintro _ ⟨⟩; simp [and_assoc])).convert (by simp [encodeError])
    fun _ => ⟨fun fits => ⟨trivial, fits.code, trivial, fits.message⟩, fun ⟨_, code, _, message⟩ => ⟨code, message⟩⟩

theorem plan_request_reads : Reads readPlanRequest encodePlanRequest PlanRequestPayload.Fits :=
  (Reads.field always PlanRequestPayload.requestId ByteReader.word32_reads fun requestId =>
    .field _ PlanRequestPayload.includeExplanation ByteReader.boolean_reads fun includeExplanation =>
    .final _ PlanRequestPayload.requestText (fun requestText => { requestId, includeExplanation, requestText })
      (ByteReader.string_reads _ (by decide)) (by rintro _ ⟨⟩; simp [and_assoc])).convert (by simp [encodePlanRequest])
    (by simp [PlanRequestPayload.Fits])

theorem denial_reads : Reads decodeDenial encodeDenial DenialPayload.Fits :=
  (Reads.field always DenialPayload.code error_code_reads fun code =>
    .field _ DenialPayload.kind kind_reads fun kind =>
    .field _ DenialPayload.conflict conflict_reads fun conflict =>
    .field _ DenialPayload.logicalEdge ByteReader.word64_reads fun logicalEdge =>
    .field _ DenialPayload.participant (ByteReader.string_reads _ (by decide)) fun participant =>
    .final _ DenialPayload.message (fun message => { code, kind, conflict, logicalEdge, participant, message })
      (ByteReader.string_reads _ (by decide)) (by rintro _ ⟨⟩; simp [and_assoc])).convert (by simp [encodeDenial])
    fun _ => ⟨fun fits => ⟨trivial, fits.code, fits.kind, fits.conflict, trivial, fits.participant, fits.message⟩,
      fun ⟨_, code, kind, conflict, _, participant, message⟩ => ⟨code, kind, conflict, participant, message⟩⟩

theorem plan_response_reads : Reads readPlanResponse encodePlanResponse PlanResponsePayload.Fits :=
  (Reads.field always PlanResponsePayload.requestId ByteReader.word32_reads fun requestId =>
    .field _ PlanResponsePayload.code error_code_reads fun code =>
    .field _ PlanResponsePayload.hasPlan ByteReader.boolean_reads fun hasPlan =>
    .field _ PlanResponsePayload.planRecord (bytes_reads _ (by decide)) fun planRecord =>
    .field _ PlanResponsePayload.denials (ByteReader.counted_reads _ (by decide) denial_reads) fun denials =>
    .field _ PlanResponsePayload.explanation (ByteReader.string_reads _ (by decide)) fun explanation =>
    .final _ PlanResponsePayload.searchExpansions (fun searchExpansions =>
        { requestId, code, hasPlan, planRecord, denials, explanation, searchExpansions }) ByteReader.word64_reads
      (by rintro _ ⟨⟩; simp [and_assoc])).convert (by simp [encodePlanResponse])
    fun _ => ⟨fun fits => ⟨trivial, trivial, fits.code, trivial, fits.record, fits.denials, fits.explanation, trivial⟩,
      fun ⟨_, _, code, _, record, denials, explanation, _⟩ => ⟨code, record, denials, explanation⟩⟩

theorem get_plan_request_reads : Reads readGetPlanRequest encodeGetPlanRequest always :=
  (Reads.field always GetPlanRequestPayload.requestId ByteReader.word32_reads fun requestId =>
    .final _ GetPlanRequestPayload.planId (fun planId => { requestId, planId }) ByteReader.digest_reads
      (by rintro _ ⟨⟩; simp)).convert (fun _ => rfl) (by simp)

theorem get_plan_response_reads : Reads readGetPlanResponse encodeGetPlanResponse GetPlanResponsePayload.Fits :=
  (Reads.field always GetPlanResponsePayload.requestId ByteReader.word32_reads fun requestId =>
    .field _ GetPlanResponsePayload.code error_code_reads fun code =>
    .field _ GetPlanResponsePayload.hasPlan ByteReader.boolean_reads fun hasPlan =>
    .field _ GetPlanResponsePayload.planRecord (bytes_reads _ (by decide)) fun planRecord =>
    .final _ GetPlanResponsePayload.freshness (fun freshness => { requestId, code, hasPlan, planRecord, freshness })
      freshness_reads (by rintro _ ⟨⟩; simp [and_assoc])).convert (by simp [encodeGetPlanResponse])
    fun _ => ⟨fun fits => ⟨trivial, trivial, fits.code, trivial, fits.record, fits.freshness⟩,
      fun ⟨_, _, code, _, record, freshness⟩ => ⟨code, record, freshness⟩⟩

theorem list_plans_request_reads : Reads readListPlansRequest encodeListPlansRequest always :=
  (Reads.final always ListPlansRequestPayload.requestId (fun requestId => { requestId }) ByteReader.word32_reads
    (by rintro _ ⟨⟩; simp)).convert (fun _ => rfl) (by simp)

theorem plan_summary_reads : Reads decodePlanSummary encodePlanSummary PlanSummaryPayload.Fits :=
  (Reads.field always PlanSummaryPayload.planId ByteReader.digest_reads fun planId =>
    .field _ PlanSummaryPayload.generation ByteReader.word64_reads fun generation =>
    .field _ PlanSummaryPayload.collective (ByteReader.string_reads _ (by decide)) fun collective =>
    .field _ PlanSummaryPayload.kind ByteReader.word32_reads fun kind =>
    .field _ PlanSummaryPayload.storedSequence ByteReader.word64_reads fun storedSequence =>
    .field _ PlanSummaryPayload.recordBytes ByteReader.word64_reads fun recordBytes =>
    .final _ PlanSummaryPayload.freshness (fun freshness =>
        { planId, generation, collective, kind, storedSequence, recordBytes, freshness }) freshness_reads
      (by rintro _ ⟨⟩; simp [and_assoc])).convert (by simp [encodePlanSummary])
    fun _ => ⟨fun fits => ⟨trivial, trivial, trivial, fits.collective, trivial, trivial, trivial, fits.freshness⟩,
      fun ⟨_, _, _, collective, _, _, _, freshness⟩ => ⟨collective, freshness⟩⟩

theorem list_plans_response_reads : Reads readListPlansResponse encodeListPlansResponse ListPlansResponsePayload.Fits :=
  (Reads.field always ListPlansResponsePayload.requestId ByteReader.word32_reads fun requestId =>
    .field _ ListPlansResponsePayload.code error_code_reads fun code =>
    .final _ ListPlansResponsePayload.plans (fun plans => { requestId, code, plans })
      (ByteReader.counted_reads _ (by decide) plan_summary_reads) (by rintro _ ⟨⟩; simp [and_assoc])).convert
    (by simp [encodeListPlansResponse])
    fun _ => ⟨fun fits => ⟨trivial, trivial, fits.code, fits.plans⟩, fun ⟨_, _, code, plans⟩ => ⟨code, plans⟩⟩

theorem revalidate_request_reads : Reads readRevalidateRequest encodeRevalidateRequest RevalidateRequestPayload.Fits :=
  (Reads.field always RevalidateRequestPayload.requestId ByteReader.word32_reads fun requestId =>
    .field _ RevalidateRequestPayload.planId ByteReader.digest_reads fun planId =>
    .final _ RevalidateRequestPayload.requestText (fun requestText => { requestId, planId, requestText })
      (ByteReader.string_reads _ (by decide)) (by rintro _ ⟨⟩; simp [and_assoc])).convert (by simp [encodeRevalidateRequest])
    (by simp [RevalidateRequestPayload.Fits])

theorem revalidate_response_reads : Reads readRevalidateResponse encodeRevalidateResponse RevalidateResponsePayload.Fits :=
  (Reads.field always RevalidateResponsePayload.requestId ByteReader.word32_reads fun requestId =>
    .field _ RevalidateResponsePayload.code error_code_reads fun code =>
    .field _ RevalidateResponsePayload.stillValid ByteReader.boolean_reads fun stillValid =>
    .field _ RevalidateResponsePayload.freshness freshness_reads fun freshness =>
    .field _ RevalidateResponsePayload.currentInputDigest ByteReader.digest_reads fun currentInputDigest =>
    .final _ RevalidateResponsePayload.detail (fun detail =>
        { requestId, code, stillValid, freshness, currentInputDigest, detail }) (ByteReader.string_reads _ (by decide))
      (by rintro _ ⟨⟩; simp [and_assoc])).convert (by simp [encodeRevalidateResponse])
    fun _ => ⟨fun fits => ⟨trivial, trivial, fits.code, trivial, fits.freshness, trivial, fits.detail⟩,
      fun ⟨_, _, code, _, freshness, _, detail⟩ => ⟨code, freshness, detail⟩⟩

theorem shutdown_request_reads : Reads readShutdownRequest encodeShutdownRequest always :=
  (Reads.field always ShutdownRequestPayload.requestId ByteReader.word32_reads fun requestId =>
    .final _ ShutdownRequestPayload.expectedEpoch (fun expectedEpoch => { requestId, expectedEpoch }) ByteReader.word64_reads
      (by rintro _ ⟨⟩; simp)).convert (fun _ => rfl) (by simp)

-- Decoding undoes encoding inside the bounds, and nothing else is accepted.
structure Inverse {α : Type} (encode : α → Bytes) (decode : Bytes → Result α) (fits : α → Prop) : Prop where
  decodes : ∀ value, fits value → decode (encode value) = .ok value
  canonical : ∀ bytes value, decode bytes = .ok value → fits value ∧ encode value = bytes

theorem Inverse.of_reads {α : Type} {read : ByteReader α} {encode : α → Bytes} {fits : α → Prop} (reads : Reads read encode fits) :
    Inverse encode (ByteReader.complete read) fits where
  decodes value inside := ByteReader.complete_accepts reads value inside
  canonical bytes value accepted := by
    obtain ⟨inside, same⟩ := ByteReader.complete_canonical reads bytes value accepted
    exact ⟨inside, same.symm⟩

structure PayloadCodecs : Prop where
  hello : Inverse encodeHello decodeHello HelloPayload.Fits
  helloAck : Inverse encodeHelloAck decodeHelloAck HelloAckPayload.Fits
  error : Inverse encodeError decodeError ErrorPayload.Fits
  planRequest : Inverse encodePlanRequest decodePlanRequest PlanRequestPayload.Fits
  planResponse : Inverse encodePlanResponse decodePlanResponse PlanResponsePayload.Fits
  getPlanRequest : Inverse encodeGetPlanRequest decodeGetPlanRequest always
  getPlanResponse : Inverse encodeGetPlanResponse decodeGetPlanResponse GetPlanResponsePayload.Fits
  listPlansRequest : Inverse encodeListPlansRequest decodeListPlansRequest always
  listPlansResponse : Inverse encodeListPlansResponse decodeListPlansResponse ListPlansResponsePayload.Fits
  revalidateRequest : Inverse encodeRevalidateRequest decodeRevalidateRequest RevalidateRequestPayload.Fits
  revalidateResponse : Inverse encodeRevalidateResponse decodeRevalidateResponse RevalidateResponsePayload.Fits
  shutdownRequest : Inverse encodeShutdownRequest decodeShutdownRequest always

theorem payload_codecs_inverse : PayloadCodecs where
  hello := .of_reads hello_reads
  helloAck := .of_reads hello_ack_reads
  error := .of_reads error_reads
  planRequest := .of_reads plan_request_reads
  planResponse := .of_reads plan_response_reads
  getPlanRequest := .of_reads get_plan_request_reads
  getPlanResponse := .of_reads get_plan_response_reads
  listPlansRequest := .of_reads list_plans_request_reads
  listPlansResponse := .of_reads list_plans_response_reads
  revalidateRequest := .of_reads revalidate_request_reads
  revalidateResponse := .of_reads revalidate_response_reads
  shutdownRequest := .of_reads shutdown_request_reads

end Wire

end PathPlanner

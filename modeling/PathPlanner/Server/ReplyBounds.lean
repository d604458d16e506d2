import PathPlanner.Dsl.Reader
import PathPlanner.Server.Replies

set_option autoImplicit false

namespace PathPlanner

open Checks Codec PlanCollective PlanStore StoreFiles StoreRecord Wire

namespace ReplyPayload

-- What the decoder that matches the reply's frame makes of its payload.
def redecoded : ReplyPayload → Result ReplyPayload
  | .helloAck value => (decodeHelloAck (encodeHelloAck value)).map .helloAck
  | .pong => .ok .pong
  | .error value => (decodeError (encodeError value)).map .error
  | .planResponse value => (decodePlanResponse (encodePlanResponse value)).map .planResponse
  | .getPlanResponse value => (decodeGetPlanResponse (encodeGetPlanResponse value)).map .getPlanResponse
  | .listPlansResponse value => (decodeListPlansResponse (encodeListPlansResponse value)).map .listPlansResponse
  | .revalidateResponse value => (decodeRevalidateResponse (encodeRevalidateResponse value)).map .revalidateResponse
  | .shutdownAck value => (decodeShutdownRequest (encodeShutdownRequest value)).map .shutdownAck

theorem mapped_iff {α : Type} {read : ByteReader α} {encode : α → Bytes} {fits : α → Prop} (reads : Reads read encode fits)
    (wrap : α → ReplyPayload) (wraps : ∀ left right, wrap left = wrap right → left = right) (value : α) :
    (ByteReader.complete read (encode value)).map wrap = .ok (wrap value) ↔ fits value := by
  have inverse := Inverse.of_reads reads
  constructor
  · intro same
    cases decoded : ByteReader.complete read (encode value) with
    | error status =>
        rw [decoded] at same
        cases same
    | ok found =>
        rw [decoded] at same
        rw [wraps found value (Except.ok.inj same)] at decoded
        exact (inverse.canonical _ value decoded).1
  · intro inside
    rw [inverse.decodes value inside]
    rfl

theorem redecoded_iff (reply : ReplyPayload) : reply.redecoded = .ok reply ↔ reply.Fits := by
  cases reply with
  | helloAck value => exact mapped_iff hello_ack_reads .helloAck (fun _ _ => helloAck.inj) value
  | pong => exact iff_of_true rfl trivial
  | error value => exact mapped_iff error_reads .error (fun _ _ => error.inj) value
  | planResponse value => exact mapped_iff plan_response_reads .planResponse (fun _ _ => planResponse.inj) value
  | getPlanResponse value => exact mapped_iff get_plan_response_reads .getPlanResponse (fun _ _ => getPlanResponse.inj) value
  | listPlansResponse value => exact mapped_iff list_plans_response_reads .listPlansResponse (fun _ _ => listPlansResponse.inj) value
  | revalidateResponse value =>
      exact mapped_iff revalidate_response_reads .revalidateResponse (fun _ _ => revalidateResponse.inj) value
  | shutdownAck value => exact mapped_iff shutdown_request_reads .shutdownAck (fun _ _ => shutdownAck.inj) value

-- The client is given the value the coordinator encoded.
def GivenBack (reply : ReplyPayload) : Prop := reply.redecoded = .ok reply

theorem redecoded_fits (reply : ReplyPayload) : reply.GivenBack ↔ reply.Fits := redecoded_iff reply

end ReplyPayload

namespace Coordinator

section Bounds

variable (texts : TextForms) (env : ServerEnvironment) (dir : Directory) (coordinator : Coordinator) (session : Session)
  (frame : Frame)

-- The bytes of a plan's record, whatever its provenance.
def recordBytes (plan : Plan) : Nat := 127 + plan.collective.value.length + ((Plan.encode plan).length + kRecordDigests)

-- The texts, records and lists a frame brings out, within the bounds the client's decoders declare.
structure Decodable : Prop where
  greeting : ∀ hello, Greets session frame hello → coordinator.config.label.length ≤ kMaxLabelBytes
  rejected : ∀ payload status, Asks .planRequest decodePlanRequest session frame payload →
    texts.parseRequestText payload.requestText = .error status → status.detail.length ≤ kMaxDetailBytes
  denied : ∀ payload request, Asks .planRequest decodePlanRequest session frame payload →
    texts.parseRequestText payload.requestText = .ok request → (planCollective request {}).plan = none →
    (∀ denial ∈ (planCollective request {}).denials.take kMaxDenials,
      denial.participant.value.length ≤ kMaxLabelBytes ∧ denial.message.length ≤ kMaxDetailBytes) ∧
    (payload.includeExplanation = true → (texts.explainDenials (planCollective request {})).length ≤ kMaxFramePayloadBytes)
  planned : ∀ payload request plan, Asks .planRequest decodePlanRequest session frame payload →
    texts.parseRequestText payload.requestText = .ok request → (planCollective request {}).plan = some plan →
    recordBytes plan ≤ kMaxPlanRecordBytes ∧
    (∀ store status, coordinator.store = some store → (store.put env.files plan request).result = .error status →
      (persistFailure status).message.length ≤ kMaxDetailBytes) ∧
    (payload.includeExplanation = true → (texts.explainPlan plan request).length ≤ kMaxFramePayloadBytes)
  fetched : ∀ payload store plan, Asks .getPlanRequest decodeGetPlanRequest session frame payload → coordinator.store = some store →
    store.get env.files dir ⟨payload.planId⟩ = .ok plan → recordBytes plan ≤ kMaxPlanRecordBytes
  listed : ∀ payload store summaries, Asks .listPlansRequest decodeListPlansRequest session frame payload →
    coordinator.store = some store → store.list = .ok summaries →
    summaries.length ≤ kMaxStoreRecords ∧ ∀ summary ∈ summaries, summary.collective.value.length ≤ kMaxLabelBytes
  unreadable : ∀ payload status, Asks .revalidateRequest decodeRevalidateRequest session frame payload →
    texts.parseRequestText payload.requestText = .error status → status.detail.length ≤ kMaxDetailBytes
  refused : ∀ payload request store status, Asks .revalidateRequest decodeRevalidateRequest session frame payload →
    texts.parseRequestText payload.requestText = .ok request → coordinator.store = some store →
    store.revalidate env.files dir ⟨payload.planId⟩ request = .error status → status.detail.length ≤ kMaxDetailBytes
  assessed : ∀ payload request store result, Asks .revalidateRequest decodeRevalidateRequest session frame payload →
    texts.parseRequestText payload.requestText = .ok request → coordinator.store = some store →
    store.revalidate env.files dir ⟨payload.planId⟩ request = .ok result → result.detail.length ≤ kMaxDetailBytes

theorem denial_payload_fits (denial : DenialDetail) : (denialPayload denial).Fits ↔
    denial.participant.value.length ≤ kMaxLabelBytes ∧ denial.message.length ≤ kMaxDetailBytes := by
  constructor
  · intro fits
    exact ⟨fits.participant, fits.message⟩
  · rintro ⟨participant, message⟩
    refine ⟨code_word_fits denial.code, ?_, ?_, participant, message⟩
    · change (UInt8.ofNat denial.kind.raw).toNat ≤ kMaxKind
      cases denial.kind <;> decide
    · change (UInt8.ofNat denial.conflict.raw).toNat ≤ kMaxConflict
      cases denial.conflict <;> decide

theorem rejected_fits (payload : PlanRequestPayload) (status : Status) :
    (rejectedResponse payload status).Fits ↔ status.detail.length ≤ kMaxDetailBytes := by
  constructor
  · intro fits
    exact (fits.denials.2 _ (List.mem_singleton.mpr rfl)).message
  · intro short
    have single : (rejectedResponse payload status).denials.length = 1 := rfl
    refine ⟨code_word_fits status.code, Nat.zero_le _, ⟨by rw [single]; decide, ?_⟩, ?_⟩
    · intro denial listed
      rw [List.mem_singleton.mp listed]
      refine ⟨code_word_fits status.code, ?_, Nat.zero_le _, Nat.zero_le _, short⟩
      dsimp only
      split <;> decide
    · have symbol := to_text_length status
      have words : (text "request rejected: ").length = 18 ∧ (text "\n").length = 1 := by decide
      simp only [rejectedResponse, kMaxDetailBytes, kMaxFramePayloadBytes] at short ⊢
      split
      · simp only [List.length_append, words]
        omega
      · exact Nat.zero_le _

theorem denied_fits (payload : PlanRequestPayload) (outcome : PlanningOutcome) : (deniedResponse texts payload outcome).Fits ↔
    (∀ denial ∈ outcome.denials.take kMaxDenials,
      denial.participant.value.length ≤ kMaxLabelBytes ∧ denial.message.length ≤ kMaxDetailBytes) ∧
    (payload.includeExplanation = true → (texts.explainDenials outcome).length ≤ kMaxFramePayloadBytes) := by
  have explained : (deniedResponse texts payload outcome).explanation.length ≤ kMaxFramePayloadBytes ↔
      (payload.includeExplanation = true → (texts.explainDenials outcome).length ≤ kMaxFramePayloadBytes) := by
    cases asked : payload.includeExplanation <;> simp [deniedResponse, asked]
  rw [← explained]
  constructor
  · intro fits
    refine ⟨fun denial listed => ?_, fits.explanation⟩
    exact (denial_payload_fits denial).mp (fits.denials.2 _ (List.mem_map_of_mem listed))
  · rintro ⟨short, explanation⟩
    refine ⟨code_word_fits outcome.primaryCode, Nat.zero_le _, ⟨?_, ?_⟩, explanation⟩
    · exact (List.length_map _).trans_le (List.length_take_le _ _)
    · intro denial listed
      obtain ⟨source, taken, rfl⟩ := List.mem_map.mp listed
      exact (denial_payload_fits source).mpr (short source taken)

theorem record_bytes (request : PlanningRequest) (plan : Plan) : (plannedRecord env coordinator request plan).length = recordBytes plan :=
  encode_record_length _ _ _ _ _

theorem served_bytes (plan : Plan) : (servedRecord env coordinator plan).length = recordBytes plan := encode_record_length _ _ _ _ _

theorem persistence_fits (request : PlanningRequest) (plan : Plan) :
    (∀ denial ∈ persistence env coordinator request plan, denial.Fits) ↔
      ∀ store status, coordinator.store = some store → (store.put env.files plan request).result = .error status →
        (persistFailure status).message.length ≤ kMaxDetailBytes := by
  have failure (status : Status) : (persistFailure status).Fits ↔ (persistFailure status).message.length ≤ kMaxDetailBytes :=
    ⟨fun fits => fits.message, fun short => ⟨code_word_fits status.code, show (UInt8.ofNat 4).toNat ≤ 4 by decide, Nat.zero_le _,
      Nat.zero_le _, short⟩⟩
  rw [persistence]
  constructor
  · intro fits store status held failed
    rw [held] at fits
    dsimp only at fits
    rw [failed] at fits
    exact (failure status).mp (fits _ (List.mem_singleton.mpr rfl))
  · intro short denial listed
    cases held : coordinator.store with
    | none => simp [held] at listed
    | some store =>
        rw [held] at listed
        dsimp only at listed
        cases failed : (store.put env.files plan request).result with
        | ok done => simp [failed] at listed
        | error status =>
            rw [failed] at listed
            rw [List.mem_singleton.mp listed]
            exact (failure status).mpr (short store status held failed)

theorem planned_fits (payload : PlanRequestPayload) (request : PlanningRequest) (outcome : PlanningOutcome) (plan : Plan) :
    (plannedResponse texts env coordinator payload request outcome plan (persistence env coordinator request plan)).Fits ↔
      recordBytes plan ≤ kMaxPlanRecordBytes ∧
      (∀ store status, coordinator.store = some store → (store.put env.files plan request).result = .error status →
        (persistFailure status).message.length ≤ kMaxDetailBytes) ∧
      (payload.includeExplanation = true → (texts.explainPlan plan request).length ≤ kMaxFramePayloadBytes) := by
  have explained : (if payload.includeExplanation then texts.explainPlan plan request else []).length ≤ kMaxFramePayloadBytes ↔
      (payload.includeExplanation = true → (texts.explainPlan plan request).length ≤ kMaxFramePayloadBytes) := by
    cases payload.includeExplanation <;> simp
  have few : (persistence env coordinator request plan).length ≤ kMaxDenials := by
    have single : (persistence env coordinator request plan).length ≤ 1 := by
      rw [persistence]
      split
      · exact Nat.zero_le _
      · split <;> simp
    exact single.trans (by decide)
  rw [← persistence_fits, ← explained, ← record_bytes env coordinator request plan]
  constructor
  · intro fits
    exact ⟨fits.record, fits.denials.2, fits.explanation⟩
  · rintro ⟨record, denials, explanation⟩
    exact ⟨code_word_fits .ok, record, ⟨few, denials⟩, explanation⟩

theorem listed_fits (payload : ListPlansRequestPayload) (store : PlanStore) (summaries : List StoredPlanSummary)
    (found : store.list = .ok summaries) : (listPlansResponse payload store).Fits ↔
      summaries.length ≤ kMaxStoreRecords ∧ ∀ summary ∈ summaries, summary.collective.value.length ≤ kMaxLabelBytes := by
  have listing : listPlansResponse payload store =
      { requestId := payload.requestId, code := codeWord .ok, plans := summaries.map summaryPayload } := by
    rw [listPlansResponse, found]
  rw [listing]
  constructor
  · intro fits
    have few := fits.plans.1
    rw [List.length_map] at few
    exact ⟨few, fun summary listed => (fits.plans.2 _ (List.mem_map_of_mem listed)).collective⟩
  · rintro ⟨few, short⟩
    refine ⟨code_word_fits .ok, by rwa [List.length_map], fun summary listed => ?_⟩
    obtain ⟨source, taken, rfl⟩ := List.mem_map.mp listed
    exact ⟨short source taken, freshness_byte_fits .unverified⟩

theorem refused_fits (payload : RevalidateRequestPayload) (status : Status) :
    (refusedRevalidation payload status).Fits ↔ status.detail.length ≤ kMaxDetailBytes :=
  ⟨fun fits => fits.detail, fun short => ⟨code_word_fits status.code, Nat.zero_le _, short⟩⟩

theorem assessed_fits (payload : RevalidateRequestPayload) (result : RevalidationResult) :
    (revalidatedResponse payload result).Fits ↔ result.detail.length ≤ kMaxDetailBytes :=
  ⟨fun fits => fits.detail, fun short => ⟨code_word_fits result.code, freshness_byte_fits result.freshness, short⟩⟩

theorem fetched_fits (payload : GetPlanRequestPayload) (store : PlanStore) (plan : Plan)
    (found : store.get env.files dir ⟨payload.planId⟩ = .ok plan) :
    (getPlanResponse env dir coordinator payload store).Fits ↔ recordBytes plan ≤ kMaxPlanRecordBytes := by
  rw [getPlanResponse, found, ← served_bytes env coordinator plan]
  exact ⟨fun fits => fits.record, fun small => ⟨code_word_fits .ok, small, freshness_byte_fits .unverified⟩⟩

-- A frame's reply decodes to what was encoded exactly where all that it brings out is within the decoders' bounds.
theorem replies_given_back_iff (bytes : Bytes) (decoded : decodeFrame bytes = .ok frame) :
    (answerFrame texts env dir coordinator session frame).reply.GivenBack ↔
      Decodable texts env dir coordinator session frame := by
  have small : frame.payload.length ≤ kMaxFramePayloadBytes := by
    obtain ⟨raw, type, judged, _, length, _⟩ := (decode_frame_ok bytes frame).mp decoded
    rw [length]
    exact judged.length
  rw [ReplyPayload.redecoded_fits, answer_meets_iff ReplyPayload.Fits ReplyPayload.plain_fits small]
  constructor
  · intro fits
    exact {
      greeting hello greets := fits _ (.greeting hello greets)
      rejected payload status asks broken := (rejected_fits payload status).mp (fits _ (.rejected payload status asks broken))
      denied payload request asks parsed barred := (denied_fits texts payload _).mp (fits _ (.denied payload request asks parsed barred))
      planned payload request plan asks parsed planned :=
        (planned_fits texts env coordinator payload request _ plan).mp (fits _ (.planned payload request plan asks parsed planned))
      fetched payload store plan asks held found :=
        (fetched_fits env dir coordinator payload store plan found).mp (fits _ (.fetched payload store plan asks held found))
      listed payload store summaries asks held found :=
        (listed_fits payload store summaries found).mp (fits _ (.listed payload store summaries asks held found))
      unreadable payload status asks broken := (refused_fits payload status).mp (fits _ (.unreadable payload status asks broken))
      refused payload request store status asks parsed held failed :=
        (refused_fits payload status).mp (fits _ (.refused payload request store status asks parsed held failed))
      assessed payload request store result asks parsed held found :=
        (assessed_fits payload result).mp (fits _ (.assessed payload request store result asks parsed held found)) }
  · intro inside reply substance
    cases substance with
    | greeting hello greets => exact inside.greeting hello greets
    | rejected payload status asks broken => exact (rejected_fits payload status).mpr (inside.rejected payload status asks broken)
    | denied payload request asks parsed barred =>
        exact (denied_fits texts payload _).mpr (inside.denied payload request asks parsed barred)
    | planned payload request plan asks parsed planned =>
        exact (planned_fits texts env coordinator payload request _ plan).mpr (inside.planned payload request plan asks parsed planned)
    | fetched payload store plan asks held found =>
        exact (fetched_fits env dir coordinator payload store plan found).mpr (inside.fetched payload store plan asks held found)
    | listed payload store summaries asks held found =>
        exact (listed_fits payload store summaries found).mpr (inside.listed payload store summaries asks held found)
    | unreadable payload status asks broken => exact (refused_fits payload status).mpr (inside.unreadable payload status asks broken)
    | refused payload request store status asks parsed held failed =>
        exact (refused_fits payload status).mpr (inside.refused payload request store status asks parsed held failed)
    | assessed payload request store result asks parsed held found =>
        exact (assessed_fits payload result).mpr (inside.assessed payload request store result asks parsed held found)

-- A rejection whose detail is too long is not read back.
theorem rejected_lost (payload : PlanRequestPayload) (status : Status) (asks : Asks .planRequest decodePlanRequest session frame payload)
    (broken : texts.parseRequestText payload.requestText = .error status) (long : ¬ status.detail.length ≤ kMaxDetailBytes) :
    ¬ (answerFrame texts env dir coordinator session frame).reply.GivenBack := by
  rw [@substance_answered texts env dir coordinator session frame _ (.rejected payload status asks broken),
    ReplyPayload.redecoded_fits]
  exact mt (rejected_fits payload status).mp long

end Bounds

namespace LongKeyword

-- The code's own reader of request texts; nothing is explained.
def readerTexts : TextForms where
  parseRequestSpec := Dsl.parseRequestSpec
  explainPlan _ _ := []
  explainDenials _ := []

-- A header line whose keyword is six hundred bytes long.
def longKeyword : Bytes := text "cpath-request 1\n" ++ List.replicate 600 120 ++ text " 1\n"

def greeted : Session := { id := 1, handshaken := true }

def longRequest : PlanRequestPayload := { requestId := 1, requestText := longKeyword }

def longHeader : FrameHeader := { type := .planRequest, sequence := 1, sessionId := 1, requestId := 1 }

def longFrame : Frame := ⟨encodedHeader longHeader (encodePlanRequest longRequest).length, encodePlanRequest longRequest⟩

def bare : Directory := fun _ => none

def coordinator : Coordinator := {}

def calm : ServerEnvironment := { files := quietEnvironment [] 0, micros := 0, sendFault := none }

def longBytes : Bytes := encodeFrame longHeader (encodePlanRequest longRequest)

theorem long_frame_decoded : decodeFrame longBytes = .ok longFrame :=
  decode_encode_frame longHeader (encodePlanRequest longRequest) (by decide +kernel)

theorem long_asked : Asks .planRequest decodePlanRequest greeted longFrame longRequest where
  admitted := ⟨fun stale => absurd stale.1 Bool.false_ne_true, rfl, rfl⟩
  read := (Inverse.of_reads plan_request_reads).decodes longRequest (show longKeyword.length ≤ kMaxFramePayloadBytes by decide +kernel)

def tooLong {α : Type} (outcome : Result α) : Bool :=
  match outcome with
  | .ok _ => false
  | .error status => kMaxDetailBytes < status.detail.length

theorem long_rejected : ∃ status, readerTexts.parseRequestText longRequest.requestText = .error status ∧
    ¬ status.detail.length ≤ kMaxDetailBytes := by
  have quoted : tooLong (readerTexts.parseRequestText longRequest.requestText) = true := by decide +kernel
  cases read : readerTexts.parseRequestText longRequest.requestText with
  | ok request =>
      rw [read] at quoted
      cases quoted
  | error status =>
      rw [read] at quoted
      exact ⟨status, rfl, not_le.mpr (of_decide_eq_true quoted)⟩

end LongKeyword

open LongKeyword in
theorem long_keyword_lost : ¬ (answerFrame readerTexts calm bare coordinator greeted longFrame).reply.GivenBack := by
  obtain ⟨status, broken, long⟩ := long_rejected
  apply mt (replies_given_back_iff readerTexts calm bare coordinator greeted longFrame longBytes long_frame_decoded).mp
  exact fun inside => long (inside.rejected longRequest status long_asked broken)

-- The line error quotes the whole keyword, and the client's decoder refuses the denial that carries it.
open LongKeyword in
theorem reply_not_given_back : ¬ ∀ (env : ServerEnvironment) (dir : Directory) (coordinator : Coordinator) (session : Session)
    (bytes : Bytes) (frame : Frame), decodeFrame bytes = .ok frame →
    (answerFrame readerTexts env dir coordinator session frame).reply.GivenBack := by
  intro claimed
  obtain ⟨status, broken, long⟩ := long_rejected
  apply rejected_lost readerTexts calm bare coordinator greeted longFrame longRequest status long_asked broken long
  exact claimed calm bare coordinator greeted longBytes longFrame long_frame_decoded

end Coordinator

end PathPlanner

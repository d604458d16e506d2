import PathPlanner.Server.ReplyBounds

set_option autoImplicit false

namespace PathPlanner

open Checks Codec PlanCollective PlanStore StoreFiles StoreRecord Wire

namespace Coordinator

section Frames

variable (texts : TextForms) (env : ServerEnvironment) (dir : Directory) (coordinator : Coordinator) (session : Session)
  (frame : Frame)

-- One frame that carries the reply was written, or the session ends with an error.
def AnsweredOnce : Prop :=
  let reply := (answerFrame texts env dir coordinator session frame).reply
  let handled := handleFrame texts env dir coordinator session frame
  (handled.written ≠ [] ∧ ∃ header, decodeFrame handled.written = .ok ⟨header, reply.encode⟩ ∧ header.type = reply.type) ∨
    ∃ fault, handled.status = .error fault

theorem frame_bytes_filled (header : FrameHeader) (payload : Bytes) (small : payload.length ≤ kMaxFramePayloadBytes) :
    encodeFrame header payload ≠ [] := by
  intro empty
  have decoded := decode_encode_frame header payload small
  rw [empty] at decoded
  cases decoded

theorem write_frame_failed (header : FrameHeader) (payload : Bytes) (filled : encodeFrame header payload ≠ []) (fault : Status)
    (sends : env.sendFault = some fault) : writeFrame env header payload = (.error fault, []) := by
  rw [writeFrame, sends]
  cases bytes : encodeFrame header payload with
  | nil => exact absurd bytes filled
  | cons first rest => rfl

theorem write_frame_sent (header : FrameHeader) (payload : Bytes) (sends : env.sendFault = none) :
    writeFrame env header payload = (.ok (), encodeFrame header payload) := by
  rw [writeFrame, sends]
  cases encodeFrame header payload <;> rfl

-- A reply that outgrows its frame is reported as sent, and nothing is written.
theorem answered_once_iff : AnsweredOnce texts env dir coordinator session frame ↔
    (answerFrame texts env dir coordinator session frame).reply.encode.length ≤ kMaxFramePayloadBytes := by
  unfold AnsweredOnce handleFrame
  dsimp only
  generalize answerFrame texts env dir coordinator session frame = answer
  generalize outbound : replyHeaderFor coordinator session frame answer.reply.type = header
  have typed : header.type = answer.reply.type := by rw [← outbound, replyHeaderFor]
  constructor
  · intro answered
    by_contra large
    have nothing : writeFrame env header answer.reply.encode = (.ok (), []) := by
      rw [writeFrame, encodeFrame, if_pos (not_le.mp large)]
    rw [nothing] at answered
    cases answered with
    | inl written => exact written.1 rfl
    | inr failed =>
        obtain ⟨fault, failed⟩ := failed
        cases failed
  · intro small
    have filled := frame_bytes_filled header answer.reply.encode small
    have decoded := decode_encode_frame header answer.reply.encode small
    cases sends : env.sendFault with
    | some fault =>
        rw [write_frame_failed env header answer.reply.encode filled fault sends]
        exact Or.inr ⟨fault, rfl⟩
    | none =>
        rw [write_frame_sent env header answer.reply.encode sends]
        exact Or.inl ⟨filled, _, decoded, typed⟩

def denialBytes (participant message : Bytes) : Nat := 20 + participant.length + message.length

def responseBytes (record denials explanation : Nat) : Nat := 27 + record + denials + explanation

def rejectionBytes (payload : PlanRequestPayload) (status : Status) : Nat :=
  responseBytes 0 (denialBytes [] status.detail) (if payload.includeExplanation then 19 + status.toText.length else 0)

def deniedBytes (payload : PlanRequestPayload) (outcome : PlanningOutcome) : Nat :=
  responseBytes 0 ((outcome.denials.take kMaxDenials).map fun denial => denialBytes denial.participant.value denial.message).sum
    (if payload.includeExplanation then (texts.explainDenials outcome).length else 0)

-- The bytes of the denial beside a plan, which there is where the store refuses it.
def persistenceBytes (request : PlanningRequest) (plan : Plan) : Nat :=
  match coordinator.store with
  | none => 0
  | some store =>
      match (store.put env.files plan request).result with
      | .ok _ => 0
      | .error status => denialBytes [] (text "the plan was produced but could not be persisted: " ++ status.toText)

def plannedBytes (payload : PlanRequestPayload) (request : PlanningRequest) (plan : Plan) : Nat :=
  responseBytes (recordBytes plan) (persistenceBytes env coordinator request plan)
    (if payload.includeExplanation then (texts.explainPlan plan request).length else 0)

def listingBytes (summaries : List StoredPlanSummary) : Nat :=
  10 + (summaries.map fun summary => 65 + summary.collective.value.length).sum

-- The texts, records and lists a frame brings out leave room for themselves in a frame.
structure Roomy : Prop where
  greeting : ∀ hello, Greets session frame hello → 42 + coordinator.config.label.length ≤ kMaxFramePayloadBytes
  rejected : ∀ payload status, Asks .planRequest decodePlanRequest session frame payload →
    texts.parseRequestText payload.requestText = .error status → rejectionBytes payload status ≤ kMaxFramePayloadBytes
  denied : ∀ payload request, Asks .planRequest decodePlanRequest session frame payload →
    texts.parseRequestText payload.requestText = .ok request → (planCollective request {}).plan = none →
    deniedBytes texts payload (planCollective request {}) ≤ kMaxFramePayloadBytes
  planned : ∀ payload request plan, Asks .planRequest decodePlanRequest session frame payload →
    texts.parseRequestText payload.requestText = .ok request → (planCollective request {}).plan = some plan →
    plannedBytes texts env coordinator payload request plan ≤ kMaxFramePayloadBytes
  fetched : ∀ payload store plan, Asks .getPlanRequest decodeGetPlanRequest session frame payload → coordinator.store = some store →
    store.get env.files dir ⟨payload.planId⟩ = .ok plan → 12 + recordBytes plan ≤ kMaxFramePayloadBytes
  listed : ∀ payload store summaries, Asks .listPlansRequest decodeListPlansRequest session frame payload →
    coordinator.store = some store → store.list = .ok summaries → listingBytes summaries ≤ kMaxFramePayloadBytes
  unreadable : ∀ payload status, Asks .revalidateRequest decodeRevalidateRequest session frame payload →
    texts.parseRequestText payload.requestText = .error status → 44 + status.detail.length ≤ kMaxFramePayloadBytes
  refused : ∀ payload request store status, Asks .revalidateRequest decodeRevalidateRequest session frame payload →
    texts.parseRequestText payload.requestText = .ok request → coordinator.store = some store →
    store.revalidate env.files dir ⟨payload.planId⟩ request = .error status → 44 + status.detail.length ≤ kMaxFramePayloadBytes
  assessed : ∀ payload request store result, Asks .revalidateRequest decodeRevalidateRequest session frame payload →
    texts.parseRequestText payload.requestText = .ok request → coordinator.store = some store →
    store.revalidate env.files dir ⟨payload.planId⟩ request = .ok result → 44 + result.detail.length ≤ kMaxFramePayloadBytes

theorem ack_length (value : HelloAckPayload) : (encodeHelloAck value).length = 42 + value.serverLabel.length := by
  simp only [encodeHelloAck, List.length_append, ByteWriter.u16_length, ByteWriter.u64_length, ByteWriter.u32_length,
    ByteWriter.string_length]
  omega

theorem denial_length (value : DenialPayload) : (encodeDenial value).length = denialBytes value.participant value.message := by
  simp only [encodeDenial, denialBytes, List.length_append, ByteWriter.u16_length, ByteWriter.u64_length, ByteWriter.u8_length,
    ByteWriter.string_length]
  omega

theorem response_length (value : PlanResponsePayload) : (encodePlanResponse value).length = responseBytes value.planRecord.length
    (value.denials.map fun denial => denialBytes denial.participant denial.message).sum value.explanation.length := by
  simp only [encodePlanResponse, responseBytes, List.length_append, ByteWriter.u16_length, ByteWriter.u64_length,
    ByteWriter.u32_length, ByteWriter.boolean_length, ByteWriter.string_length, ByteWriter.counted_length, denial_length]
  omega

theorem rejected_length (payload : PlanRequestPayload) (status : Status) :
    (encodePlanResponse (rejectedResponse payload status)).length = rejectionBytes payload status := by
  have words : (text "request rejected: ").length = 18 ∧ (text "\n").length = 1 := by decide
  rw [response_length, rejectionBytes]
  cases asked : payload.includeExplanation with
  | false => simp [rejectedResponse, asked]
  | true =>
      simp only [rejectedResponse, asked, if_true, List.map_singleton, List.sum_singleton, List.length_append, words, List.length_nil]
      congr 1
      omega

theorem denied_length (payload : PlanRequestPayload) (outcome : PlanningOutcome) :
    (encodePlanResponse (deniedResponse texts payload outcome)).length = deniedBytes texts payload outcome := by
  rw [response_length, deniedBytes]
  cases asked : payload.includeExplanation <;> simp [deniedResponse, asked, List.map_map, Function.comp_def, denialPayload]

theorem planned_length (payload : PlanRequestPayload) (request : PlanningRequest) (outcome : PlanningOutcome) (plan : Plan) :
    (encodePlanResponse (plannedResponse texts env coordinator payload request outcome plan
      (persistence env coordinator request plan))).length = plannedBytes texts env coordinator payload request plan := by
  have denials : ((persistence env coordinator request plan).map fun denial => denialBytes denial.participant denial.message).sum =
      persistenceBytes env coordinator request plan := by
    rw [persistence, persistenceBytes]
    cases coordinator.store with
    | none => rfl
    | some store =>
        dsimp only
        cases (store.put env.files plan request).result <;> simp [persistFailure]
  rw [response_length, plannedBytes, ← denials, ← record_bytes env coordinator request plan]
  cases asked : payload.includeExplanation <;> simp [plannedResponse, asked]

theorem fetched_length (payload : GetPlanRequestPayload) (store : PlanStore) (plan : Plan)
    (found : store.get env.files dir ⟨payload.planId⟩ = .ok plan) :
    (encodeGetPlanResponse (getPlanResponse env dir coordinator payload store)).length = 12 + recordBytes plan := by
  rw [getPlanResponse, found, ← served_bytes env coordinator plan]
  simp only [encodeGetPlanResponse, List.length_append, ByteWriter.u16_length, ByteWriter.u8_length, ByteWriter.u32_length,
    ByteWriter.boolean_length, ByteWriter.string_length]
  omega

theorem listed_length (payload : ListPlansRequestPayload) (store : PlanStore) (summaries : List StoredPlanSummary)
    (found : store.list = .ok summaries) : (encodeListPlansResponse (listPlansResponse payload store)).length = listingBytes summaries := by
  have summary (value : PlanSummaryPayload) : (encodePlanSummary value).length = 65 + value.collective.length := by
    simp only [encodePlanSummary, List.length_append, ByteWriter.digest_length, ByteWriter.u64_length, ByteWriter.u8_length,
      ByteWriter.u32_length, ByteWriter.string_length, kDigestBytes]
    omega
  rw [listPlansResponse, found]
  simp only [encodeListPlansResponse, listingBytes, List.length_append, ByteWriter.u16_length, ByteWriter.u32_length,
    ByteWriter.counted_length, summary, List.map_map, Function.comp_def, summaryPayload]
  omega

theorem revalidate_length (value : RevalidateResponsePayload) : (encodeRevalidateResponse value).length = 44 + value.detail.length := by
  simp only [encodeRevalidateResponse, List.length_append, ByteWriter.u16_length, ByteWriter.u8_length, ByteWriter.u32_length,
    ByteWriter.boolean_length, ByteWriter.digest_length, ByteWriter.string_length, kDigestBytes]
  omega

-- Every frame is answered by exactly one frame or by the session's end, save where what it brings out outgrows a frame.
theorem frames_answered_iff (bytes : Bytes) (decoded : decodeFrame bytes = .ok frame) :
    AnsweredOnce texts env dir coordinator session frame ↔ Roomy texts env dir coordinator session frame := by
  have small : frame.payload.length ≤ kMaxFramePayloadBytes := by
    obtain ⟨raw, type, judged, _, length, _⟩ := (decode_frame_ok bytes frame).mp decoded
    rw [length]
    exact judged.length
  rw [answered_once_iff, answer_meets_iff (fun reply => reply.encode.length ≤ kMaxFramePayloadBytes) ReplyPayload.plain_small small]
  constructor
  · intro fits
    exact {
      greeting hello greets := (ack_length _).symm.trans_le (fits _ (.greeting hello greets))
      rejected payload status asks broken := (rejected_length payload status).symm.trans_le (fits _ (.rejected payload status asks broken))
      denied payload request asks parsed barred :=
        (denied_length texts payload _).symm.trans_le (fits _ (.denied payload request asks parsed barred))
      planned payload request plan asks parsed planned :=
        (planned_length texts env coordinator payload request _ plan).symm.trans_le (fits _ (.planned payload request plan asks parsed planned))
      fetched payload store plan asks held found :=
        (fetched_length env dir coordinator payload store plan found).symm.trans_le (fits _ (.fetched payload store plan asks held found))
      listed payload store summaries asks held found :=
        (listed_length payload store summaries found).symm.trans_le (fits _ (.listed payload store summaries asks held found))
      unreadable payload status asks broken := (revalidate_length _).symm.trans_le (fits _ (.unreadable payload status asks broken))
      refused payload request store status asks parsed held failed :=
        (revalidate_length _).symm.trans_le (fits _ (.refused payload request store status asks parsed held failed))
      assessed payload request store result asks parsed held found :=
        (revalidate_length _).symm.trans_le (fits _ (.assessed payload request store result asks parsed held found)) }
  · intro room reply substance
    cases substance with
    | greeting hello greets => exact (ack_length _).trans_le (room.greeting hello greets)
    | rejected payload status asks broken => exact (rejected_length payload status).trans_le (room.rejected payload status asks broken)
    | denied payload request asks parsed barred =>
        exact (denied_length texts payload _).trans_le (room.denied payload request asks parsed barred)
    | planned payload request plan asks parsed planned =>
        exact (planned_length texts env coordinator payload request _ plan).trans_le (room.planned payload request plan asks parsed planned)
    | fetched payload store plan asks held found =>
        exact (fetched_length env dir coordinator payload store plan found).trans_le (room.fetched payload store plan asks held found)
    | listed payload store summaries asks held found =>
        exact (listed_length payload store summaries found).trans_le (room.listed payload store summaries asks held found)
    | unreadable payload status asks broken => exact (revalidate_length _).trans_le (room.unreadable payload status asks broken)
    | refused payload request store status asks parsed held failed =>
        exact (revalidate_length _).trans_le (room.refused payload request store status asks parsed held failed)
    | assessed payload request store result asks parsed held found =>
        exact (revalidate_length _).trans_le (room.assessed payload request store result asks parsed held found)

theorem fetched_unanswered (payload : GetPlanRequestPayload) (store : PlanStore) (plan : Plan)
    (asks : Asks .getPlanRequest decodeGetPlanRequest session frame payload) (held : coordinator.store = some store)
    (found : store.get env.files dir ⟨payload.planId⟩ = .ok plan) (large : ¬ 12 + recordBytes plan ≤ kMaxFramePayloadBytes) :
    ¬ AnsweredOnce texts env dir coordinator session frame := by
  rw [answered_once_iff, @substance_answered texts env dir coordinator session frame _
    (.fetched payload store plan asks held found)]
  exact mt (fetched_length env dir coordinator payload store plan found).symm.trans_le large

end Frames

namespace StoredPlan

variable (plan : Plan)

-- A store that holds one plan, and a client that asks for it.
def record : Bytes := encodePlanRecord plan plan.inputDigest ⟨1⟩ 1 0

def files : Directory := fun file => if file = recordFileName plan.id.value then some (record plan) else none

def store : PlanStore where
  config := { root := text "plans" }
  isOpen := true
  epoch := ⟨1⟩
  incarnation := ⟨1⟩
  sequence := 1
  index := SortedMap.insert .empty plan.id.value (entryOf plan.id.value (summaryOf plan ⟨1⟩ 1 0 (record plan).length))

theorem held (storable : Storable plan) (small : recordBytes plan ≤ kMaxPlanRecordBytes) :
    (store plan).get LongKeyword.calm.files (files plan) plan.id = .ok plan := by
  have size : (record plan).length ≤ (store plan).config.maxRecordBytes := (encode_record_length _ _ _ _ _).trans_le small
  have decoded := decode_encode_record plan plan.inputDigest ⟨1⟩ 1 0 storable rfl
  have file : files plan (recordFileName plan.id.value) = some (record plan) := if_pos rfl
  refine (bind_ok _ _ _).mpr ⟨_, (find_entry_ok _ _ _).mpr ⟨rfl, SortedMap.find_insert _ _ _⟩, (bind_ok _ _ _).mpr ⟨record plan, ?_,
    (bind_ok _ _ _).mpr ⟨_, decoded, rfl⟩⟩⟩
  exact read_file_calm _ _ (files plan) _ _ (record plan) rfl file size

def server : Coordinator := { store := some (store plan), epoch := 1, incarnation := 1 }

def request : GetPlanRequestPayload := { requestId := 1, planId := plan.id.value }

def header : FrameHeader := { type := .getPlanRequest, sequence := 1, sessionId := 1, requestId := 1 }

def frame : Frame := ⟨encodedHeader header (encodeGetPlanRequest (request plan)).length, encodeGetPlanRequest (request plan)⟩

def bytes : Bytes := encodeFrame header (encodeGetPlanRequest (request plan))

theorem frame_decoded : decodeFrame (bytes plan) = .ok (frame plan) :=
  decode_encode_frame header (encodeGetPlanRequest (request plan)) (by simp [encodeGetPlanRequest, kDigestBytes, kMaxFramePayloadBytes])

theorem asked : Asks .getPlanRequest decodeGetPlanRequest LongKeyword.greeted (frame plan) (request plan) where
  admitted := ⟨fun stale => absurd stale.1 Bool.false_ne_true, rfl, rfl⟩
  read := (Inverse.of_reads get_plan_request_reads).decodes (request plan) trivial

end StoredPlan

namespace WidePlan

-- Twenty thousand empty paths: the record is within the store's bound and outgrows a frame.
def plan : Plan := { blankPlan with paths := List.replicate 20000 {}, stats := { pathCount := 20000 } }

theorem path_bytes : (Plan.encodePath {}).length = 53 := rfl

theorem plan_bytes : (Plan.encode plan).length = (Plan.encode blankPlan).length + 20000 * 53 := by
  simp only [Plan.encode, plan, List.length_append, ByteWriter.counted_length, List.map_replicate, List.sum_replicate, path_bytes,
    smul_eq_mul]
  simp [blankPlan, Plan.encodeStats]

theorem blank_bytes : (Plan.encode blankPlan).length = 169 := by decide +kernel

theorem storable : Storable plan where
  decodable := {
    fits := {
      identity := rfl
      collective := Nat.zero_le _
      stageCount := by decide
      stages := blank_storable.decodable.fits.stages
      paths := by
        refine ⟨List.length_replicate.trans_le (by decide), fun path listed => ?_⟩
        rw [List.eq_of_mem_replicate listed]
        exact ⟨Nat.zero_le _, Nat.zero_le _, ⟨Nat.zero_le _, by simp⟩, ⟨Nat.zero_le _, by simp⟩⟩
      allocations := blank_storable.decodable.fits.allocations }
    counted := List.length_replicate
    nonzero := blank_storable.decodable.nonzero
    size := by
      rw [plan_bytes, blank_bytes]
      decide }
  room := by
    rw [plan_bytes, blank_bytes]
    decide

theorem record_bytes : recordBytes plan = 1060360 := by
  rw [recordBytes, plan_bytes, blank_bytes]
  rfl

theorem outgrown : ¬ 12 + recordBytes plan ≤ kMaxFramePayloadBytes := by
  rw [record_bytes]
  decide

theorem held : (StoredPlan.store plan).get LongKeyword.calm.files (StoredPlan.files plan) plan.id = .ok plan :=
  StoredPlan.held plan storable (by rw [record_bytes]; decide)

end WidePlan

open LongKeyword StoredPlan in
theorem wide_plan_unanswered :
    ¬ AnsweredOnce readerTexts calm (files WidePlan.plan) (server WidePlan.plan) greeted (StoredPlan.frame WidePlan.plan) := by
  apply mt (frames_answered_iff readerTexts calm (files WidePlan.plan) (server WidePlan.plan) greeted (StoredPlan.frame WidePlan.plan) _
    (frame_decoded WidePlan.plan)).mp
  exact fun room => WidePlan.outgrown (room.fetched _ _ WidePlan.plan (asked WidePlan.plan) rfl WidePlan.held)

-- The stored plan is asked for, its record outgrows a frame, and the handler reports success with nothing written.
open LongKeyword StoredPlan in
theorem frame_unanswered : ¬ ∀ (env : ServerEnvironment) (dir : Directory) (coordinator : Coordinator) (session : Session)
    (bytes : Bytes) (frame : Frame), decodeFrame bytes = .ok frame → AnsweredOnce readerTexts env dir coordinator session frame := by
  intro claimed
  apply fetched_unanswered readerTexts calm (files WidePlan.plan) (server WidePlan.plan) greeted (StoredPlan.frame WidePlan.plan)
    (StoredPlan.request WidePlan.plan) (StoredPlan.store WidePlan.plan) WidePlan.plan (asked WidePlan.plan) rfl WidePlan.held
    WidePlan.outgrown
  exact claimed calm _ _ greeted _ _ (frame_decoded WidePlan.plan)

end Coordinator

end PathPlanner

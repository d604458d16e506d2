import PathPlanner.Server.Conversation
import PathPlanner.Server.Provenance
import PathPlanner.Wire.DecodeErrors

set_option autoImplicit false

namespace PathPlanner

open Checks Codec PlanCollective PlanStore StoreFiles StoreRecord Wire

theorem code_word_fits (code : ErrorCode) : CodeFits (Coordinator.codeWord code) := by
  have word : (UInt16.ofNat code.raw).toNat = code.raw := by
    rw [UInt16.toNat_ofNat']
    exact Nat.mod_eq_of_lt (code_raw_small code)
  rw [CodeFits, Coordinator.codeWord, word]
  exact code_defined code

theorem freshness_byte_fits (freshness : PlanFreshness) : FreshnessFits (Coordinator.freshnessByte freshness) := by
  rw [FreshnessFits]
  cases freshness <;> decide

theorem symbol_short (code : ErrorCode) : (text code.symbol).length ≤ 64 := by
  cases code <;> decide

theorem to_text_length (status : Status) : status.toText.length ≤ 66 + status.detail.length := by
  have symbol := symbol_short status.code
  rw [Status.toText]
  split
  · simp only [List.length_append, List.length_nil]
    omega
  · have colon : (text ": ").length = 2 := by decide
    simp only [List.length_append, colon]
    omega

namespace ReplyPayload

-- A reply of numbers and, at most, a short message.
def Plain : ReplyPayload → Prop
  | .helloAck _ => False
  | .pong => True
  | .error value => value.Fits
  | .planResponse _ => False
  | .getPlanResponse value => CodeFits value.code ∧ value.planRecord = [] ∧ value.freshness = 0
  | .listPlansResponse value => CodeFits value.code ∧ value.plans = []
  | .revalidateResponse value => CodeFits value.code ∧ value.detail = [] ∧ value.freshness = 0
  | .shutdownAck _ => True

theorem plain_fits (reply : ReplyPayload) (plain : reply.Plain) : reply.Fits := by
  cases reply with
  | helloAck value => exact plain.elim
  | pong => trivial
  | error value => exact plain
  | planResponse value => exact plain.elim
  | getPlanResponse value =>
      obtain ⟨code, record, freshness⟩ := plain
      exact ⟨code, by rw [record]; exact Nat.zero_le _, by rw [freshness]; exact Nat.zero_le _⟩
  | listPlansResponse value =>
      obtain ⟨code, plans⟩ := plain
      exact ⟨code, by rw [plans]; exact ⟨Nat.zero_le _, by simp⟩⟩
  | revalidateResponse value =>
      obtain ⟨code, detail, freshness⟩ := plain
      exact ⟨code, by rw [freshness]; exact Nat.zero_le _, by rw [detail]; exact Nat.zero_le _⟩
  | shutdownAck value => trivial

theorem plain_small (reply : ReplyPayload) (plain : reply.Plain) : reply.encode.length ≤ kMaxFramePayloadBytes := by
  cases reply with
  | helloAck value => exact plain.elim
  | pong => exact Nat.zero_le _
  | error value =>
      have message := ErrorPayload.Fits.message plain
      simp only [encode, encodeError, List.length_append, ByteWriter.u16_length, ByteWriter.u32_length, ByteWriter.string_length,
        kMaxDetailBytes, kMaxFramePayloadBytes] at message ⊢
      omega
  | planResponse value => exact plain.elim
  | getPlanResponse value =>
      simp only [encode, encodeGetPlanResponse, List.length_append, ByteWriter.u32_length, ByteWriter.u16_length, ByteWriter.u8_length,
        ByteWriter.boolean_length, ByteWriter.string_length, plain.2.1, List.length_nil]
      decide
  | listPlansResponse value =>
      simp only [encode, encodeListPlansResponse, List.length_append, ByteWriter.u32_length, ByteWriter.u16_length,
        ByteWriter.counted_length, plain.2, List.map_nil, List.sum_nil]
      decide
  | revalidateResponse value =>
      simp only [encode, encodeRevalidateResponse, List.length_append, ByteWriter.u32_length, ByteWriter.u16_length,
        ByteWriter.u8_length, ByteWriter.boolean_length, ByteWriter.digest_length, ByteWriter.string_length, plain.2.1, List.length_nil]
      decide
  | shutdownAck value =>
      simp only [encode, encodeShutdownRequest, List.length_append, ByteWriter.u32_length, ByteWriter.u64_length]
      decide

end ReplyPayload

namespace Coordinator

-- What a frame asks of a session that is ready for it.
structure Asks {α : Type} (type : FrameType) (decode : Bytes → Result α) (session : Session) (frame : Frame) (payload : α) : Prop where
  admitted : Admitted session frame type
  read : decode frame.payload = .ok payload

-- A session's first hello, in the version the coordinator speaks.
structure Greets (session : Session) (frame : Frame) (hello : HelloPayload) : Prop where
  fresh : ¬ (session.hasSequence = true ∧ frame.header.sequence ≤ session.lastSequence)
  type : frame.header.type = .hello
  read : decodeHello frame.payload = .ok hello
  version : hello.protocolVersion.toNat = kWireProtocolVersion
  first : session.handshaken = false

variable (texts : TextForms) (env : ServerEnvironment) (dir : Directory) (coordinator : Coordinator) (session : Session)
  (frame : Frame)

def acknowledgement : HelloAckPayload where
  protocolVersion := UInt16.ofNat kWireProtocolVersion
  sessionId := session.id
  epoch := coordinator.epoch
  incarnation := coordinator.incarnation
  serverLabel := coordinator.config.label
  maxFramePayload := UInt32.ofNat kMaxFramePayloadBytes
  maxPendingRequests := UInt64.ofNat coordinator.config.maxPendingRequests

-- The denial beside a plan that could not be stored.
def persistence (request : PlanningRequest) (plan : Plan) : List DenialPayload :=
  match coordinator.store with
  | none => []
  | some store =>
      match (store.put env.files plan request).result with
      | .ok _ => []
      | .error status => [persistFailure status]

-- The replies that carry texts, records or lists, each with what it answers.
inductive Substantial : ReplyPayload → Prop where
  | greeting (hello : HelloPayload) (greets : Greets session frame hello) : Substantial (.helloAck (acknowledgement coordinator session))
  | rejected (payload : PlanRequestPayload) (status : Status) (asks : Asks .planRequest decodePlanRequest session frame payload)
      (broken : texts.parseRequestText payload.requestText = .error status) :
      Substantial (.planResponse (rejectedResponse payload status))
  | denied (payload : PlanRequestPayload) (request : PlanningRequest) (asks : Asks .planRequest decodePlanRequest session frame payload)
      (parsed : texts.parseRequestText payload.requestText = .ok request) (barred : (planCollective request {}).plan = none) :
      Substantial (.planResponse (deniedResponse texts payload (planCollective request {})))
  | planned (payload : PlanRequestPayload) (request : PlanningRequest) (plan : Plan)
      (asks : Asks .planRequest decodePlanRequest session frame payload)
      (parsed : texts.parseRequestText payload.requestText = .ok request) (planned : (planCollective request {}).plan = some plan) :
      Substantial (.planResponse (plannedResponse texts env coordinator payload request (planCollective request {}) plan
        (persistence env coordinator request plan)))
  | fetched (payload : GetPlanRequestPayload) (store : PlanStore) (plan : Plan)
      (asks : Asks .getPlanRequest decodeGetPlanRequest session frame payload) (held : coordinator.store = some store)
      (found : store.get env.files dir ⟨payload.planId⟩ = .ok plan) :
      Substantial (.getPlanResponse (getPlanResponse env dir coordinator payload store))
  | listed (payload : ListPlansRequestPayload) (store : PlanStore) (summaries : List StoredPlanSummary)
      (asks : Asks .listPlansRequest decodeListPlansRequest session frame payload) (held : coordinator.store = some store)
      (found : store.list = .ok summaries) : Substantial (.listPlansResponse (listPlansResponse payload store))
  | unreadable (payload : RevalidateRequestPayload) (status : Status)
      (asks : Asks .revalidateRequest decodeRevalidateRequest session frame payload)
      (broken : texts.parseRequestText payload.requestText = .error status) :
      Substantial (.revalidateResponse (refusedRevalidation payload status))
  | refused (payload : RevalidateRequestPayload) (request : PlanningRequest) (store : PlanStore) (status : Status)
      (asks : Asks .revalidateRequest decodeRevalidateRequest session frame payload)
      (parsed : texts.parseRequestText payload.requestText = .ok request) (held : coordinator.store = some store)
      (failed : store.revalidate env.files dir ⟨payload.planId⟩ request = .error status) :
      Substantial (.revalidateResponse (refusedRevalidation payload status))
  | assessed (payload : RevalidateRequestPayload) (request : PlanningRequest) (store : PlanStore) (result : RevalidationResult)
      (asks : Asks .revalidateRequest decodeRevalidateRequest session frame payload)
      (parsed : texts.parseRequestText payload.requestText = .ok request) (held : coordinator.store = some store)
      (found : store.revalidate env.files dir ⟨payload.planId⟩ request = .ok result) :
      Substantial (.revalidateResponse (revalidatedResponse payload result))

theorem error_plain (status : Status) (terse : Terse status) : (sendError coordinator session frame status).reply.Plain :=
  ⟨code_word_fits status.code, terse⟩

variable {texts env dir coordinator session frame}

theorem planned_substance (payload : PlanRequestPayload) (request : PlanningRequest) (outcome : PlanningOutcome) (plan : Plan) :
    (answerPlanned texts env coordinator session payload request outcome plan).reply =
      .planResponse (plannedResponse texts env coordinator payload request outcome plan (persistence env coordinator request plan)) := by
  unfold answerPlanned persistence
  cases coordinator.store with
  | none => rfl
  | some store =>
      dsimp only
      cases (store.put env.files plan request).result <;> rfl

-- Each kind of substance is what its frame is answered with.
theorem substance_answered (reply : ReplyPayload) (substance : Substantial texts env dir coordinator session frame reply) :
    (answerFrame texts env dir coordinator session frame).reply = reply := by
  cases substance with
  | greeting hello greets =>
      unfold answerFrame
      rw [if_neg greets.fresh]
      simp only [greets.type]
      unfold answerHello
      rw [greets.read]
      simp only [greets.version, ne_eq, not_true_eq_false, if_false, greets.first, Bool.false_eq_true]
      rfl
  | rejected payload status asks broken =>
      rw [answer_admitted texts env dir coordinator session frame _ asks.admitted (by decide), answerRequest, asks.admitted.type]
      simp only [answerPlanRequest, asks.read, broken]
  | denied payload request asks parsed barred =>
      rw [answer_admitted texts env dir coordinator session frame _ asks.admitted (by decide), answerRequest, asks.admitted.type]
      simp only [answerPlanRequest, asks.read, parsed, barred]
  | planned payload request plan asks parsed planned =>
      rw [answer_admitted texts env dir coordinator session frame _ asks.admitted (by decide), answerRequest, asks.admitted.type]
      simp only [answerPlanRequest, asks.read, parsed, planned]
      exact planned_substance _ _ _ _
  | fetched payload store plan asks held found =>
      rw [answer_admitted texts env dir coordinator session frame _ asks.admitted (by decide), answerRequest, asks.admitted.type]
      simp only [answerGetPlan, asks.read, held]
  | listed payload store summaries asks held found =>
      rw [answer_admitted texts env dir coordinator session frame _ asks.admitted (by decide), answerRequest, asks.admitted.type]
      simp only [answerListPlans, asks.read, held]
  | unreadable payload status asks broken =>
      rw [answer_admitted texts env dir coordinator session frame _ asks.admitted (by decide), answerRequest, asks.admitted.type]
      simp only [answerRevalidate, asks.read, broken]
  | refused payload request store status asks parsed held failed =>
      rw [answer_admitted texts env dir coordinator session frame _ asks.admitted (by decide), answerRequest, asks.admitted.type]
      simp only [answerRevalidate, asks.read, parsed, held, failed]
  | assessed payload request store result asks parsed held found =>
      rw [answer_admitted texts env dir coordinator session frame _ asks.admitted (by decide), answerRequest, asks.admitted.type]
      simp only [answerRevalidate, asks.read, parsed, held, found]

theorem hello_substance (fresh : ¬ (session.hasSequence = true ∧ frame.header.sequence ≤ session.lastSequence))
    (type : frame.header.type = .hello) (small : frame.payload.length ≤ kMaxFramePayloadBytes) :
    (answerHello coordinator (advancedSession session frame) frame).reply.Plain ∨
      Substantial texts env dir coordinator session frame (answerHello coordinator (advancedSession session frame) frame).reply := by
  unfold answerHello
  cases read : decodeHello frame.payload with
  | error status => exact Or.inl (error_plain _ _ _ _ (complete_terse hello_terse _ small status read))
  | ok hello =>
      dsimp only
      split_ifs with version first
      · refine Or.inl (error_plain _ _ _ _ ?_)
        have digits := decimal_length hello.protocolVersion.toNat 5 (by decide) (hello.protocolVersion.toNat_lt.trans (by decide))
        have words : (text "the client speaks protocol version ").length = 35 := by decide
        simp only [Terse, List.length_append, words, kMaxDetailBytes]
        omega
      · exact Or.inl (error_plain _ _ _ _ (failure_terse _ _ (by decide)))
      · exact Or.inr (.greeting hello ⟨fresh, type, read, not_not.mp version, by simpa [advancedSession] using first⟩)

theorem plan_substance (admitted : Admitted session frame .planRequest) (small : frame.payload.length ≤ kMaxFramePayloadBytes) :
    (answerPlanRequest texts env coordinator (advancedSession session frame) frame).reply.Plain ∨
      Substantial texts env dir coordinator session frame
        (answerPlanRequest texts env coordinator (advancedSession session frame) frame).reply := by
  unfold answerPlanRequest
  cases read : decodePlanRequest frame.payload with
  | error status => exact Or.inl (error_plain _ _ _ _ (complete_terse plan_request_terse _ small status read))
  | ok payload =>
      dsimp only
      cases parsed : texts.parseRequestText payload.requestText with
      | error status => exact Or.inr (.rejected payload status ⟨admitted, read⟩ parsed)
      | ok request =>
          dsimp only
          cases planned : (planCollective request {}).plan with
          | none => exact Or.inr (.denied payload request ⟨admitted, read⟩ parsed planned)
          | some plan =>
              dsimp only
              rw [planned_substance]
              exact Or.inr (.planned payload request plan ⟨admitted, read⟩ parsed planned)

theorem get_substance (admitted : Admitted session frame .getPlanRequest) (small : frame.payload.length ≤ kMaxFramePayloadBytes) :
    (answerGetPlan env dir coordinator (advancedSession session frame) frame).reply.Plain ∨
      Substantial texts env dir coordinator session frame (answerGetPlan env dir coordinator (advancedSession session frame) frame).reply := by
  unfold answerGetPlan
  cases read : decodeGetPlanRequest frame.payload with
  | error status => exact Or.inl (error_plain _ _ _ _ (complete_terse get_plan_request_terse _ small status read))
  | ok payload =>
      cases held : coordinator.store with
      | none => exact Or.inl ⟨code_word_fits .storeNotOpen, rfl, rfl⟩
      | some store =>
          dsimp only
          cases found : store.get env.files dir ⟨payload.planId⟩ with
          | error status =>
              rw [getPlanResponse, found]
              exact Or.inl ⟨code_word_fits status.code, rfl, rfl⟩
          | ok plan => exact Or.inr (.fetched payload store plan ⟨admitted, read⟩ held found)

theorem list_substance (admitted : Admitted session frame .listPlansRequest) (small : frame.payload.length ≤ kMaxFramePayloadBytes) :
    (answerListPlans coordinator (advancedSession session frame) frame).reply.Plain ∨
      Substantial texts env dir coordinator session frame (answerListPlans coordinator (advancedSession session frame) frame).reply := by
  unfold answerListPlans
  cases read : decodeListPlansRequest frame.payload with
  | error status => exact Or.inl (error_plain _ _ _ _ (complete_terse list_plans_request_terse _ small status read))
  | ok payload =>
      cases held : coordinator.store with
      | none => exact Or.inl ⟨code_word_fits .storeNotOpen, rfl⟩
      | some store =>
          dsimp only
          cases found : store.list with
          | error status =>
              rw [listPlansResponse, found]
              exact Or.inl ⟨code_word_fits status.code, rfl⟩
          | ok summaries => exact Or.inr (.listed payload store summaries ⟨admitted, read⟩ held found)

theorem revalidate_substance (admitted : Admitted session frame .revalidateRequest)
    (small : frame.payload.length ≤ kMaxFramePayloadBytes) :
    (answerRevalidate texts env dir coordinator (advancedSession session frame) frame).reply.Plain ∨
      Substantial texts env dir coordinator session frame
        (answerRevalidate texts env dir coordinator (advancedSession session frame) frame).reply := by
  unfold answerRevalidate
  cases read : decodeRevalidateRequest frame.payload with
  | error status => exact Or.inl (error_plain _ _ _ _ (complete_terse revalidate_request_terse _ small status read))
  | ok payload =>
      dsimp only
      cases parsed : texts.parseRequestText payload.requestText with
      | error status => exact Or.inr (.unreadable payload status ⟨admitted, read⟩ parsed)
      | ok request =>
          cases held : coordinator.store with
          | none => exact Or.inl ⟨code_word_fits .storeNotOpen, rfl, rfl⟩
          | some store =>
              dsimp only
              cases found : store.revalidate env.files dir ⟨payload.planId⟩ request with
              | error status => exact Or.inr (.refused payload request store status ⟨admitted, read⟩ parsed held found)
              | ok result => exact Or.inr (.assessed payload request store result ⟨admitted, read⟩ parsed held found)

theorem shutdown_plain (small : frame.payload.length ≤ kMaxFramePayloadBytes) :
    (answerShutdown coordinator session frame).reply.Plain := by
  unfold answerShutdown
  cases read : decodeShutdownRequest frame.payload with
  | error status => exact error_plain _ _ _ _ (complete_terse shutdown_request_terse _ small status read)
  | ok payload =>
      dsimp only
      split_ifs
      · apply error_plain
        have asked := decimal_length payload.expectedEpoch.toNat 20 (by decide) (payload.expectedEpoch.toNat_lt.trans (by decide))
        have holds := decimal_length coordinator.epoch.toNat 20 (by decide) (coordinator.epoch.toNat_lt.trans (by decide))
        have first : (text "shutdown was requested for epoch ").length = 33 := by decide
        have second : (text " but the coordinator holds epoch ").length = 33 := by decide
        simp only [Terse, List.length_append, first, second, kMaxDetailBytes]
        omega
      · trivial

-- A frame is answered in a few words, or with the substance of what it asks for.
theorem answer_substance (small : frame.payload.length ≤ kMaxFramePayloadBytes) :
    (answerFrame texts env dir coordinator session frame).reply.Plain ∨
      Substantial texts env dir coordinator session frame (answerFrame texts env dir coordinator session frame).reply := by
  unfold answerFrame
  split_ifs with fresh
  · exact Or.inl (error_plain _ _ _ _ (failure_terse _ _ (by decide)))
  · dsimp only
    split
    · exact hello_substance fresh ‹_› small
    · exact Or.inl trivial
    · split_ifs with handshaken
      · unfold answerRequest
        split
        · exact plan_substance ⟨fresh, handshaken, ‹_›⟩ small
        · exact get_substance ⟨fresh, handshaken, ‹_›⟩ small
        · exact list_substance ⟨fresh, handshaken, ‹_›⟩ small
        · exact revalidate_substance ⟨fresh, handshaken, ‹_›⟩ small
        · exact Or.inl (shutdown_plain small)
        · exact Or.inl (error_plain _ _ _ _ (failure_terse _ _ (by decide)))
      · exact Or.inl (error_plain _ _ _ _ (failure_terse _ _ (by decide)))

-- What every short reply meets, a reply meets exactly where every substance it could have does.
theorem answer_meets_iff (holds : ReplyPayload → Prop) (plain : ∀ reply : ReplyPayload, reply.Plain → holds reply)
    (small : frame.payload.length ≤ kMaxFramePayloadBytes) : holds (answerFrame texts env dir coordinator session frame).reply ↔
      ∀ reply, Substantial texts env dir coordinator session frame reply → holds reply := by
  constructor
  · intro met reply substance
    rw [← substance_answered reply substance]
    exact met
  · intro met
    cases answer_substance small with
    | inl short => exact plain _ short
    | inr substance => exact met _ substance

end Coordinator

end PathPlanner

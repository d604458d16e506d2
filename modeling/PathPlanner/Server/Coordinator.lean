import PathPlanner.Store.Revalidation
import PathPlanner.Wire.Frame

set_option autoImplicit false

namespace PathPlanner

open Codec StoreFiles StoreRecord Wire

def DenialKind.raw : DenialKind → Nat
  | .invalidRequest => 0
  | .staleInput => 1
  | .provenInfeasible => 2
  | .searchLimitReached => 3
  | .unsupportedConstraint => 4

def ConflictKind.raw : ConflictKind → Nat
  | .none => 0
  | .missingBinding => 1
  | .unknownNode => 2
  | .ineligibleEndpoint => 3
  | .endpointConstraint => 4
  | .forbiddenNode => 5
  | .forbiddenTier => 6
  | .forbiddenFailureDomain => 7
  | .hopLimit => 8
  | .costLimit => 9
  | .disconnected => 10
  | .noVerifiedCapacity => 11
  | .insufficientCapacity => 12
  | .evidenceInsufficient => 13
  | .disjointness => 14
  | .domainDiversity => 15
  | .searchBudget => 16
  | .structural => 17

def kMaxSessions : Nat := 32
def kMaxSessionQueueDepth : Nat := 256

structure ServerConfig where
  maxSessions : Nat := kMaxSessions
  maxQueueDepth : Nat := kMaxSessionQueueDepth
  maxPendingRequests : Nat := kMaxPendingRequestsPerSession
  storeRoot : Bytes := []
  label : Bytes := text "cpathd"

structure ServerStats where
  sessionsAccepted : UInt64 := 0
  sessionsRejected : UInt64 := 0
  sessionsClosed : UInt64 := 0
  framesReceived : UInt64 := 0
  framesSent : UInt64 := 0
  framesRejected : UInt64 := 0
  handshakesCompleted : UInt64 := 0
  handshakesRefused : UInt64 := 0
  plansProduced : UInt64 := 0
  planDenials : UInt64 := 0
  revalidationsCurrent : UInt64 := 0
  revalidationsStale : UInt64 := 0
  storeCommits : UInt64 := 0
  storeReads : UInt64 := 0
  replaysRefused : UInt64 := 0
  errors : UInt64 := 0
  queuedFrames : UInt64 := 0
  maxQueueDepthObserved : UInt64 := 0
  clientsTurnedAway : UInt64 := 0

-- What the handler of a frame reads and writes of its session.
structure Session where
  id : UInt64 := 0
  handshaken : Bool := false
  hasSequence : Bool := false
  lastSequence : UInt64 := 0

structure Coordinator where
  config : ServerConfig := {}
  store : Option PlanStore := none
  epoch : UInt64 := 0
  incarnation : UInt64 := 0
  stats : ServerStats := {}

-- The text forms of requests, plans and denials.
structure TextForms where
  parseRequestSpec : Bytes → Result RequestSpec
  explainPlan : Plan → PlanningRequest → Bytes
  explainDenials : PlanningOutcome → Bytes

def TextForms.parseRequestText (texts : TextForms) (request : Bytes) : Result PlanningRequest := do
  let spec ← texts.parseRequestSpec request
  buildRequest spec

structure ServerEnvironment where
  files : Environment
  micros : UInt64
  sendFault : Option Status

inductive ReplyPayload where
  | helloAck (value : HelloAckPayload)
  | pong
  | error (value : ErrorPayload)
  | planResponse (value : PlanResponsePayload)
  | getPlanResponse (value : GetPlanResponsePayload)
  | listPlansResponse (value : ListPlansResponsePayload)
  | revalidateResponse (value : RevalidateResponsePayload)
  | shutdownAck (value : ShutdownRequestPayload)
deriving DecidableEq

namespace ReplyPayload

def type : ReplyPayload → FrameType
  | .helloAck _ => .helloAck
  | .pong => .pong
  | .error _ => .error
  | .planResponse _ => .planResponse
  | .getPlanResponse _ => .getPlanResponse
  | .listPlansResponse _ => .listPlansResponse
  | .revalidateResponse _ => .revalidateResponse
  | .shutdownAck _ => .shutdownAck

def encode : ReplyPayload → Bytes
  | .helloAck value => encodeHelloAck value
  | .pong => []
  | .error value => encodeError value
  | .planResponse value => encodePlanResponse value
  | .getPlanResponse value => encodeGetPlanResponse value
  | .listPlansResponse value => encodeListPlansResponse value
  | .revalidateResponse value => encodeRevalidateResponse value
  | .shutdownAck value => encodeShutdownRequest value

end ReplyPayload

namespace Coordinator

-- What a handler has decided when it comes to write its reply; the counters of a reply move once it is written.
structure Answer where
  reply : ReplyPayload
  session : Session
  coordinator : Coordinator
  effects : List Effect := []
  counted : ServerStats → ServerStats := id
  shutdown : Bool := false

structure Handled where
  status : Result Unit
  written : Bytes
  session : Session
  coordinator : Coordinator
  effects : List Effect
  shutdown : Bool

def codeWord (code : ErrorCode) : UInt16 := UInt16.ofNat code.raw

def freshnessByte (freshness : PlanFreshness) : UInt8 := UInt8.ofNat freshness.raw

-- Nothing at all is written where there is nothing to send.
def writeFrame (env : ServerEnvironment) (header : FrameHeader) (payload : Bytes) : Result Unit × Bytes :=
  match encodeFrame header payload, env.sendFault with
  | [], _ => (.ok (), [])
  | _, some fault => (.error fault, [])
  | bytes, none => (.ok (), bytes)

def replyHeaderFor (coordinator : Coordinator) (session : Session) (frame : Frame) (type : FrameType) : FrameHeader :=
  { frame.header with
    type
    version := UInt16.ofNat kWireProtocolVersion
    payloadLength := 0
    headerCrc := 0
    reserved := 0
    flags := 0
    epoch := coordinator.epoch
    sessionId := session.id }

def bump (coordinator : Coordinator) (count : ServerStats → ServerStats) : Coordinator :=
  { coordinator with stats := count coordinator.stats }

def countSent (stats : ServerStats) : ServerStats := { stats with framesSent := stats.framesSent + 1 }

def countError (stats : ServerStats) : ServerStats := { stats with errors := stats.errors + 1 }

def countDenied (stats : ServerStats) : ServerStats := { stats with planDenials := stats.planDenials + 1 }

def countRead (stats : ServerStats) : ServerStats := { stats with storeReads := stats.storeReads + 1 }

def countReplay (stats : ServerStats) : ServerStats := { stats with replaysRefused := stats.replaysRefused + 1 }

def countRefused (stats : ServerStats) : ServerStats := { stats with handshakesRefused := stats.handshakesRefused + 1 }

def sendError (coordinator : Coordinator) (session : Session) (frame : Frame) (status : Status) : Answer where
  reply := .error { code := codeWord status.code, requestId := frame.header.requestId, message := status.detail }
  session
  coordinator

variable (texts : TextForms) (env : ServerEnvironment) (dir : Directory) (coordinator : Coordinator) (session : Session)
  (frame : Frame)

def answerHello : Answer :=
  let refused := coordinator.bump countRefused
  match decodeHello frame.payload with
  | .error status => sendError refused session frame status
  | .ok payload =>
      if payload.protocolVersion.toNat ≠ kWireProtocolVersion then
        sendError refused session frame
          ⟨.badProtocolVersion, text "the client speaks protocol version " ++ decimal payload.protocolVersion.toNat⟩
      else if session.handshaken then
        sendError refused session frame (failure .sequenceMismatch "this session already completed its handshake")
      else
        { reply := .helloAck {
            protocolVersion := UInt16.ofNat kWireProtocolVersion
            sessionId := session.id
            epoch := coordinator.epoch
            incarnation := coordinator.incarnation
            serverLabel := coordinator.config.label
            maxFramePayload := UInt32.ofNat kMaxFramePayloadBytes
            maxPendingRequests := UInt64.ofNat coordinator.config.maxPendingRequests }
          session := { session with handshaken := true }
          coordinator
          counted := fun stats => countSent { stats with handshakesCompleted := stats.handshakesCompleted + 1 } }

-- The request did not even parse.
def rejectedResponse (payload : PlanRequestPayload) (status : Status) : PlanResponsePayload where
  requestId := payload.requestId
  code := codeWord status.code
  denials := [{
    code := codeWord status.code
    kind := UInt8.ofNat (if categoryOf status.code = .authority then DenialKind.staleInput else .invalidRequest).raw
    message := status.detail }]
  explanation := if payload.includeExplanation then text "request rejected: " ++ status.toText ++ text "\n" else []

def denialPayload (denial : DenialDetail) : DenialPayload where
  code := codeWord denial.code
  kind := UInt8.ofNat denial.kind.raw
  conflict := UInt8.ofNat denial.conflict.raw
  logicalEdge := denial.logicalEdge.value
  participant := denial.participant.value
  message := denial.message

def deniedResponse (payload : PlanRequestPayload) (outcome : PlanningOutcome) : PlanResponsePayload where
  requestId := payload.requestId
  code := codeWord outcome.primaryCode
  denials := (outcome.denials.take kMaxDenials).map denialPayload
  explanation := if payload.includeExplanation then texts.explainDenials outcome else []
  searchExpansions := UInt64.ofNat outcome.searchExpansions

-- A plan that could not be stored is answered all the same, with a denial beside it.
def persistFailure (status : Status) : DenialPayload where
  code := codeWord status.code
  kind := UInt8.ofNat DenialKind.unsupportedConstraint.raw
  message := text "the plan was produced but could not be persisted: " ++ status.toText

-- The record is numbered by the coordinator's own counter, whatever becomes of it in the store.
def plannedRecord (request : PlanningRequest) (plan : Plan) : Bytes :=
  encodePlanRecord plan request.canonicalDigest ⟨coordinator.incarnation⟩ (coordinator.stats.storeCommits + 1) env.micros

def plannedResponse (payload : PlanRequestPayload) (request : PlanningRequest) (outcome : PlanningOutcome) (plan : Plan)
    (denials : List DenialPayload) : PlanResponsePayload where
  requestId := payload.requestId
  code := codeWord .ok
  hasPlan := true
  planRecord := plannedRecord env coordinator request plan
  denials
  explanation := if payload.includeExplanation then texts.explainPlan plan request else []
  searchExpansions := UInt64.ofNat outcome.searchExpansions

def countCommit (stats : ServerStats) : ServerStats := { stats with storeCommits := stats.storeCommits + 1 }

def countPlan (stats : ServerStats) : ServerStats := { stats with plansProduced := stats.plansProduced + 1 }

def answerPlanned (payload : PlanRequestPayload) (request : PlanningRequest) (outcome : PlanningOutcome) (plan : Plan) : Answer :=
  let response := plannedResponse texts env coordinator payload request outcome plan
  let counted := coordinator.bump countCommit
  match coordinator.store with
  | none => { reply := .planResponse (response []), session, coordinator := counted.bump countPlan, counted := countSent }
  | some store =>
      let stored := store.put env.files plan request
      let kept := { counted with store := some stored.store }
      match stored.result with
      | .ok _ =>
          { reply := .planResponse (response [])
            session
            coordinator := kept.bump countPlan
            effects := stored.effects
            counted := countSent }
      | .error status =>
          { reply := .planResponse (response [persistFailure status])
            session
            coordinator := (kept.bump countError).bump countPlan
            effects := stored.effects
            counted := countSent }

def answerPlanRequest : Answer :=
  match decodePlanRequest frame.payload with
  | .error status => sendError coordinator session frame status
  | .ok payload =>
      match texts.parseRequestText payload.requestText with
      | .error status =>
          { reply := .planResponse (rejectedResponse payload status)
            session
            coordinator := coordinator.bump countDenied
            counted := countSent }
      | .ok request =>
          let outcome := planCollective request {}
          match outcome.plan with
          | some plan => answerPlanned texts env coordinator session payload request outcome plan
          | none =>
              { reply := .planResponse (deniedResponse texts payload outcome)
                session
                coordinator := coordinator.bump countDenied
                counted := countSent }

-- A plan is served without the request it came from, of which only the digest is known.
def servedRecord (plan : Plan) : Bytes :=
  encodePlanRecord plan plan.inputDigest ⟨coordinator.incarnation⟩ 0 env.micros

def getPlanResponse (payload : GetPlanRequestPayload) (store : PlanStore) : GetPlanResponsePayload :=
  match store.get env.files dir ⟨payload.planId⟩ with
  | .error status => { requestId := payload.requestId, code := codeWord status.code }
  | .ok plan =>
      { requestId := payload.requestId
        code := codeWord .ok
        hasPlan := true
        planRecord := servedRecord env coordinator plan
        freshness := freshnessByte .unverified }

def answerGetPlan : Answer :=
  match decodeGetPlanRequest frame.payload with
  | .error status => sendError coordinator session frame status
  | .ok payload =>
      match coordinator.store with
      | none =>
          { reply := .getPlanResponse { requestId := payload.requestId, code := codeWord .storeNotOpen }
            session
            coordinator := coordinator.bump countRead
            counted := countSent }
      | some store =>
          { reply := .getPlanResponse (getPlanResponse env dir coordinator payload store)
            session
            coordinator := coordinator.bump countRead
            counted := countSent }

def summaryPayload (entry : StoredPlanSummary) : PlanSummaryPayload where
  planId := entry.id.value
  generation := entry.generation.value
  collective := entry.collective.value
  kind := UInt32.ofNat entry.kind.raw
  storedSequence := entry.storedSequence
  recordBytes := entry.recordBytes
  freshness := freshnessByte .unverified

def listPlansResponse (payload : ListPlansRequestPayload) (store : PlanStore) : ListPlansResponsePayload :=
  match store.list with
  | .error status => { requestId := payload.requestId, code := codeWord status.code }
  | .ok summaries => { requestId := payload.requestId, code := codeWord .ok, plans := summaries.map summaryPayload }

def answerListPlans : Answer :=
  match decodeListPlansRequest frame.payload with
  | .error status => sendError coordinator session frame status
  | .ok payload =>
      match coordinator.store with
      | none =>
          { reply := .listPlansResponse { requestId := payload.requestId, code := codeWord .storeNotOpen }
            session
            coordinator := coordinator.bump countRead
            counted := countSent }
      | some store =>
          { reply := .listPlansResponse (listPlansResponse payload store)
            session
            coordinator := coordinator.bump countRead
            counted := countSent }

def countRevalidated (stillValid : Bool) (stats : ServerStats) : ServerStats :=
  if stillValid then { stats with revalidationsCurrent := stats.revalidationsCurrent + 1 }
  else { stats with revalidationsStale := stats.revalidationsStale + 1 }

def revalidatedResponse (payload : RevalidateRequestPayload) (result : RevalidationResult) : RevalidateResponsePayload where
  requestId := payload.requestId
  code := codeWord result.code
  stillValid := result.stillValid
  freshness := freshnessByte result.freshness
  currentInputDigest := result.currentInputDigest
  detail := result.detail

def refusedRevalidation (payload : RevalidateRequestPayload) (status : Status) : RevalidateResponsePayload where
  requestId := payload.requestId
  code := codeWord status.code
  detail := status.detail

def answerRevalidate : Answer :=
  match decodeRevalidateRequest frame.payload with
  | .error status => sendError coordinator session frame status
  | .ok payload =>
      match texts.parseRequestText payload.requestText, coordinator.store with
      | .error status, _ =>
          { reply := .revalidateResponse (refusedRevalidation payload status), session, coordinator, counted := countSent }
      | .ok _, none =>
          { reply := .revalidateResponse { requestId := payload.requestId, code := codeWord .storeNotOpen }
            session
            coordinator
            counted := countSent }
      | .ok request, some store =>
          match store.revalidate env.files dir ⟨payload.planId⟩ request with
          | .error status =>
              { reply := .revalidateResponse (refusedRevalidation payload status), session, coordinator, counted := countSent }
          | .ok result =>
              { reply := .revalidateResponse (revalidatedResponse payload result)
                session
                coordinator := coordinator.bump (countRevalidated result.stillValid)
                counted := countSent }

def answerShutdown : Answer :=
  match decodeShutdownRequest frame.payload with
  | .error status => sendError coordinator session frame status
  | .ok payload =>
      if payload.expectedEpoch ≠ coordinator.epoch then
        sendError coordinator session frame ⟨.staleEpoch, text "shutdown was requested for epoch " ++
          decimal payload.expectedEpoch.toNat ++ text " but the coordinator holds epoch " ++ decimal coordinator.epoch.toNat⟩
      else { reply := .shutdownAck payload, session, coordinator, counted := countSent, shutdown := true }

-- What a session may ask for once it has shaken hands.
def answerRequest : Answer :=
  match frame.header.type with
  | .planRequest => answerPlanRequest texts env coordinator session frame
  | .getPlanRequest => answerGetPlan env dir coordinator session frame
  | .listPlansRequest => answerListPlans coordinator session frame
  | .revalidateRequest => answerRevalidate texts env dir coordinator session frame
  | .shutdownRequest => answerShutdown coordinator session frame
  | _ => sendError coordinator session frame (failure .unexpectedFrameType "this frame type is not accepted on a session")

def answerFrame : Answer :=
  if session.hasSequence = true ∧ frame.header.sequence ≤ session.lastSequence then
    sendError (coordinator.bump countReplay) session frame
      (failure .sequenceMismatch "the frame sequence did not advance in this session")
  else
    let session := { session with hasSequence := true, lastSequence := frame.header.sequence }
    match frame.header.type with
    | .hello => answerHello coordinator session frame
    | .ping => { reply := .pong, session, coordinator, counted := countSent }
    | _ =>
        if session.handshaken then answerRequest texts env dir coordinator session frame
        else
          sendError coordinator session frame
            (failure .sessionHandshakeRequired "send a hello frame before any other request")

-- A reply that could not be sent is not counted, and the session ends.
def handleFrame : Handled :=
  let answer := answerFrame texts env dir coordinator session frame
  let (status, written) := writeFrame env (replyHeaderFor coordinator session frame answer.reply.type) answer.reply.encode
  match status with
  | .error fault => ⟨.error fault, written, answer.session, answer.coordinator, answer.effects, false⟩
  | .ok _ =>
      ⟨.ok (), written, answer.session, answer.coordinator.bump answer.counted, answer.effects, answer.shutdown⟩

def storeConfigOf (config : ServerConfig) : StoreConfig where
  root := config.storeRoot
  maxRecords := kMaxStoreRecords
  maxRecordBytes := kMaxPlanRecordBytes
  maxTotalBytes := UInt64.ofNat kMaxStoreTotalBytes

-- A coordinator that was stopped is started; without a store root it offers no persistence, and counts from one.
def start (env : Environment) (dir : Directory) (coordinator : Coordinator) : Result Unit × Coordinator × List Effect :=
  if coordinator.config.storeRoot.isEmpty then (.ok (), { coordinator with epoch := 1, incarnation := 1 }, [])
  else
    let opened := PlanStore.openStore env dir { config := storeConfigOf coordinator.config }
    match opened.result with
    | .error status => (.error status, coordinator, opened.effects)
    | .ok _ =>
        (.ok (), { coordinator with
          store := some opened.store
          epoch := opened.store.epoch.value
          incarnation := opened.store.incarnation.value }, opened.effects)

-- The store is closed and let go once every session has ended.
def teardown (env : Environment) (coordinator : Coordinator) : Coordinator × List Effect :=
  match coordinator.store with
  | none => (coordinator, [])
  | some store => ({ coordinator with store := none }, (PlanStore.close env store).effects)

end Coordinator

end PathPlanner

import PathPlanner.Server.ServerRuns

set_option autoImplicit false

namespace PathPlanner

open Codec StoreFiles Wire

def ReplyPayload.isHelloAck : ReplyPayload → Bool
  | .helloAck _ => true
  | _ => false

def ReplyPayload.isShutdownAck : ReplyPayload → Bool
  | .shutdownAck _ => true
  | _ => false

-- The reply of a request that was acted upon.
def ReplyPayload.isService : ReplyPayload → Bool
  | .helloAck _ => false
  | .pong => false
  | .error _ => false
  | _ => true

namespace Coordinator

variable (texts : TextForms) (env : ServerEnvironment) (dir : Directory) (coordinator : Coordinator) (session : Session) (frame : Frame)

-- What no request does to its session, and when one stops the coordinator.
structure Requested (answer : Answer) : Prop where
  session : answer.session = session
  greets : answer.reply.isHelloAck = false
  fenced : answer.shutdown = true ∨ answer.reply.isShutdownAck = true →
    ∃ payload, decodeShutdownRequest frame.payload = .ok payload ∧ payload.expectedEpoch = coordinator.epoch

variable {coordinator session frame} in
theorem requested_plain (answer : Answer) (same : answer.session = session) (greets : answer.reply.isHelloAck = false)
    (stays : answer.shutdown = false) (acknowledges : answer.reply.isShutdownAck = false) :
    Requested coordinator session frame answer := by
  refine ⟨same, greets, fun granted => ?_⟩
  rw [stays, acknowledges] at granted
  simp at granted

theorem planned_requested (payload : PlanRequestPayload) (request : PlanningRequest) (outcome : PlanningOutcome) (plan : Plan) :
    Requested coordinator session frame (answerPlanned texts env coordinator session payload request outcome plan) := by
  unfold answerPlanned
  cases coordinator.store with
  | none => exact requested_plain _ rfl rfl rfl rfl
  | some store =>
      simp only
      cases (store.put env.files plan request).result with
      | ok summary => exact requested_plain _ rfl rfl rfl rfl
      | error status => exact requested_plain _ rfl rfl rfl rfl

theorem plan_requested : Requested coordinator session frame (answerPlanRequest texts env coordinator session frame) := by
  unfold answerPlanRequest
  cases decodePlanRequest frame.payload with
  | error status => exact requested_plain _ rfl rfl rfl rfl
  | ok payload =>
      simp only
      cases texts.parseRequestText payload.requestText with
      | error status => exact requested_plain _ rfl rfl rfl rfl
      | ok request =>
          simp only
          cases (planCollective request {}).plan with
          | some plan => exact planned_requested texts env coordinator session frame payload request _ plan
          | none => exact requested_plain _ rfl rfl rfl rfl

theorem get_requested : Requested coordinator session frame (answerGetPlan env dir coordinator session frame) := by
  unfold answerGetPlan
  cases decodeGetPlanRequest frame.payload with
  | error status => exact requested_plain _ rfl rfl rfl rfl
  | ok payload => cases coordinator.store <;> exact requested_plain _ rfl rfl rfl rfl

theorem list_requested : Requested coordinator session frame (answerListPlans coordinator session frame) := by
  unfold answerListPlans
  cases decodeListPlansRequest frame.payload with
  | error status => exact requested_plain _ rfl rfl rfl rfl
  | ok payload => cases coordinator.store <;> exact requested_plain _ rfl rfl rfl rfl

theorem revalidate_requested : Requested coordinator session frame (answerRevalidate texts env dir coordinator session frame) := by
  unfold answerRevalidate
  cases decodeRevalidateRequest frame.payload with
  | error status => exact requested_plain _ rfl rfl rfl rfl
  | ok payload =>
      simp only
      cases texts.parseRequestText payload.requestText with
      | error status => exact requested_plain _ rfl rfl rfl rfl
      | ok request =>
          cases coordinator.store with
          | none => exact requested_plain _ rfl rfl rfl rfl
          | some store =>
              simp only
              cases store.revalidate env.files dir ⟨payload.planId⟩ request with
              | error status => exact requested_plain _ rfl rfl rfl rfl
              | ok result => exact requested_plain _ rfl rfl rfl rfl

theorem shutdown_requested : Requested coordinator session frame (answerShutdown coordinator session frame) := by
  unfold answerShutdown
  cases decoded : decodeShutdownRequest frame.payload with
  | error status => exact requested_plain _ rfl rfl rfl rfl
  | ok payload =>
      simp only
      by_cases other : payload.expectedEpoch ≠ coordinator.epoch
      · rw [if_pos other]
        exact requested_plain _ rfl rfl rfl rfl
      · rw [if_neg other]
        exact ⟨rfl, rfl, fun _ => ⟨payload, decoded, not_not.mp other⟩⟩

theorem request_requested : Requested coordinator session frame (answerRequest texts env dir coordinator session frame) := by
  unfold answerRequest
  split
  · exact plan_requested texts env coordinator session frame
  · exact get_requested env dir coordinator session frame
  · exact list_requested coordinator session frame
  · exact revalidate_requested texts env dir coordinator session frame
  · exact shutdown_requested coordinator session frame
  · exact requested_plain _ rfl rfl rfl rfl

-- An answer that serves no request and leaves the store alone.
structure Idle (answer : Answer) : Prop where
  service : answer.reply.isService = false
  effects : answer.effects = []
  store : answer.coordinator.store = coordinator.store
  shutdown : answer.shutdown = false

-- What the answer to a hello makes of the session.
structure Greeting (answer : Answer) : Prop where
  hasSequence : answer.session.hasSequence = session.hasSequence
  lastSequence : answer.session.lastSequence = session.lastSequence
  handshaken : answer.session.handshaken = (session.handshaken || answer.reply.isHelloAck)
  once : answer.reply.isHelloAck = true → session.handshaken = false
  idle : Idle coordinator answer

theorem refused_greeting (status : Status) : Greeting coordinator session (sendError (coordinator.bump countRefused) session frame status) :=
  ⟨rfl, rfl, (Bool.or_false _).symm, nofun, rfl, rfl, rfl, rfl⟩

theorem hello_greeting : Greeting coordinator session (answerHello coordinator session frame) := by
  unfold answerHello
  cases decodeHello frame.payload with
  | error status => exact refused_greeting coordinator session frame status
  | ok payload =>
      simp only
      by_cases version : payload.protocolVersion.toNat ≠ kWireProtocolVersion
      · rw [if_pos version]
        exact refused_greeting coordinator session frame _
      · rw [if_neg version]
        by_cases shaken : session.handshaken = true
        · rw [if_pos shaken]
          exact refused_greeting coordinator session frame _
        · rw [if_neg shaken]
          exact ⟨rfl, rfl, (Bool.or_true _).symm, fun _ => Bool.not_eq_true _ ▸ shaken, rfl, rfl, rfl, rfl⟩

end Coordinator

theorem ReplyPayload.shutdown_ack_service (reply : ReplyPayload) (idle : reply.isService = false) : reply.isShutdownAck = false := by
  cases reply <;> first | rfl | cases idle

-- A frame delivered to a session, in whatever world the other sessions have left by then.
structure Delivery where
  env : ServerEnvironment
  dir : Directory
  coordinator : Coordinator
  frame : Frame

namespace Delivery

open Coordinator

variable (texts : TextForms)

def answer (session : Session) (delivery : Delivery) : Answer :=
  answerFrame texts delivery.env delivery.dir delivery.coordinator session delivery.frame

def handled (session : Session) (delivery : Delivery) : Handled :=
  handleFrame texts delivery.env delivery.dir delivery.coordinator session delivery.frame

-- Each delivery with the session it finds.
def turns : Session → List Delivery → List (Session × Delivery)
  | _, [] => []
  | session, delivery :: later => (session, delivery) :: turns (delivery.handled texts session).session later

def Stale (turn : Session × Delivery) : Prop :=
  turn.1.hasSequence = true ∧ turn.2.frame.header.sequence ≤ turn.1.lastSequence

instance (turn : Session × Delivery) : Decidable (Stale turn) := inferInstanceAs (Decidable (_ ∧ _))

def greeted (turn : Session × Delivery) : Bool := (turn.2.answer texts turn.1).reply.isHelloAck

-- The refusal counter moves and nothing else does.
structure Refused (turn : Session × Delivery) : Prop where
  session : (turn.2.handled texts turn.1).session = turn.1
  coordinator : (turn.2.handled texts turn.1).coordinator = turn.2.coordinator.bump countReplay
  effects : (turn.2.handled texts turn.1).effects = []
  shutdown : (turn.2.handled texts turn.1).shutdown = false
  reply : ∃ error, (turn.2.answer texts turn.1).reply = .error error

-- A request was planned, read, listed, revalidated or granted, or something was done to the store.
def TakesEffect (turn : Session × Delivery) : Prop :=
  (turn.2.answer texts turn.1).reply.isService = true ∨ (turn.2.handled texts turn.1).effects ≠ [] ∨
    (turn.2.handled texts turn.1).coordinator.store ≠ turn.2.coordinator.store ∨ (turn.2.handled texts turn.1).shutdown = true

def Granted (turn : Session × Delivery) : Prop :=
  (turn.2.handled texts turn.1).shutdown = true ∨ (turn.2.answer texts turn.1).reply.isShutdownAck = true

variable {texts} {session : Session} {delivery : Delivery}

theorem handled_session : (delivery.handled texts session).session = (delivery.answer texts session).session := by
  unfold handled handleFrame
  simp only
  split <;> rfl

theorem handled_effects : (delivery.handled texts session).effects = (delivery.answer texts session).effects := by
  unfold handled handleFrame
  simp only
  split <;> rfl

theorem handled_store : (delivery.handled texts session).coordinator.store = (delivery.answer texts session).coordinator.store := by
  unfold handled handleFrame
  simp only
  split <;> rfl

theorem handled_shutdown (granted : (delivery.handled texts session).shutdown = true) :
    (delivery.answer texts session).shutdown = true := by
  unfold handled handleFrame at granted
  simp only at granted
  split at granted
  · cases granted
  · exact granted

theorem stale_answer (stale : Stale (session, delivery)) : delivery.answer texts session =
    sendError (delivery.coordinator.bump countReplay) session delivery.frame
      (failure .sequenceMismatch "the frame sequence did not advance in this session") := by
  unfold answer answerFrame
  exact if_pos stale

theorem stale_refused (stale : Stale (session, delivery)) : Refused texts (session, delivery) := by
  have answered := @stale_answer texts session delivery stale
  refine ⟨?_, ?_, ?_, ?_, ⟨_, congrArg Answer.reply answered⟩⟩
  · rw [handled_session, answered]
    rfl
  · unfold handled handleFrame
    rw [answer] at answered
    rw [answered]
    simp only
    split <;> rfl
  · rw [handled_effects, answered]
    rfl
  · by_contra granted
    have shutdown := @handled_shutdown texts session delivery (Bool.not_eq_false _ ▸ granted)
    rw [answered] at shutdown
    cases shutdown

-- What a frame that is not stale makes of the session, and what it takes to have an effect.
structure Fresh (texts : TextForms) (turn : Session × Delivery) : Prop where
  hasSequence : (turn.2.handled texts turn.1).session.hasSequence = true
  lastSequence : (turn.2.handled texts turn.1).session.lastSequence = turn.2.frame.header.sequence
  handshaken : (turn.2.handled texts turn.1).session.handshaken = (turn.1.handshaken || greeted texts turn)
  once : greeted texts turn = true → turn.1.handshaken = false
  gated : TakesEffect texts turn → turn.1.handshaken = true
  fenced : Granted texts turn → ∃ payload, decodeShutdownRequest turn.2.frame.payload = .ok payload ∧
    payload.expectedEpoch = turn.2.coordinator.epoch

theorem idle_effect (idle : Idle delivery.coordinator (delivery.answer texts session)) :
    ¬ TakesEffect texts (session, delivery) ∧ ¬ Granted texts (session, delivery) := by
  have stays : ¬ (delivery.handled texts session).shutdown = true := by
    intro granted
    have shutdown := handled_shutdown granted
    rw [idle.shutdown] at shutdown
    cases shutdown
  constructor
  · rintro (service | effects | store | granted)
    · rw [idle.service] at service
      cases service
    · exact effects (handled_effects.trans idle.effects)
    · exact store (handled_store.trans idle.store)
    · exact stays granted
  · rintro (granted | acknowledged)
    · exact stays granted
    · rw [ReplyPayload.shutdown_ack_service _ idle.service] at acknowledged
      cases acknowledged

-- The session as a frame that advances its sequence leaves it.
def advanced (session : Session) (frame : Frame) : Session :=
  { session with hasSequence := true, lastSequence := frame.header.sequence }

theorem fresh_idle (same : (delivery.answer texts session).session = advanced session delivery.frame)
    (greets : (delivery.answer texts session).reply.isHelloAck = false) (idle : Idle delivery.coordinator (delivery.answer texts session)) :
    Fresh texts (session, delivery) := by
  obtain ⟨effect, granted⟩ := idle_effect idle
  refine ⟨?_, ?_, ?_, ?_, fun takes => absurd takes effect, fun given => absurd given granted⟩
  · rw [handled_session, same]
    rfl
  · rw [handled_session, same]
    rfl
  · rw [handled_session, same, greeted, greets, Bool.or_false]
    rfl
  · rw [greeted, greets]
    exact nofun

theorem fresh_hello (fresh : ¬ Stale (session, delivery)) (hello : delivery.frame.header.type = .hello) :
    delivery.answer texts session = answerHello delivery.coordinator (advanced session delivery.frame) delivery.frame := by
  unfold answer answerFrame
  refine (if_neg fresh).trans ?_
  rw [hello]
  rfl

theorem fresh_ping (fresh : ¬ Stale (session, delivery)) (ping : delivery.frame.header.type = .ping) :
    delivery.answer texts session =
      { reply := .pong, session := advanced session delivery.frame, coordinator := delivery.coordinator, counted := countSent } := by
  unfold answer answerFrame
  refine (if_neg fresh).trans ?_
  rw [ping]
  rfl

theorem fresh_request (fresh : ¬ Stale (session, delivery)) (hello : delivery.frame.header.type ≠ .hello)
    (ping : delivery.frame.header.type ≠ .ping) : delivery.answer texts session =
      if session.handshaken = true then
        answerRequest texts delivery.env delivery.dir delivery.coordinator (advanced session delivery.frame) delivery.frame
      else
        sendError delivery.coordinator (advanced session delivery.frame) delivery.frame
          (failure .sessionHandshakeRequired "send a hello frame before any other request") := by
  unfold answer answerFrame
  refine (if_neg fresh).trans ?_
  simp only
  split <;> rfl

theorem fresh_turn (fresh : ¬ Stale (session, delivery)) : Fresh texts (session, delivery) := by
  by_cases hello : delivery.frame.header.type = .hello
  · have greeting := hello_greeting delivery.coordinator (advanced session delivery.frame) delivery.frame
    rw [← @fresh_hello texts session delivery fresh hello] at greeting
    obtain ⟨effect, granted⟩ := idle_effect greeting.idle
    refine ⟨?_, ?_, ?_, greeting.once, fun takes => absurd takes effect, fun given => absurd given granted⟩
    · rw [handled_session, greeting.hasSequence]
      rfl
    · rw [handled_session, greeting.lastSequence]
      rfl
    · rw [handled_session, greeting.handshaken]
      rfl
  · by_cases ping : delivery.frame.header.type = .ping
    · have answered := @fresh_ping texts session delivery fresh ping
      exact fresh_idle (by rw [answered]) (by rw [answered]; rfl) (by rw [answered]; exact ⟨rfl, rfl, rfl, rfl⟩)
    · have answered := @fresh_request texts session delivery fresh hello ping
      by_cases shaken : session.handshaken = true
      · rw [if_pos shaken] at answered
        have requested := request_requested texts delivery.env delivery.dir delivery.coordinator (advanced session delivery.frame) delivery.frame
        rw [← answered] at requested
        refine ⟨?_, ?_, ?_, ?_, fun _ => shaken, fun granted => requested.fenced (granted.imp_left handled_shutdown)⟩
        · rw [handled_session, requested.session]
          rfl
        · rw [handled_session, requested.session]
          rfl
        · rw [handled_session, requested.session, greeted, requested.greets, Bool.or_false]
          rfl
        · rw [greeted, requested.greets]
          exact nofun
      · rw [if_neg shaken] at answered
        exact fresh_idle (by rw [answered]; rfl) (by rw [answered]; rfl) (by rw [answered]; exact ⟨rfl, rfl, rfl, rfl⟩)

theorem stale_idle (stale : Stale (session, delivery)) : Idle delivery.coordinator (delivery.answer texts session) := by
  rw [stale_answer stale]
  exact ⟨rfl, rfl, rfl, rfl⟩

theorem stale_greets (stale : Stale (session, delivery)) : greeted texts (session, delivery) = false := by
  rw [greeted, stale_answer stale]
  rfl

-- The sequence numbers of the frames acted upon.
def accepted (run : List (Session × Delivery)) : List UInt64 :=
  (run.filter fun turn => ¬ Stale turn).map fun turn => turn.2.frame.header.sequence

theorem accepted_above (deliveries : List Delivery) (session : Session) (started : session.hasSequence = true) :
    ∀ sequence ∈ accepted (turns texts session deliveries), session.lastSequence < sequence := by
  induction deliveries generalizing session with
  | nil => simp [turns, accepted]
  | cons delivery later ih =>
      rw [turns, accepted]
      by_cases stale : Stale (session, delivery)
      · rw [List.filter_cons_of_neg (by simpa using stale), (@stale_refused texts session delivery stale).session]
        exact ih session started
      · rw [List.filter_cons_of_pos (by simpa using stale), List.map_cons]
        have fresh := @fresh_turn texts session delivery stale
        have above : session.lastSequence < delivery.frame.header.sequence := by
          by_contra below
          exact stale ⟨started, UInt64.not_lt.mp below⟩
        intro sequence listed
        rcases List.mem_cons.mp listed with rfl | listed
        · exact above
        · have beyond := ih _ fresh.hasSequence sequence listed
          rw [fresh.lastSequence] at beyond
          exact UInt64.lt_trans above beyond

theorem accepted_increasing (deliveries : List Delivery) (session : Session) :
    (accepted (turns texts session deliveries)).Pairwise (· < ·) := by
  induction deliveries generalizing session with
  | nil => simp [turns, accepted]
  | cons delivery later ih =>
      rw [turns, accepted]
      by_cases stale : Stale (session, delivery)
      · rw [List.filter_cons_of_neg (by simpa using stale), (@stale_refused texts session delivery stale).session]
        exact ih session
      · rw [List.filter_cons_of_pos (by simpa using stale), List.map_cons]
        have fresh := @fresh_turn texts session delivery stale
        refine List.Pairwise.cons (fun sequence listed => ?_) (ih _)
        rw [← fresh.lastSequence]
        exact accepted_above later _ fresh.hasSequence sequence listed

theorem greeted_once (deliveries : List Delivery) (session : Session) :
    ((turns texts session deliveries).filter (greeted texts)).length ≤ if session.handshaken = true then 0 else 1 := by
  induction deliveries generalizing session with
  | nil => simp [turns]
  | cons delivery later ih =>
      rw [turns]
      by_cases stale : Stale (session, delivery)
      · rw [List.filter_cons_of_neg (by rw [stale_greets stale]; exact Bool.false_ne_true), (@stale_refused texts session delivery stale).session]
        exact ih session
      · have fresh := @fresh_turn texts session delivery stale
        have rest := ih (delivery.handled texts session).session
        rw [fresh.handshaken] at rest
        by_cases greets : greeted texts (session, delivery) = true
        · rw [List.filter_cons_of_pos greets, List.length_cons, fresh.once greets, if_neg Bool.false_ne_true]
          rw [greets, Bool.or_true, if_pos rfl] at rest
          omega
        · rw [List.filter_cons_of_neg greets]
          rw [Bool.not_eq_true] at greets
          rw [greets, Bool.or_false] at rest
          exact rest

theorem gated_after (deliveries : List Delivery) (session : Session) (before after : List (Session × Delivery))
    (turn : Session × Delivery) (split : turns texts session deliveries = before ++ turn :: after) (takes : TakesEffect texts turn) :
    session.handshaken = true ∨ ∃ earlier ∈ before, greeted texts earlier = true := by
  induction deliveries generalizing session before with
  | nil => simp [turns] at split
  | cons delivery later ih =>
      rw [turns] at split
      cases before with
      | nil =>
          obtain ⟨rfl, _⟩ := List.cons.inj split
          by_cases stale : Stale (session, delivery)
          · exact absurd takes (idle_effect (stale_idle stale)).1
          · exact Or.inl ((fresh_turn stale).gated takes)
      | cons first rest =>
          obtain ⟨rfl, tail⟩ := List.cons.inj split
          rcases ih _ rest tail with shaken | ⟨earlier, listed, greets⟩
          · by_cases stale : Stale (session, delivery)
            · rw [(stale_refused stale).session] at shaken
              exact Or.inl shaken
            · rw [(fresh_turn stale).handshaken, Bool.or_eq_true] at shaken
              exact shaken.imp_right fun greets => ⟨_, List.mem_cons_self, greets⟩
          · exact Or.inr ⟨earlier, List.mem_cons_of_mem _ listed, greets⟩

end Delivery

open Delivery in
-- What a session promises over every sequence of frames, from the moment it is opened.
structure SessionSafe (texts : TextForms) (run : List (Session × Delivery)) : Prop where
  increasing : (accepted run).Pairwise (· < ·)
  refused : ∀ turn ∈ run, Stale turn → Refused texts turn
  gated : ∀ before turn after, run = before ++ turn :: after → TakesEffect texts turn → ∃ earlier ∈ before, greeted texts earlier = true
  once : (run.filter (greeted texts)).length ≤ 1
  fenced : ∀ turn ∈ run, Granted texts turn → ∃ payload, decodeShutdownRequest turn.2.frame.payload = .ok payload ∧
    payload.expectedEpoch = turn.2.coordinator.epoch

open Delivery in
theorem session_protocol_safe (texts : TextForms) (id : UInt64) (deliveries : List Delivery) :
    SessionSafe texts (turns texts { id } deliveries) where
  increasing := accepted_increasing deliveries _
  refused := fun _ _ stale => stale_refused stale
  gated := by
    intro before turn after split takes
    exact (gated_after deliveries { id } before after turn split takes).resolve_left Bool.false_ne_true
  once := greeted_once deliveries { id }
  fenced := by
    intro turn _ granted
    by_cases stale : Stale turn
    · exact absurd granted (idle_effect (stale_idle stale)).2
    · exact (fresh_turn stale).fenced granted

end PathPlanner

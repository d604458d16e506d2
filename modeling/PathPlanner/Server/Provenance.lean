import PathPlanner.Server.ServerRuns
import PathPlanner.Wire.PayloadCodecs

set_option autoImplicit false

namespace PathPlanner.Coordinator

open Checks Codec Moves PlanCollective PlanStore StoreFiles StoreRecord ValidatePlan Wire

-- The plan record a reply carries, if it carries one.
def planRecordOf : ReplyPayload → Option Bytes
  | .planResponse response => if response.hasPlan then some response.planRecord else none
  | .getPlanResponse response => if response.hasPlan then some response.planRecord else none
  | _ => none

-- What a record says of its commit is what the store says of it; an uncommitted record bears no number.
def TellsProvenance (store : PlanStore) (record : Bytes) : Prop :=
  ∃ plan told, decodePlanRecord record = .ok (plan, told) ∧
    match PlanStore.summary store plan.id with
    | .ok stored => told.writtenIncarnation = stored.writtenIncarnation ∧ told.storedSequence = stored.storedSequence
    | .error _ => told.storedSequence = 0

-- A session's frame that gets as far as a request of the given type.
structure Admitted (session : Session) (frame : Frame) (type : FrameType) : Prop where
  fresh : ¬ (session.hasSequence = true ∧ frame.header.sequence ≤ session.lastSequence)
  handshaken : session.handshaken = true
  type : frame.header.type = type

structure PlanAsked (texts : TextForms) (session : Session) (frame : Frame) (request : PlanningRequest) (plan : Plan) : Prop where
  admitted : Admitted session frame .planRequest
  parsed : ∃ payload, decodePlanRequest frame.payload = .ok payload ∧ texts.parseRequestText payload.requestText = .ok request
  planned : (planCollective request {}).plan = some plan

structure PlanFetched (env : Environment) (dir : Directory) (store : PlanStore) (session : Session) (frame : Frame)
    (id : CollectivePlanId) (plan : Plan) : Prop where
  admitted : Admitted session frame .getPlanRequest
  asked : ∃ payload, decodeGetPlanRequest frame.payload = .ok payload ∧ id = ⟨payload.planId⟩
  held : get env dir store id = .ok plan

-- The put gets as far as its record.
def Commits (env : Environment) (store : PlanStore) (plan : Plan) (request : PlanningRequest) : Prop :=
  (∃ pending, preparePut env store plan request = .ok pending) ∧ ¬ WriteFails env (recordFileName plan.id.value)

-- The store already holds the plan under the number the coordinator is about to give, or has none and none is given.
def Numbered (coordinator : Coordinator) (store : PlanStore) (id : CollectivePlanId) (sequence : UInt64) : Prop :=
  match PlanStore.summary store id with
  | .ok stored => stored.writtenIncarnation = ⟨coordinator.incarnation⟩ ∧ stored.storedSequence = sequence
  | .error _ => sequence = 0

structure PlannedTruly (env : Environment) (coordinator : Coordinator) (store : PlanStore) (request : PlanningRequest) (plan : Plan) :
    Prop where
  storable : Storable plan
  committed : Commits env store plan request → coordinator.stats.storeCommits = store.sequence
  uncommitted : ¬ Commits env store plan request → Numbered coordinator store plan.id (coordinator.stats.storeCommits + 1)

variable (texts : TextForms) (env : ServerEnvironment) (dir : Directory) (coordinator : Coordinator) (session : Session)
  (frame : Frame)

theorem record_of_error (status : Status) : planRecordOf (sendError coordinator session frame status).reply = none := rfl

def advancedSession (session : Session) (frame : Frame) : Session :=
  { session with hasSequence := true, lastSequence := frame.header.sequence }

theorem answer_admitted (type : FrameType) (admitted : Admitted session frame type) (greets : type ≠ .hello ∧ type ≠ .ping) :
    answerFrame texts env dir coordinator session frame =
      answerRequest texts env dir coordinator (advancedSession session frame) frame := by
  unfold answerFrame
  rw [if_neg admitted.fresh]
  have named := admitted.type
  simp only
  split
  · exact absurd (named.symm.trans ‹_›) greets.1
  · exact absurd (named.symm.trans ‹_›) greets.2
  · rw [if_pos admitted.handshaken]
    rfl

theorem hello_recordless : planRecordOf (answerHello coordinator session frame).reply = none := by
  unfold answerHello
  cases decodeHello frame.payload with
  | error status => rfl
  | ok payload =>
      simp only
      split_ifs <;> rfl

theorem list_recordless : planRecordOf (answerListPlans coordinator session frame).reply = none := by
  unfold answerListPlans
  cases decodeListPlansRequest frame.payload with
  | error status => rfl
  | ok payload => cases coordinator.store <;> rfl

theorem revalidate_recordless : planRecordOf (answerRevalidate texts env dir coordinator session frame).reply = none := by
  unfold answerRevalidate
  cases decodeRevalidateRequest frame.payload with
  | error status => rfl
  | ok payload =>
      simp only
      cases texts.parseRequestText payload.requestText with
      | error status => rfl
      | ok request =>
          cases coordinator.store with
          | none => rfl
          | some store =>
              simp only
              cases store.revalidate env.files dir ⟨payload.planId⟩ request <;> rfl

theorem shutdown_recordless : planRecordOf (answerShutdown coordinator session frame).reply = none := by
  unfold answerShutdown
  cases decodeShutdownRequest frame.payload with
  | error status => rfl
  | ok payload =>
      simp only
      split_ifs <;> rfl

-- Only an admitted plan or get request is answered with a record.
theorem record_admitted (record : Bytes)
    (served : planRecordOf (answerFrame texts env dir coordinator session frame).reply = some record) :
    (Admitted session frame .planRequest ∧
      planRecordOf (answerPlanRequest texts env coordinator (advancedSession session frame) frame).reply = some record) ∨
    (Admitted session frame .getPlanRequest ∧
      planRecordOf (answerGetPlan env dir coordinator (advancedSession session frame) frame).reply = some record) := by
  unfold answerFrame at served
  split_ifs at served with fresh
  · cases served
  · simp only at served
    split at served
    · rw [hello_recordless] at served
      cases served
    · cases served
    · split_ifs at served with handshaken
      · unfold answerRequest at served
        split at served
        · exact Or.inl ⟨⟨fresh, handshaken, ‹_›⟩, served⟩
        · exact Or.inr ⟨⟨fresh, handshaken, ‹_›⟩, served⟩
        · rw [list_recordless] at served
          cases served
        · rw [revalidate_recordless] at served
          cases served
        · rw [shutdown_recordless] at served
          cases served
        · cases served
      · cases served

theorem planned_record (payload : PlanRequestPayload) (request : PlanningRequest) (outcome : PlanningOutcome) (plan : Plan) :
    planRecordOf (answerPlanned texts env coordinator session payload request outcome plan).reply =
        some (plannedRecord env coordinator request plan) ∧
      (answerPlanned texts env coordinator session payload request outcome plan).coordinator.store =
        coordinator.store.map fun store => (store.put env.files plan request).store := by
  unfold answerPlanned
  cases held : coordinator.store with
  | none => exact ⟨rfl, held⟩
  | some store =>
      simp only
      cases (store.put env.files plan request).result with
      | ok summary => exact ⟨rfl, rfl⟩
      | error status => exact ⟨rfl, rfl⟩

theorem plan_request_record (record : Bytes) :
    planRecordOf (answerPlanRequest texts env coordinator session frame).reply = some record ↔
      ∃ payload request plan, decodePlanRequest frame.payload = .ok payload ∧
        texts.parseRequestText payload.requestText = .ok request ∧ (planCollective request {}).plan = some plan ∧
        answerPlanRequest texts env coordinator session frame =
          answerPlanned texts env coordinator session payload request (planCollective request {}) plan ∧
        record = plannedRecord env coordinator request plan := by
  unfold answerPlanRequest
  generalize ({} : PlannerLimits) = limits
  cases decodePlanRequest frame.payload with
  | error status => simp [record_of_error]
  | ok payload =>
      simp only
      cases parsed : texts.parseRequestText payload.requestText with
      | error status => simp [planRecordOf, rejectedResponse, parsed]
      | ok request =>
          simp only
          cases planned : (planCollective request limits).plan with
          | none =>
              refine iff_of_false (by simp [planRecordOf, deniedResponse]) ?_
              rintro ⟨_, _, _, ⟨⟩, same, other, _⟩
              cases parsed.symm.trans same
              cases planned.symm.trans other
          | some plan =>
              have given := (planned_record texts env coordinator session payload request (planCollective request limits) plan).1
              simp only [given]
              constructor
              · rintro ⟨⟩
                exact ⟨payload, request, plan, rfl, parsed, planned, rfl, rfl⟩
              · rintro ⟨_, _, _, ⟨⟩, same, other, _, rfl⟩
                cases parsed.symm.trans same
                cases planned.symm.trans other
                rfl

theorem plan_request_answer (payload : PlanRequestPayload) (request : PlanningRequest) (plan : Plan)
    (decoded : decodePlanRequest frame.payload = .ok payload) (parsed : texts.parseRequestText payload.requestText = .ok request)
    (planned : (planCollective request {}).plan = some plan) : answerPlanRequest texts env coordinator session frame =
      answerPlanned texts env coordinator session payload request (planCollective request {}) plan := by
  unfold answerPlanRequest
  generalize ({} : PlannerLimits) = limits at planned ⊢
  simp only [decoded, parsed, planned]

theorem get_request_record (store : PlanStore) (held : coordinator.store = some store) (record : Bytes) :
    planRecordOf (answerGetPlan env dir coordinator session frame).reply = some record ↔
      ∃ payload plan, decodeGetPlanRequest frame.payload = .ok payload ∧ get env.files dir store ⟨payload.planId⟩ = .ok plan ∧
        record = servedRecord env coordinator plan := by
  unfold answerGetPlan
  cases decodeGetPlanRequest frame.payload with
  | error status => simp [record_of_error]
  | ok payload =>
      rw [held]
      simp only [getPlanResponse]
      cases fetched : get env.files dir store ⟨payload.planId⟩ with
      | error status => simp [planRecordOf, fetched]
      | ok plan => simp [planRecordOf, fetched, eq_comm]

theorem get_keeps_store : (answerGetPlan env dir coordinator session frame).coordinator.store = coordinator.store := by
  unfold answerGetPlan
  cases decodeGetPlanRequest frame.payload with
  | error status => rfl
  | ok payload => cases held : coordinator.store <;> exact held

theorem handled_store : (handleFrame texts env dir coordinator session frame).coordinator.store =
    (answerFrame texts env dir coordinator session frame).coordinator.store := by
  unfold handleFrame
  simp only
  split <;> rfl

-- The record of a plan is told as the coordinator numbered it.
theorem record_told_iff (store : PlanStore) (plan : Plan) (digest : Digest) (sequence : UInt64) (own : plan.inputDigest = digest)
    (readable : (∃ found, decodePlanRecord (encodePlanRecord plan digest ⟨coordinator.incarnation⟩ sequence env.micros) = .ok found) →
      Storable plan) :
    TellsProvenance store (encodePlanRecord plan digest ⟨coordinator.incarnation⟩ sequence env.micros) ↔
      Storable plan ∧ Numbered coordinator store plan.id sequence := by
  constructor
  · rintro ⟨found, told, decoded, agrees⟩
    have storable := readable ⟨_, decoded⟩
    have known := decode_encode_record plan digest ⟨coordinator.incarnation⟩ sequence env.micros storable own
    obtain ⟨rfl, rfl⟩ := Prod.mk.inj (Except.ok.inj (known.symm.trans decoded))
    refine ⟨storable, ?_⟩
    unfold Numbered
    cases stored : PlanStore.summary store plan.id with
    | error status =>
        rw [stored] at agrees
        exact agrees
    | ok summary =>
        rw [stored] at agrees
        exact ⟨agrees.1.symm, agrees.2.symm⟩
  · rintro ⟨storable, numbered⟩
    refine ⟨plan, _, decode_encode_record plan digest ⟨coordinator.incarnation⟩ sequence env.micros storable own, ?_⟩
    unfold Numbered at numbered
    cases stored : PlanStore.summary store plan.id with
    | error status =>
        rw [stored] at numbered
        exact numbered
    | ok summary =>
        rw [stored] at numbered
        exact ⟨numbered.1.symm, numbered.2.symm⟩

theorem summary_found (store : PlanStore) (opened : store.isOpen = true) (id : CollectivePlanId) (entry : StoreEntry)
    (found : store.index.find id.value = some entry) : PlanStore.summary store id = .ok entry.summary :=
  (bind_ok _ _ _).mpr ⟨entry, (find_entry_ok store id entry).mpr ⟨opened, found⟩, rfl⟩

theorem committed_summary (env : Environment) (store : PlanStore) (plan : Plan) (request : PlanningRequest)
    (commits : Commits env store plan request) : ∃ stored, PlanStore.summary (put env store plan request).store plan.id = .ok stored ∧
      stored.writtenIncarnation = store.incarnation ∧ stored.storedSequence = store.sequence + 1 := by
  obtain ⟨⟨pending, checked⟩, writes⟩ := commits
  have prepared := prepare_put_ok env store plan request pending checked
  have left : (put env store plan request).store = commit env store plan pending := by
    have performed := put_case env store plan request
    generalize put env store plan request = done at performed ⊢
    cases performed with
    | refused status refused => cases checked.symm.trans refused
    | unwritten status other written checkedToo write =>
        cases checked.symm.trans checkedToo
        exact absurd ((write_fails_iff env store.config.root _ _ pending.record).mpr ⟨status, written, write⟩) writes
    | unpersisted status other written persisted checkedToo => rw [Except.ok.inj (checked.symm.trans checkedToo)]
    | committed other written persisted checkedToo => rw [Except.ok.inj (checked.symm.trans checkedToo)]
  have listed := committed_indexed env store plan request pending checked
  rw [← left] at listed
  refine ⟨_, summary_found _ ?_ plan.id _ listed, rfl, prepared.sequence⟩
  rw [(put_kept env store plan request).1]
  exact prepared.opened

theorem uncommitted_store (env : Environment) (store : PlanStore) (plan : Plan) (request : PlanningRequest)
    (uncommitted : ¬ Commits env store plan request) : (put env store plan request).store = store := by
  have performed := put_case env store plan request
  generalize put env store plan request = done at performed ⊢
  have written (pending : PendingPut) (effects : List Effect) (checked : preparePut env store plan request = .ok pending)
      (write : writeRecord env store plan pending = (.ok (), effects)) : Commits env store plan request := by
    refine ⟨⟨pending, checked⟩, fun fails => ?_⟩
    obtain ⟨status, other, failed⟩ := (write_fails_iff env store.config.root (stagingFileName (env.token 0) (env.micros 1)) _ pending.record).mp fails
    cases write.symm.trans failed
  cases performed with
  | refused status refused => rfl
  | unwritten status pending effects checked write => rfl
  | unpersisted status pending effects persisted checked write => exact absurd (written pending effects checked write) uncommitted
  | committed pending effects persisted checked write => exact absurd (written pending effects checked write) uncommitted

theorem parsed_built (request : PlanningRequest) (written : Bytes) (parsed : texts.parseRequestText written = .ok request) :
    ∃ input : BuiltRequest, input.request = request := by
  obtain ⟨spec, _, built⟩ := (bind_ok _ _ _).mp parsed
  exact ⟨⟨request, spec, built⟩, rfl⟩

theorem planned_told_iff (store : PlanStore) (own : store.incarnation = ⟨coordinator.incarnation⟩) (request : PlanningRequest)
    (plan : Plan) (input : BuiltRequest) (built : input.request = request) (planned : (planCollective request {}).plan = some plan) :
    TellsProvenance (put env.files store plan request).store (plannedRecord env coordinator request plan) ↔
      PlannedTruly env.files coordinator store request plan := by
  subst built
  have digest : plan.inputDigest = input.request.canonicalDigest := (validate_plan_ok.mp (planned_valid input planned)).identity.digest
  have told := record_told_iff env coordinator (put env.files store plan input.request).store plan input.request.canonicalDigest
    (coordinator.stats.storeCommits + 1) digest ?_
  · rw [plannedRecord, told]
    by_cases commits : Commits env.files store plan input.request
    · obtain ⟨stored, found, written, numbered⟩ := committed_summary env.files store plan input.request commits
      have exactly : Numbered coordinator (put env.files store plan input.request).store plan.id (coordinator.stats.storeCommits + 1) ↔
          coordinator.stats.storeCommits = store.sequence := by
        rw [Numbered, found]
        simp only [written, numbered, own, true_and]
        exact ⟨fun same => (UInt64.add_left_inj 1).mp same.symm, fun same => by rw [same]⟩
      rw [exactly]
      exact ⟨fun ⟨storable, same⟩ => ⟨storable, fun _ => same, fun other => absurd commits other⟩,
        fun truly => ⟨truly.storable, truly.committed commits⟩⟩
    · rw [uncommitted_store env.files store plan input.request commits]
      exact ⟨fun ⟨storable, numbered⟩ => ⟨storable, fun other => absurd other commits, fun _ => numbered⟩,
        fun truly => ⟨truly.storable, truly.uncommitted commits⟩⟩
  · rintro ⟨⟨found, summary⟩, decoded⟩
    obtain ⟨storable, same, _⟩ := encoded_record_decodes plan found _ _ _ _ summary decoded
    have room := storable.room
    rw [same] at room
    have nonzero := storable.decodable.nonzero
    rw [encode_digest found plan same] at nonzero
    exact ⟨planned_decodable input {} plan planned nonzero (by omega), room⟩

-- What is read under an identity is the plan of that identity.
theorem get_named (store : PlanStore) (tidy : Tidy ⟨dir, store⟩) (id : CollectivePlanId) (plan : Plan)
    (held : get env.files dir store id = .ok plan) : plan.id = id ∧ Storable plan := by
  obtain ⟨entry, found, held⟩ := (bind_ok _ _ _).mp held
  obtain ⟨bytes, read, held⟩ := (bind_ok _ _ _).mp held
  obtain ⟨⟨stored, summary⟩, decoded, held⟩ := (bind_ok _ _ _).mp held
  cases held
  obtain ⟨present, _⟩ := read_file_ok _ _ _ _ _ _ read
  have path := tidy.paths id.value entry ((SortedMap.find_some _ _ _).mp ((find_entry_ok store id entry).mp found).2)
  rw [path] at present
  have named := record_file_name_injective (tidy.layout _ bytes plan summary (record_file_name_record _) present decoded)
  obtain ⟨storable, metadata, _, _, carried⟩ := decode_record_canonical bytes plan summary decoded
  rw [carried] at named
  exact ⟨StrongId.value_injective named.symm, storable⟩

-- What a get serves is told truly only of a plan whose stored number is zero.
theorem fetched_told_iff (store : PlanStore) (tidy : Tidy ⟨dir, store⟩) (id : CollectivePlanId) (plan : Plan)
    (held : get env.files dir store id = .ok plan) :
    TellsProvenance store (servedRecord env coordinator plan) ↔ Numbered coordinator store id 0 := by
  obtain ⟨rfl, storable⟩ := get_named env dir store tidy id plan held
  rw [servedRecord, record_told_iff env coordinator store plan plan.inputDigest 0 rfl fun _ => storable]
  exact ⟨fun told => told.2, fun numbered => ⟨storable, numbered⟩⟩

-- Every record in the answer to a frame tells its provenance.
def ServesProvenance (world : ServerWorld) (session : Session) (frame : Frame) : Prop :=
  ∀ record store, planRecordOf (answerFrame texts env world.dir world.coordinator session frame).reply = some record →
    (handleFrame texts env world.dir world.coordinator session frame).coordinator.store = some store → TellsProvenance store record

theorem serves_planned_iff (world : ServerWorld) (store : PlanStore) (held : world.coordinator.store = some store)
    (own : store.incarnation = ⟨world.coordinator.incarnation⟩) (admitted : Admitted session frame .planRequest) :
    ServesProvenance texts env world session frame ↔
      ∀ request plan, PlanAsked texts session frame request plan → PlannedTruly env.files world.coordinator store request plan := by
  have answer := answer_admitted texts env world.dir world.coordinator session frame .planRequest admitted (by decide)
  rw [answerRequest, admitted.type] at answer
  have records := plan_request_record texts env world.coordinator (advancedSession session frame) frame
  have told (payload : PlanRequestPayload) (request : PlanningRequest) (plan : Plan)
      (parsed : texts.parseRequestText payload.requestText = .ok request) (planned : (planCollective request {}).plan = some plan)
      (given : answerPlanRequest texts env world.coordinator (advancedSession session frame) frame =
        answerPlanned texts env world.coordinator (advancedSession session frame) payload request (planCollective request {}) plan) :
      (handleFrame texts env world.dir world.coordinator session frame).coordinator.store =
          some (put env.files store plan request).store ∧
        (TellsProvenance (put env.files store plan request).store (plannedRecord env world.coordinator request plan) ↔
          PlannedTruly env.files world.coordinator store request plan) := by
    obtain ⟨input, built⟩ := parsed_built texts request payload.requestText parsed
    refine ⟨?_, planned_told_iff env world.coordinator store own request plan input built planned⟩
    rw [handled_store, answer, given, (planned_record texts env _ _ payload request _ plan).2, held]
    rfl
  unfold ServesProvenance
  rw [answer]
  constructor
  · intro serves request plan asked
    obtain ⟨payload, decoded, parsed⟩ := asked.parsed
    have known := (plan_request_answer texts env world.coordinator (advancedSession session frame) frame payload request plan decoded
      parsed asked.planned)
    obtain ⟨after, exactly⟩ := told payload request plan parsed asked.planned known
    refine exactly.mp (serves _ _ ((records _).mpr ⟨payload, request, plan, decoded, parsed, asked.planned, known, rfl⟩) after)
  · intro truly record after served left
    obtain ⟨payload, request, plan, decoded, parsed, planned, given, rfl⟩ := (records record).mp served
    obtain ⟨left', exactly⟩ := told payload request plan parsed planned given
    cases left'.symm.trans left
    exact exactly.mpr (truly request plan ⟨admitted, ⟨payload, decoded, parsed⟩, planned⟩)

theorem serves_fetched_iff (world : ServerWorld) (store : PlanStore) (held : world.coordinator.store = some store)
    (tidy : Tidy ⟨world.dir, store⟩) (admitted : Admitted session frame .getPlanRequest) :
    ServesProvenance texts env world session frame ↔
      ∀ id plan, PlanFetched env.files world.dir store session frame id plan → Numbered world.coordinator store id 0 := by
  have answer := answer_admitted texts env world.dir world.coordinator session frame .getPlanRequest admitted (by decide)
  rw [answerRequest, admitted.type] at answer
  have records := get_request_record env world.dir world.coordinator (advancedSession session frame) frame store held
  have same : (handleFrame texts env world.dir world.coordinator session frame).coordinator.store = some store := by
    rw [handled_store, answer, get_keeps_store, held]
  unfold ServesProvenance
  rw [answer, same]
  constructor
  · intro serves id plan fetched
    obtain ⟨payload, decoded, rfl⟩ := fetched.asked
    exact (fetched_told_iff env world.dir world.coordinator store tidy _ plan fetched.held).mp
      (serves _ store ((records _).mpr ⟨payload, plan, decoded, fetched.held, rfl⟩) rfl)
  · intro numbered record after served left
    cases left
    obtain ⟨payload, plan, decoded, fetched, rfl⟩ := (records record).mp served
    exact (fetched_told_iff env world.dir world.coordinator store tidy _ plan fetched).mpr
      (numbered _ plan ⟨admitted, ⟨payload, decoded, rfl⟩, fetched⟩)

-- The coordinator numbers by a counter of its own, which keeps step with the store's only while every plan is committed
-- by one process; what it reads back it serves under number zero.
theorem served_provenance_iff (start : Directory) (config : ServerConfig) (layout : Layout start) (world : ServerWorld)
    (run : Reaches (moved texts) Served ⟨start, { config }⟩ world) (store : PlanStore) (held : world.coordinator.store = some store) :
    ServesProvenance texts env world session frame ↔
      (∀ request plan, PlanAsked texts session frame request plan → PlannedTruly env.files world.coordinator store request plan) ∧
      (∀ id plan, PlanFetched env.files world.dir store session frame id plan → Numbered world.coordinator store id 0) := by
  have attached := (reached_serving texts start config layout world run).attached store held
  have apart : ¬ (Admitted session frame .planRequest ∧ Admitted session frame .getPlanRequest) := fun both =>
    absurd (both.1.type.symm.trans both.2.type) (by decide)
  by_cases planning : Admitted session frame .planRequest
  · rw [serves_planned_iff texts env session frame world store held attached.incarnation planning]
    exact ⟨fun truly => ⟨truly, fun id plan fetched => absurd ⟨planning, fetched.admitted⟩ apart⟩, fun both => both.1⟩
  · by_cases fetching : Admitted session frame .getPlanRequest
    · rw [serves_fetched_iff texts env session frame world store held attached.tidy fetching]
      exact ⟨fun numbered => ⟨fun request plan asked => absurd asked.admitted planning, numbered⟩, fun both => both.2⟩
    · refine iff_of_true (fun record after served => ?_)
        ⟨fun request plan asked => absurd asked.admitted planning, fun id plan fetched => absurd fetched.admitted fetching⟩
      rcases record_admitted texts env world.dir world.coordinator session frame record served with plans | gets
      · exact absurd plans.1 planning
      · exact absurd gets.1 fetching

def closedWorld (dir : Directory) (config : ServerConfig) : StoreWorld := ⟨dir, { config := storeConfigOf config }⟩

theorem closed_dir (dir : Directory) (config : ServerConfig) : (closedWorld dir config).dir = dir := rfl

theorem closed_steady (steady : env.files.Steady) (start : Directory) (config : ServerConfig) (rooted : config.storeRoot.isEmpty = false)
    (epoch : Epoch) (incarnation : Incarnation) (sequence : UInt64)
    (metadata : start metaFileName = some (encodeMeta epoch incarnation sequence)) :
    Opened env.files (closedWorld start config) epoch incarnation sequence :=
  steady_opened env.files steady (closedWorld start config) rfl rooted epoch incarnation sequence metadata

-- A start that opens its store serves from the store it opened.
theorem started_store (start : Directory) (config : ServerConfig) (rooted : config.storeRoot.isEmpty = false)
    (epoch : Epoch) (incarnation : Incarnation) (sequence : UInt64) (opened : Opened env.files (closedWorld start config) epoch incarnation sequence) :
    moved texts ⟨start, { config }⟩ (.finished env .start) = ⟨((closedWorld start config).after env.files .openStore).dir,
      { config
        store := some ((closedWorld start config).after env.files .openStore).store
        epoch := epoch.value + 1
        incarnation := incarnation.value + 1 }⟩ := by
  have result : (openStore env.files start { config := storeConfigOf config }).result = .ok () := opened.result
  have store := opened.store
  rw [after_open] at store
  change (openStore env.files start { config := storeConfigOf config }).store = _ at store
  rw [moved, perform, Coordinator.start]
  simp only [rooted, result, after_open, closedWorld]
  rw [store]
  rfl

theorem start_reached (start : Directory) (config : ServerConfig) :
    Reaches (moved texts) Served ⟨start, { config }⟩ (moved texts ⟨start, { config }⟩ (.finished env .start)) :=
  .step _ (ServerMove.finished env .start) .refl rfl

theorem fetched_untold (world : ServerWorld) (store : PlanStore) (held : world.coordinator.store = some store)
    (tidy : Tidy ⟨world.dir, store⟩) (id : CollectivePlanId) (plan : Plan)
    (fetched : PlanFetched env.files world.dir store session frame id plan)
    (other : ¬ Numbered world.coordinator store id 0) : ¬ ServesProvenance texts env world session frame := by
  intro serves
  exact other ((serves_fetched_iff texts env session frame world store held tidy fetched.admitted).mp serves id plan fetched)

-- A coordinator started on a directory in which an earlier process committed one plan, and asked for it.
def servedTexts : TextForms where
  parseRequestSpec := fun _ => .error (failure .emptyInput "the request text is empty")
  explainPlan := fun _ _ => []
  explainDenials := fun _ => []

def servedEnvironment : ServerEnvironment where
  files := quietEnvironment [sampleName] 0
  micros := 0
  sendFault := none

def servedConfig : ServerConfig := { storeRoot := text "plans" }

def servedWorld : ServerWorld := moved servedTexts ⟨(storedWorld 1).dir, { config := servedConfig }⟩ (.finished servedEnvironment .start)

def greetedSession : Session := { id := 1, handshaken := true, hasSequence := true, lastSequence := 1 }

def fetchFrame (id : CollectivePlanId) : Frame where
  header := { type := .getPlanRequest, sequence := 2, sessionId := 1 }
  payload := encodeGetPlanRequest { planId := id.value }

theorem frame_fetches (files : Environment) (start : Directory) (store : PlanStore) (id : CollectivePlanId) (plan : Plan)
    (held : get files start store id = .ok plan) : PlanFetched files start store greetedSession (fetchFrame id) id plan where
  admitted := ⟨fun stale => absurd stale.2 (show ¬ (2 : UInt64) ≤ 1 by decide), rfl, rfl⟩
  asked := ⟨{ planId := id.value }, (Inverse.of_reads get_plan_request_reads).decodes _ trivial, rfl⟩
  held := held

theorem stored_layout : Layout (storedWorld 1).dir := (reachable_tidy _ stored_reachable).layout

theorem closed_opened : Opened servedEnvironment.files (closedWorld (storedWorld 1).dir servedConfig) ⟨1⟩ ⟨1⟩ 1 :=
  closed_steady servedEnvironment (quiet_calm [sampleName] 0).toSteady _ servedConfig rfl ⟨1⟩ ⟨1⟩ 1 stored_put.2.2

def servedStore : PlanStore := ((closedWorld (storedWorld 1).dir servedConfig).after servedEnvironment.files .openStore).store

def servedDir : Directory := ((closedWorld (storedWorld 1).dir servedConfig).after servedEnvironment.files .openStore).dir

theorem started_again (start : Directory) (opened : Opened servedEnvironment.files (closedWorld start servedConfig) ⟨1⟩ ⟨1⟩ 1) :
    moved servedTexts ⟨start, { config := servedConfig }⟩ (.finished servedEnvironment .start) =
      ⟨((closedWorld start servedConfig).after servedEnvironment.files .openStore).dir,
        { config := servedConfig
          store := some ((closedWorld start servedConfig).after servedEnvironment.files .openStore).store
          epoch := 2
          incarnation := 2 }⟩ :=
  started_store servedTexts servedEnvironment start servedConfig rfl ⟨1⟩ ⟨1⟩ 1 opened

theorem served_world : servedWorld = ⟨servedDir, { config := servedConfig, store := some servedStore, epoch := 2, incarnation := 2 }⟩ := by
  rw [servedWorld, servedDir, servedStore]
  exact started_again (storedWorld 1).dir closed_opened

theorem served_held_store : servedWorld.coordinator.store = some servedStore := by rw [served_world]

theorem served_dir : servedWorld.dir = servedDir := by rw [served_world]

theorem served_file : servedDir sampleName = some sampleRecord := by
  have kept := closed_opened.records sampleName (record_file_name_record _)
  rw [servedDir, kept, closed_dir]
  exact stored_put.2.1

theorem sample_fits : sampleRecord.length ≤ (storeConfigOf servedConfig).maxRecordBytes := by
  rw [sampleRecord, record_length]
  exact two_leaves_bounded

theorem served_found : servedStore.isOpen = true ∧ servedStore.config = storeConfigOf servedConfig ∧
    servedStore.index.find twoLeavesPlan.id.value = some (entryOf twoLeavesPlan.id.value sampleSummary) := by
  have store := closed_opened.store
  have found : recordOf servedDir (storeConfigOf servedConfig) sampleName = some sampleSummary :=
    (record_of_some _ _ _ _).mpr ⟨sampleRecord, twoLeavesPlan, served_file, sample_fits, sample_decodes⟩
  have index := rebuilt_single servedEnvironment.files (quiet_calm [sampleName] 0).toSteady servedDir (storeConfigOf servedConfig) 1
    twoLeavesPlan.id.value sampleSummary rfl found sample_named
  rw [← servedStore, ← servedDir] at store
  have config : (closedWorld (storedWorld 1).dir servedConfig).store.config = storeConfigOf servedConfig := rfl
  rw [config, index] at store
  rw [store]
  exact ⟨rfl, rfl, SortedMap.find_insert _ _ _⟩

theorem served_held : get servedEnvironment.files servedDir servedStore twoLeavesPlan.id = .ok twoLeavesPlan := by
  obtain ⟨opened, config, found⟩ := served_found
  refine (bind_ok _ _ _).mpr ⟨_, (find_entry_ok _ _ _).mpr ⟨opened, found⟩, (bind_ok _ _ _).mpr ⟨sampleRecord, ?_,
    (bind_ok _ _ _).mpr ⟨_, sample_decodes, rfl⟩⟩⟩
  rw [config]
  exact read_file_calm servedEnvironment.files _ _ _ _ sampleRecord rfl served_file sample_fits

theorem served_fetched : PlanFetched servedEnvironment.files servedDir servedStore greetedSession (fetchFrame twoLeavesPlan.id)
    twoLeavesPlan.id twoLeavesPlan := frame_fetches _ _ _ _ _ served_held

theorem served_provenance : ∃ store, servedWorld.coordinator.store = some store ∧
    (ServesProvenance servedTexts servedEnvironment servedWorld greetedSession (fetchFrame twoLeavesPlan.id) ↔
      (∀ request plan, PlanAsked servedTexts greetedSession (fetchFrame twoLeavesPlan.id) request plan →
        PlannedTruly servedEnvironment.files servedWorld.coordinator store request plan) ∧
      (∀ id plan, PlanFetched servedEnvironment.files servedWorld.dir store greetedSession (fetchFrame twoLeavesPlan.id) id plan →
        Numbered servedWorld.coordinator store id 0)) := by
  have held := served_held_store
  exact ⟨servedStore, held, served_provenance_iff servedTexts servedEnvironment greetedSession (fetchFrame twoLeavesPlan.id) (storedWorld 1).dir servedConfig
    stored_layout servedWorld (start_reached _ _ _ _) servedStore held⟩

-- The plan was committed under number one; it is served under number zero.
theorem provenance_lost : ¬ ∀ (texts : TextForms) (start : Directory) (config : ServerConfig), Layout start → ∀ world : ServerWorld,
    Reaches (moved texts) Served ⟨start, { config }⟩ world → ∀ (store : PlanStore), world.coordinator.store = some store →
    ∀ (env : ServerEnvironment) (session : Session) (frame : Frame), ServesProvenance texts env world session frame := by
  intro claimed
  have held := served_held_store
  have attached := (reached_serving servedTexts (storedWorld 1).dir servedConfig stored_layout servedWorld
    (start_reached _ _ _ _)).attached servedStore held
  have fetched := served_fetched
  rw [← served_dir] at fetched
  apply fetched_untold servedTexts servedEnvironment greetedSession _ servedWorld servedStore held attached.tidy _ _ fetched
  · obtain ⟨opened, _, found⟩ := served_found
    have one : sampleSummary.storedSequence = 1 := by simp only [sampleSummary, summaryOf]
    rw [Numbered, summary_found servedStore opened twoLeavesPlan.id _ found]
    intro zero
    exact absurd (one.symm.trans zero.2) (by decide)
  · exact claimed servedTexts (storedWorld 1).dir servedConfig stored_layout servedWorld (start_reached _ _ _ _) servedStore held _ _ _

end PathPlanner.Coordinator

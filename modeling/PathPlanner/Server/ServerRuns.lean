import PathPlanner.Lib.Moves
import PathPlanner.Server.Coordinator

set_option autoImplicit false

namespace PathPlanner

open Codec Moves PlanStore StoreFiles StoreRecord Wire

structure ServerWorld where
  dir : Directory
  coordinator : Coordinator

inductive ServerCall where
  | start
  | handle (session : Session) (frame : Frame)
  | stop

-- A crash cuts the effects of a call short and leaves a process yet to be started.
inductive ServerMove where
  | finished (env : ServerEnvironment) (call : ServerCall)
  | crashed (env : ServerEnvironment) (call : ServerCall) (steps : Nat) (config : ServerConfig)

namespace Coordinator

variable (texts : TextForms)

def perform (env : ServerEnvironment) (world : ServerWorld) : ServerCall → Coordinator × List Effect
  | .start => (start env.files world.dir world.coordinator).2
  | .handle session frame =>
      let done := handleFrame texts env world.dir world.coordinator session frame
      (done.coordinator, done.effects)
  | .stop => teardown env.files world.coordinator

def moved (world : ServerWorld) : ServerMove → ServerWorld
  | .finished env call =>
      let (coordinator, effects) := perform texts env world call
      ⟨performAll effects world.dir, coordinator⟩
  | .crashed env call steps config =>
      ⟨performAll ((perform texts env world call).2.take steps) world.dir, { config }⟩

-- A coordinator is started when it holds no store.
def Served (world : ServerWorld) : ServerMove → Prop
  | .finished _ .start => world.coordinator.store = none
  | .crashed _ .start _ _ => world.coordinator.store = none
  | _ => True

-- What an answer makes of the store and its directory: nothing, or what one put makes of them.
inductive StoreStep (env : Environment) (coordinator : Coordinator) : Option PlanStore → List Effect → Prop where
  | kept : StoreStep env coordinator coordinator.store []
  | put (store : PlanStore) (plan : Plan) (request : PlanningRequest) (held : coordinator.store = some store) :
      StoreStep env coordinator (some (store.put env plan request).store) (store.put env plan request).effects

-- An answer leaves the coordinator who it was.
structure Answered (env : Environment) (coordinator after : Coordinator) (effects : List Effect) : Prop where
  config : after.config = coordinator.config
  epoch : after.epoch = coordinator.epoch
  incarnation : after.incarnation = coordinator.incarnation
  store : StoreStep env coordinator after.store effects

variable (env : ServerEnvironment) (dir : Directory) (coordinator : Coordinator) (session : Session) (frame : Frame)

theorem answered_bump (after : Coordinator) (effects : List Effect) (count : ServerStats → ServerStats)
    (answered : Answered env.files coordinator after effects) : Answered env.files coordinator (after.bump count) effects :=
  ⟨answered.config, answered.epoch, answered.incarnation, answered.store⟩

theorem answered_same : Answered env.files coordinator coordinator [] := ⟨rfl, rfl, rfl, .kept⟩

theorem answered_counted (count : ServerStats → ServerStats) : Answered env.files coordinator (coordinator.bump count) [] :=
  answered_bump env coordinator coordinator [] count (answered_same env coordinator)

theorem hello_answered :
    Answered env.files coordinator (answerHello coordinator session frame).coordinator (answerHello coordinator session frame).effects := by
  have refused := answered_counted env coordinator countRefused
  unfold answerHello
  cases decodeHello frame.payload with
  | error status => exact refused
  | ok payload =>
      simp only
      split_ifs
      · exact refused
      · exact refused
      · exact answered_same env coordinator

theorem planned_answered (payload : PlanRequestPayload) (request : PlanningRequest) (outcome : PlanningOutcome) (plan : Plan) :
    Answered env.files coordinator (answerPlanned texts env coordinator session payload request outcome plan).coordinator
      (answerPlanned texts env coordinator session payload request outcome plan).effects := by
  unfold answerPlanned
  cases held : coordinator.store with
  | none => exact ⟨rfl, rfl, rfl, .kept⟩
  | some store =>
      have step := @StoreStep.put env.files coordinator store plan request held
      simp only
      cases (store.put env.files plan request).result with
      | ok summary => exact ⟨rfl, rfl, rfl, step⟩
      | error status => exact ⟨rfl, rfl, rfl, step⟩

theorem plan_answered : Answered env.files coordinator (answerPlanRequest texts env coordinator session frame).coordinator
    (answerPlanRequest texts env coordinator session frame).effects := by
  have denied := answered_counted env coordinator countDenied
  unfold answerPlanRequest
  cases decodePlanRequest frame.payload with
  | error status => exact answered_same env coordinator
  | ok payload =>
      simp only
      cases texts.parseRequestText payload.requestText with
      | error status => exact denied
      | ok request =>
          simp only
          cases (planCollective request {}).plan with
          | some plan => exact planned_answered texts env coordinator session payload request _ plan
          | none => exact denied

theorem get_answered : Answered env.files coordinator (answerGetPlan env dir coordinator session frame).coordinator
    (answerGetPlan env dir coordinator session frame).effects := by
  have read := answered_counted env coordinator countRead
  unfold answerGetPlan
  cases decodeGetPlanRequest frame.payload with
  | error status => exact answered_same env coordinator
  | ok payload =>
      cases held : coordinator.store with
      | none => exact read
      | some store => exact read

theorem list_answered : Answered env.files coordinator (answerListPlans coordinator session frame).coordinator
    (answerListPlans coordinator session frame).effects := by
  have read := answered_counted env coordinator countRead
  unfold answerListPlans
  cases decodeListPlansRequest frame.payload with
  | error status => exact answered_same env coordinator
  | ok payload =>
      cases held : coordinator.store with
      | none => exact read
      | some store => exact read

theorem revalidate_answered : Answered env.files coordinator (answerRevalidate texts env dir coordinator session frame).coordinator
    (answerRevalidate texts env dir coordinator session frame).effects := by
  have same := answered_same env coordinator
  unfold answerRevalidate
  cases decodeRevalidateRequest frame.payload with
  | error status => exact same
  | ok payload =>
      simp only
      cases texts.parseRequestText payload.requestText with
      | error status => exact same
      | ok request =>
          cases coordinator.store with
          | none => exact same
          | some store =>
              simp only
              cases store.revalidate env.files dir ⟨payload.planId⟩ request with
              | error status => exact same
              | ok result => exact answered_counted env coordinator _

theorem shutdown_answered : Answered env.files coordinator (answerShutdown coordinator session frame).coordinator
    (answerShutdown coordinator session frame).effects := by
  have same := answered_same env coordinator
  unfold answerShutdown
  cases decodeShutdownRequest frame.payload with
  | error status => exact same
  | ok payload =>
      simp only
      split_ifs
      · exact same
      · exact same

theorem frame_answered : Answered env.files coordinator (answerFrame texts env dir coordinator session frame).coordinator
    (answerFrame texts env dir coordinator session frame).effects := by
  have same := answered_same env coordinator
  unfold answerFrame
  split_ifs
  · exact answered_counted env coordinator countReplay
  · simp only
    split
    · exact hello_answered env coordinator _ frame
    · exact same
    · split_ifs
      · unfold answerRequest
        split
        · exact plan_answered texts env coordinator _ frame
        · exact get_answered env dir coordinator _ frame
        · exact list_answered env coordinator _ frame
        · exact revalidate_answered texts env dir coordinator _ frame
        · exact shutdown_answered env coordinator _ frame
        · exact same
      · exact same

theorem frame_handled : Answered env.files coordinator (handleFrame texts env dir coordinator session frame).coordinator
    (handleFrame texts env dir coordinator session frame).effects := by
  have answered := frame_answered texts env dir coordinator session frame
  unfold handleFrame
  simp only
  split
  · exact answered
  · exact answered_bump env coordinator _ _ _ answered

-- A coordinator's store is open, under the coordinator's fences, on a directory of the store's layout.
structure Attached (world : ServerWorld) (store : PlanStore) : Prop where
  tidy : Tidy ⟨world.dir, store⟩
  opened : store.isOpen = true
  epoch : store.epoch = ⟨world.coordinator.epoch⟩
  incarnation : store.incarnation = ⟨world.coordinator.incarnation⟩

structure Serving (world : ServerWorld) : Prop where
  layout : Layout world.dir
  attached : ∀ store, world.coordinator.store = some store → Attached world store

theorem put_kept (env : Environment) (store : PlanStore) (plan : Plan) (request : PlanningRequest) :
    (put env store plan request).store.isOpen = store.isOpen ∧ (put env store plan request).store.epoch = store.epoch ∧
      (put env store plan request).store.incarnation = store.incarnation := by
  have performed := put_case env store plan request
  generalize put env store plan request = done at performed ⊢
  cases performed <;> exact ⟨rfl, rfl, rfl⟩

theorem serving_handled (env : ServerEnvironment) (world : ServerWorld) (serving : Serving world) (coordinator : Coordinator)
    (effects : List Effect) (answered : Answered env.files world.coordinator coordinator effects) :
    Serving ⟨performAll effects world.dir, coordinator⟩ := by
  obtain ⟨_, epoch, incarnation, step⟩ := answered
  generalize after : coordinator.store = left at step
  cases step with
  | kept =>
      refine ⟨serving.layout, fun store held => ?_⟩
      have attached := serving.attached store (after ▸ held)
      exact ⟨attached.tidy, attached.opened, by rw [epoch]; exact attached.epoch, by rw [incarnation]; exact attached.incarnation⟩
  | put store plan request held =>
      have attached := serving.attached store held
      have tidy := tidy_moved ⟨world.dir, store⟩ (.finished env.files (.put plan request)) attached.tidy
      obtain ⟨opened, epochs, incarnations⟩ := put_kept env.files store plan request
      refine ⟨tidy.layout, fun found same => ?_⟩
      cases after.symm.trans same
      refine ⟨tidy, opened.trans attached.opened, ?_, ?_⟩
      · rw [epoch, epochs]
        exact attached.epoch
      · rw [incarnation, incarnations]
        exact attached.incarnation

theorem serving_started (env : Environment) (world : ServerWorld) (serving : Serving world) (idle : world.coordinator.store = none) :
    Serving ⟨performAll (start env world.dir world.coordinator).2.2 world.dir, (start env world.dir world.coordinator).2.1⟩ := by
  have unattached (store : PlanStore) (held : world.coordinator.store = some store) : False := by
    rw [idle] at held
    cases held
  unfold start
  split_ifs
  · exact ⟨serving.layout, fun store held => (unattached store held).elim⟩
  · have closed : Tidy ⟨world.dir, { config := storeConfigOf world.coordinator.config }⟩ :=
      ⟨serving.layout, paths_empty, fun opened => by cases opened⟩
    have tidy := tidy_moved _ (.finished env .openStore) closed
    simp only
    cases opened : (openStore env world.dir { config := storeConfigOf world.coordinator.config }).result with
    | error status => exact ⟨tidy.layout, fun store held => (unattached store held).elim⟩
    | ok _ =>
        refine ⟨tidy.layout, fun store held => ?_⟩
        cases held
        obtain ⟨fenced, written, _, _, _, _, done⟩ := open_ok env world.dir _ opened
        refine ⟨tidy, ?_, rfl, rfl⟩
        rw [done]

theorem serving_stopped (env : Environment) (world : ServerWorld) (serving : Serving world) :
    Serving ⟨performAll (teardown env world.coordinator).2 world.dir, (teardown env world.coordinator).1⟩ := by
  unfold teardown
  cases held : world.coordinator.store with
  | none => exact ⟨serving.layout, fun store attached => absurd (held.symm.trans attached) (by simp)⟩
  | some store =>
      have tidy := tidy_moved ⟨world.dir, store⟩ (.finished env .close) (serving.attached store held).tidy
      exact ⟨tidy.layout, fun store attached => by cases attached⟩

-- Wherever a call is cut off, the directory keeps its layout.
theorem layout_crashed (env : ServerEnvironment) (world : ServerWorld) (serving : Serving world) (call : ServerCall) (steps : Nat) :
    Layout (performAll ((perform texts env world call).2.take steps) world.dir) := by
  have nothing : Layout (performAll (([] : List Effect).take steps) world.dir) := by
    rw [List.take_nil]
    exact serving.layout
  cases call with
  | start =>
      change Layout (performAll ((start env.files world.dir world.coordinator).2.2.take steps) world.dir)
      unfold start
      split_ifs
      · exact nothing
      · have kept := keeps_call env.files ⟨world.dir, { config := storeConfigOf world.coordinator.config }⟩ .openStore world.dir
          serving.layout steps
        simp only
        split <;> exact kept
  | handle session frame =>
      have step := (frame_handled texts env world.dir world.coordinator session frame).store
      change Layout (performAll ((handleFrame texts env world.dir world.coordinator session frame).effects.take steps) world.dir)
      generalize (handleFrame texts env world.dir world.coordinator session frame).effects = effects at step ⊢
      generalize (handleFrame texts env world.dir world.coordinator session frame).coordinator.store = left at step
      cases step with
      | kept => exact nothing
      | put store plan request held => exact keeps_call env.files ⟨world.dir, store⟩ (.put plan request) world.dir serving.layout steps
  | stop =>
      change Layout (performAll ((teardown env.files world.coordinator).2.take steps) world.dir)
      unfold teardown
      cases world.coordinator.store with
      | none => exact nothing
      | some store => exact keeps_call env.files ⟨world.dir, store⟩ .close world.dir serving.layout steps

theorem serving_moved (world : ServerWorld) (move : ServerMove) (serving : Serving world) (fits : Served world move) :
    Serving (moved texts world move) := by
  cases move with
  | finished env call =>
      cases call with
      | start => exact serving_started env.files world serving fits
      | handle session frame =>
          exact serving_handled env world serving _ _ (frame_handled texts env world.dir world.coordinator session frame)
      | stop => exact serving_stopped env.files world serving
  | crashed env call steps config =>
      exact ⟨layout_crashed texts env world serving call steps, fun store held => by cases held⟩

theorem reached_serving (dir : Directory) (config : ServerConfig) (layout : Layout dir) (world : ServerWorld)
    (run : Reaches (moved texts) Served ⟨dir, { config }⟩ world) : Serving world :=
  reaches_invariant (moved texts) Served Serving (serving_moved texts) _ world ⟨layout, fun store held => by cases held⟩ run

end Coordinator

end PathPlanner

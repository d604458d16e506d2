import PathPlanner.Server.Threads

set_option autoImplicit false

namespace PathPlanner

namespace SessionThreads

-- The frame a reader has decoded and not queued yet.
def readerFrames : ReaderAt → List Frame
  | .received frame => [frame]
  | .holding frame => [frame]
  | .fullChecked frame => [frame]
  | .fullBlocked frame => [frame]
  | _ => []

-- The frame a worker has taken and is not done with.
def workerFrames : WorkerAt → List Frame
  | .popped frame => [frame]
  | .observing frame => [frame]
  | .handling frame => [frame]
  | _ => []

-- The frames handle_frame has been called with.
def passed (session : SessionThreads) : List Frame :=
  match session.worker with
  | .handling frame => session.handled ++ [frame]
  | _ => session.handled

-- The reader has left its loop.
def Gone : ReaderAt → Prop
  | .leaving => True
  | .left => True
  | .leftEmpty => True
  | .leftFull => True
  | .finished => True
  | _ => False

-- Every decoded frame is where its turn has brought it; only a reader that stops drops the frame it holds.
structure Flow (depth : Nat) (stopping : Bool) (session : SessionThreads) : Prop where
  order : ∃ dropped, session.decoded =
    session.handled ++ workerFrames session.worker ++ session.inbox ++ readerFrames session.reader ++ dropped ∧
      (dropped ≠ [] → stopping = true ∧ Gone session.reader)
  bounded : session.inbox.length ≤ depth

theorem flow_start (depth : Nat) (stopping : Bool) : Flow depth stopping {} :=
  ⟨⟨[], rfl, fun never => absurd rfl never⟩, Nat.zero_le _⟩

theorem flow_stopped (depth : Nat) (stopping : Bool) (session : SessionThreads) (flow : Flow depth stopping session) :
    Flow depth true session := by
  obtain ⟨⟨dropped, placed, gone⟩, bounded⟩ := flow
  exact ⟨⟨dropped, placed, fun some => ⟨rfl, (gone some).2⟩⟩, bounded⟩

-- Frames stay where they are when both threads move without one.
theorem flow_same (depth : Nat) (stopping : Bool) (before after : SessionThreads) (flow : Flow depth stopping before)
    (decoded : after.decoded = before.decoded) (handled : after.handled = before.handled) (inbox : after.inbox = before.inbox)
    (worker : workerFrames after.worker = workerFrames before.worker)
    (reader : readerFrames after.reader = readerFrames before.reader) (gone : Gone before.reader → Gone after.reader) :
    Flow depth stopping after := by
  obtain ⟨⟨dropped, placed, left⟩, bounded⟩ := flow
  refine ⟨⟨dropped, ?_, fun some => ⟨(left some).1, gone (left some).2⟩⟩, inbox ▸ bounded⟩
  rw [decoded, handled, inbox, worker, reader, placed]

theorem wake_worker_flow (depth : Nat) (stopping : Bool) (session : SessionThreads) (flow : Flow depth stopping session) :
    Flow depth stopping session.wakeWorker := by
  unfold wakeWorker
  split
  · rename_i blocked
    exact flow_same depth stopping session _ flow rfl rfl rfl (by rw [blocked]; rfl) rfl id
  · exact flow

theorem wake_reader_flow (depth : Nat) (stopping : Bool) (session : SessionThreads) (flow : Flow depth stopping session) :
    Flow depth stopping session.wakeReader := by
  unfold wakeReader
  split
  · rename_i frame blocked
    exact flow_same depth stopping session _ flow rfl rfl rfl rfl (by rw [blocked]; rfl) (by rw [blocked]; exact False.elim)
  · exact flow

@[simp] theorem wake_worker_reader (session : SessionThreads) : session.wakeWorker.reader = session.reader := by
  unfold wakeWorker
  split <;> rfl

@[simp] theorem wake_reader_worker (session : SessionThreads) : session.wakeReader.worker = session.worker := by
  unfold wakeReader
  split <;> rfl

-- A reader that moves without a frame.
theorem flow_reader (depth : Nat) (stopping : Bool) (session : SessionThreads) (flow : Flow depth stopping session)
    (reader : ReaderAt) (frames : readerFrames reader = readerFrames session.reader) (gone : Gone session.reader → Gone reader) :
    Flow depth stopping { session with reader } :=
  flow_same depth stopping session _ flow rfl rfl rfl rfl frames gone

-- A reader that is still in its loop has dropped nothing.
theorem flow_loop (depth : Nat) (stopping : Bool) (session : SessionThreads) (flow : Flow depth stopping session)
    (inside : ¬Gone session.reader) : session.decoded =
      session.handled ++ workerFrames session.worker ++ session.inbox ++ readerFrames session.reader := by
  obtain ⟨⟨dropped, placed, gone⟩, _⟩ := flow
  cases dropped with
  | nil => simpa using placed
  | cons frame rest => exact absurd (gone (by simp)).2 inside

theorem holding_flow (depth : Nat) (stopping : Bool) (frame : Frame) (before after : SessionThreads)
    (flow : Flow depth stopping before) (place : before.reader = .holding frame)
    (taken : (if before.workerHolds then none
      else if stopping then some { before with reader := .leaving }
      else if before.inbox.length < depth then some { before with reader := .pushed, inbox := before.inbox ++ [frame] }
      else some { before with reader := .fullChecked frame }) = some after) : Flow depth stopping after := by
  have placed := flow_loop depth stopping before flow (by rw [place]; exact id)
  rw [place] at placed
  split at taken
  · contradiction
  split at taken
  · rename_i stop
    obtain rfl := Option.some.inj taken
    exact ⟨⟨[frame], by simpa [readerFrames] using placed, fun _ => ⟨stop, trivial⟩⟩, flow.bounded⟩
  split at taken
  · rename_i room
    obtain rfl := Option.some.inj taken
    refine ⟨⟨[], by simpa [readerFrames] using placed, fun never => absurd rfl never⟩, ?_⟩
    simpa using room
  · obtain rfl := Option.some.inj taken
    exact flow_reader depth stopping before flow _ (by rw [place]; rfl) (by rw [place]; exact id)

theorem reading_flow (depth : Nat) (stopping : Bool) (frame : Frame) (before : SessionThreads)
    (flow : Flow depth stopping before) (place : before.reader = .reading) :
    Flow depth stopping { before with reader := .received frame, decoded := before.decoded ++ [frame] } := by
  have placed := flow_loop depth stopping before flow (by rw [place]; exact id)
  rw [place] at placed
  exact ⟨⟨[], by simp [readerFrames, placed], fun never => absurd rfl never⟩, flow.bounded⟩

theorem reader_step_flow (depth : Nat) (stopping stateFree : Bool) (event : ReaderEvent) (before after : SessionThreads)
    (flow : Flow depth stopping before) (taken : before.readerStep depth stopping stateFree event = some after) :
    Flow depth stopping after := by
  have moved := flow_reader depth stopping before flow
  unfold readerStep at taken
  cases place : before.reader with
  | unstarted => simp [place] at taken
  | top =>
      simp only [place, Option.some.injEq] at taken
      subst taken
      rw [place] at moved
      split <;> exact moved _ rfl False.elim
  | waiting =>
      simp only [place] at taken
      rw [place] at moved
      cases event with
      | woken =>
          simp only [Option.ite_none_right_eq_some, Option.some.injEq] at taken
          obtain ⟨_, rfl⟩ := taken
          exact flow_same depth stopping before _ flow rfl rfl rfl rfl (by rw [place]; rfl) (by rw [place]; exact False.elim)
      | readable => obtain rfl := Option.some.inj taken; exact moved _ rfl False.elim
      | fault => obtain rfl := Option.some.inj taken; exact moved _ rfl False.elim
      | frame value => simp at taken
      | malformed => simp at taken
      | closed => simp at taken
  | reading =>
      simp only [place] at taken
      rw [place] at moved
      cases event with
      | frame value => obtain rfl := Option.some.inj taken; exact reading_flow depth stopping value before flow place
      | malformed => obtain rfl := Option.some.inj taken; exact moved _ rfl False.elim
      | closed => obtain rfl := Option.some.inj taken; exact moved _ rfl False.elim
      | woken => simp at taken
      | readable => simp at taken
      | fault => simp at taken
  | rejecting =>
      simp only [place, Option.ite_none_right_eq_some, Option.some.injEq] at taken
      obtain ⟨_, rfl⟩ := taken
      exact moved _ (by rw [place]; rfl) (by rw [place]; exact False.elim)
  | received frame =>
      simp only [place, Option.ite_none_right_eq_some, Option.some.injEq] at taken
      obtain ⟨_, rfl⟩ := taken
      exact moved _ (by rw [place]; rfl) (by rw [place]; exact False.elim)
  | holding frame =>
      simp only [place] at taken
      exact holding_flow depth stopping frame before after flow place taken
  | fullChecked frame =>
      simp only [place, Option.some.injEq] at taken
      subst taken
      exact moved _ (by rw [place]; rfl) (by rw [place]; exact id)
  | fullBlocked frame => simp [place] at taken
  | pushed =>
      simp only [place, Option.ite_none_right_eq_some, Option.some.injEq] at taken
      obtain ⟨_, rfl⟩ := taken
      exact moved _ (by rw [place]; rfl) (by rw [place]; exact False.elim)
  | announcing =>
      simp only [place, Option.some.injEq] at taken
      subst taken
      exact flow_reader depth stopping _ (wake_worker_flow depth stopping before flow) _ (by simp [place, readerFrames])
        (by simp [place, Gone])
  | leaving =>
      simp only [place, Option.ite_none_left_eq_some, Option.some.injEq] at taken
      obtain ⟨_, rfl⟩ := taken
      exact flow_same depth stopping before _ flow rfl rfl rfl rfl (by rw [place]; rfl) fun _ => trivial
  | left =>
      simp only [place, Option.some.injEq] at taken
      subst taken
      exact flow_reader depth stopping _ (wake_worker_flow depth stopping before flow) _ (by simp [place, readerFrames])
        fun _ => trivial
  | leftEmpty =>
      simp only [place, Option.some.injEq] at taken
      subst taken
      exact moved _ (by rw [place]; rfl) fun _ => trivial
  | leftFull =>
      simp only [place, Option.some.injEq] at taken
      subst taken
      exact flow_same depth stopping before _ flow rfl rfl rfl rfl (by rw [place]; rfl) fun _ => trivial
  | finished => simp [place] at taken

-- A worker that moves without a frame.
theorem flow_worker (depth : Nat) (stopping : Bool) (session : SessionThreads) (flow : Flow depth stopping session)
    (worker : WorkerAt) (frames : workerFrames worker = workerFrames session.worker) :
    Flow depth stopping { session with worker } :=
  flow_same depth stopping session _ flow rfl rfl rfl frames rfl id

theorem popped_flow (depth : Nat) (stopping : Bool) (frame : Frame) (rest : List Frame) (before : SessionThreads)
    (flow : Flow depth stopping before) (place : before.worker = .locking) (front : before.inbox = frame :: rest) :
    Flow depth stopping { before with worker := .popped frame, inbox := rest, inFlight := before.inFlight + 1 } := by
  obtain ⟨⟨dropped, placed, gone⟩, bounded⟩ := flow
  refine ⟨⟨dropped, ?_, gone⟩, ?_⟩
  · simpa [place, front, workerFrames] using placed
  · rw [front, List.length_cons] at bounded
    exact Nat.le_of_succ_le bounded

theorem handled_flow (depth : Nat) (stopping : Bool) (frame : Frame) (verdict : Verdict) (before : SessionThreads)
    (flow : Flow depth stopping before) (place : before.worker = .handling frame) :
    Flow depth stopping { before with worker := .settling verdict, handled := before.handled ++ [frame] } := by
  obtain ⟨⟨dropped, placed, gone⟩, bounded⟩ := flow
  exact ⟨⟨dropped, by simpa [place, workerFrames] using placed, gone⟩, bounded⟩

theorem worker_step_flow (depth : Nat) (stopping stateFree : Bool) (verdict : Verdict) (before after : SessionThreads)
    (flow : Flow depth stopping before) (taken : before.workerStep stopping stateFree verdict = some after) :
    Flow depth stopping after := by
  have moved := flow_worker depth stopping before flow
  unfold workerStep at taken
  cases place : before.worker with
  | unstarted => simp [place] at taken
  | locking =>
      simp only [place, Option.ite_none_left_eq_some] at taken
      obtain ⟨_, taken⟩ := taken
      cases front : before.inbox with
      | nil =>
          simp only [front, Option.some.injEq] at taken
          subst taken
          rw [← front]
          split <;> exact moved _ (by rw [place]; rfl)
      | cons frame rest =>
          simp only [front, Option.some.injEq] at taken
          subst taken
          exact popped_flow depth stopping frame rest before flow place front
  | emptyChecked =>
      simp only [place, Option.some.injEq] at taken
      subst taken
      exact moved _ (by rw [place]; rfl)
  | emptyBlocked => simp [place] at taken
  | popped frame =>
      simp only [place, Option.some.injEq] at taken
      subst taken
      exact flow_worker depth stopping _ (wake_reader_flow depth stopping before flow) _ (by simp [place, workerFrames])
  | observing frame =>
      simp only [place, Option.ite_none_right_eq_some, Option.some.injEq] at taken
      obtain ⟨_, rfl⟩ := taken
      exact moved _ (by rw [place]; rfl)
  | handling frame =>
      simp only [place, Option.ite_none_right_eq_some, Option.some.injEq] at taken
      obtain ⟨_, rfl⟩ := taken
      exact handled_flow depth stopping frame verdict before flow place
  | settling verdict =>
      simp only [place, Option.ite_none_left_eq_some, Option.some.injEq] at taken
      obtain ⟨_, rfl⟩ := taken
      exact flow_same depth stopping before _ flow rfl rfl rfl (by rw [place]; rfl) rfl id
  | settled verdict =>
      cases verdict with
      | served =>
          simp only [place, Option.some.injEq] at taken
          subst taken
          split <;> exact moved _ (by rw [place]; rfl)
      | failed =>
          simp only [place, Option.some.injEq] at taken
          subst taken
          exact moved _ (by rw [place]; rfl)
      | shutdown =>
          simp only [place, Option.some.injEq] at taken
          subst taken
          exact moved _ (by rw [place]; rfl)
  | requesting => simp [place] at taken
  | signalling => simp [place] at taken
  | notifying => simp [place] at taken
  | leaving =>
      simp only [place, Option.some.injEq] at taken
      subst taken
      exact moved _ (by rw [place]; rfl)
  | left =>
      simp only [place, Option.some.injEq] at taken
      subst taken
      exact flow_worker depth stopping _ (wake_reader_flow depth stopping before flow) _ (by simp [place, workerFrames])
  | finished => simp [place] at taken

-- What a flow says of the frames the handler has been called with.
theorem flow_passed (depth : Nat) (stopping : Bool) (session : SessionThreads) (flow : Flow depth stopping session) :
    session.passed <+: session.decoded := by
  obtain ⟨⟨dropped, placed, _⟩, _⟩ := flow
  rw [placed]
  unfold passed
  cases session.worker with
  | handling frame => simp [workerFrames, List.append_assoc]
  | _ => simp only [List.append_assoc]; exact List.prefix_append _ _

theorem flow_places (depth : Nat) (session : SessionThreads) (flow : Flow depth false session) : session.decoded =
    session.handled ++ workerFrames session.worker ++ session.inbox ++ readerFrames session.reader := by
  obtain ⟨⟨dropped, placed, gone⟩, _⟩ := flow
  cases dropped with
  | nil => simpa using placed
  | cons frame rest => exact absurd (gone (by simp)).1 (by simp)

end SessionThreads

namespace ServerThreads

open SessionThreads (Flow workerFrames readerFrames)

-- Every session keeps its frames in order.
def Flows (config : ServerConfig) (state : ServerThreads) : Prop :=
  ∀ session ∈ state.sessions, Flow config.maxQueueDepth state.stopping session

theorem set_flows (config : ServerConfig) (state : ServerThreads) (flows : Flows config state) (index : Nat)
    (session : SessionThreads) (flow : Flow config.maxQueueDepth state.stopping session) :
    Flows config (state.setSession index session) := by
  intro other member
  cases List.mem_or_eq_of_mem_set member with
  | inl kept => exact flows other kept
  | inr placed => exact placed ▸ flow

theorem stopped_flows (config : ServerConfig) (state : ServerThreads) (flows : Flows config state) (next : ServerThreads)
    (sessions : next.sessions = state.sessions) (stopping : next.stopping = true) : Flows config next := by
  intro session member
  rw [stopping]
  rw [sessions] at member
  exact SessionThreads.flow_stopped _ _ session (flows session member)

theorem same_flows (config : ServerConfig) (state : ServerThreads) (flows : Flows config state) (next : ServerThreads)
    (sessions : next.sessions = state.sessions) (stopping : next.stopping = state.stopping) : Flows config next := by
  intro session member
  rw [stopping]
  rw [sessions] at member
  exact flows session member

theorem wake_reaper_flows (config : ServerConfig) (state : ServerThreads) (flows : Flows config state) :
    Flows config state.wakeReaper := by
  unfold wakeReaper
  split
  · exact same_flows config state flows _ rfl rfl
  · exact flows

-- The threads that have not been started are those of the session the acceptor is working on.
def Started (state : ServerThreads) : Prop :=
  ∀ index session, state.sessions[index]? = some session →
    (session.reader = .unstarted ↔ state.acceptor = .registered ∧ index + 1 = state.sessions.length) ∧
      (session.worker = .unstarted ↔ AcceptorAt.Starting state.acceptor ∧ index + 1 = state.sessions.length)

theorem set_started (state : ServerThreads) (started : Started state) (index : Nat) (session moved : SessionThreads)
    (found : state.sessions[index]? = some session) (reader : moved.reader = .unstarted ↔ session.reader = .unstarted)
    (worker : moved.worker = .unstarted ↔ session.worker = .unstarted) : Started (state.setSession index moved) := by
  intro other value found'
  simp only [setSession, List.length_set] at found' ⊢
  by_cases here : index = other
  · subst here
    obtain ⟨inside, _⟩ := List.getElem?_eq_some_iff.mp found
    rw [List.getElem?_set_self inside, Option.some.injEq] at found'
    subst found'
    rw [reader, worker]
    exact started index session found
  · rw [List.getElem?_set_ne here] at found'
    exact started other value found'

theorem same_started (state : ServerThreads) (started : Started state) (next : ServerThreads)
    (sessions : next.sessions = state.sessions) (acceptor : next.acceptor = state.acceptor) : Started next := by
  intro index session found
  rw [sessions] at found
  rw [acceptor, sessions]
  exact started index session found

theorem wake_worker_unstarted (session : SessionThreads) :
    session.wakeWorker.worker = .unstarted ↔ session.worker = .unstarted := by
  unfold SessionThreads.wakeWorker
  split
  · rename_i blocked
    simp [blocked]
  · exact Iff.rfl

theorem wake_reader_unstarted (session : SessionThreads) :
    session.wakeReader.reader = .unstarted ↔ session.reader = .unstarted := by
  unfold SessionThreads.wakeReader
  split
  · rename_i frame blocked
    simp [blocked]
  · exact Iff.rfl

theorem touched_unstarted (session touched : SessionThreads) (change : Touched session touched) :
    (touched.reader = .unstarted ↔ session.reader = .unstarted) ∧
      (touched.worker = .unstarted ↔ session.worker = .unstarted) := by
  cases change with
  | wakeup => exact ⟨Iff.rfl, Iff.rfl⟩
  | shut => exact ⟨Iff.rfl, Iff.rfl⟩
  | worker => exact ⟨by rw [SessionThreads.wake_worker_reader], wake_worker_unstarted session⟩
  | reader => exact ⟨wake_reader_unstarted session, by rw [SessionThreads.wake_reader_worker]⟩

theorem touched_flow (depth : Nat) (stopping : Bool) (session touched : SessionThreads) (change : Touched session touched)
    (flow : Flow depth stopping session) : Flow depth stopping touched := by
  cases change with
  | wakeup => exact SessionThreads.flow_same depth stopping session _ flow rfl rfl rfl rfl rfl id
  | shut => exact SessionThreads.flow_same depth stopping session _ flow rfl rfl rfl rfl rfl id
  | worker => exact SessionThreads.wake_worker_flow depth stopping session flow
  | reader => exact SessionThreads.wake_reader_flow depth stopping session flow

-- A thread that moves has been started, and stays so.
theorem reader_step_started (depth : Nat) (stopping stateFree : Bool) (event : ReaderEvent) (before after : SessionThreads)
    (taken : before.readerStep depth stopping stateFree event = some after) :
    before.reader ≠ .unstarted ∧ after.reader ≠ .unstarted ∧
      (after.worker = .unstarted ↔ before.worker = .unstarted) := by
  have woken := wake_worker_unstarted before
  unfold SessionThreads.readerStep at taken
  split at taken <;> grind

theorem worker_step_started (stopping stateFree : Bool) (verdict : Verdict) (before after : SessionThreads)
    (taken : before.workerStep stopping stateFree verdict = some after) :
    before.worker ≠ .unstarted ∧ after.worker ≠ .unstarted ∧
      (after.reader = .unstarted ↔ before.reader = .unstarted) := by
  have woken := wake_reader_unstarted before
  unfold SessionThreads.workerStep at taken
  split at taken <;> grind

theorem wake_reaper_same (state : ServerThreads) :
    state.wakeReaper.sessions = state.sessions ∧ state.wakeReaper.stopping = state.stopping ∧
      state.wakeReaper.acceptor = state.acceptor ∧ state.wakeReaper.acceptorWakeup = state.acceptorWakeup ∧
      state.wakeReaper.caller = state.caller := by
  unfold wakeReaper
  split <;> exact ⟨rfl, rfl, rfl, rfl, rfl⟩

theorem caller_step_flows (config : ServerConfig) (state : ServerThreads) (flows : Flows config state) (started : Started state) :
    Flows config state.callerStep ∧ Started state.callerStep := by
  obtain ⟨sessions, stopping, acceptor, _, _⟩ := wake_reaper_same state
  unfold callerStep
  split
  · split
    · exact ⟨flows, started⟩
    · exact ⟨stopped_flows config state flows _ rfl rfl, same_started state started _ rfl rfl⟩
  · exact ⟨same_flows config state flows _ rfl rfl, same_started state started _ rfl rfl⟩
  · exact ⟨same_flows config state flows _ sessions stopping, same_started state started _ sessions acceptor⟩

theorem reaper_step_flows (config : ServerConfig) (state after : ServerThreads) (flows : Flows config state)
    (started : Started state) (taken : state.reaperStep = some after) : Flows config after ∧ Started after := by
  rcases reaper_step_cases state after taken with ⟨reaper, rfl⟩ | ⟨index, session, touched, reaper, found, change, rfl⟩
  · exact ⟨same_flows config state flows _ rfl rfl, same_started state started _ rfl rfl⟩
  · obtain ⟨reads, works⟩ := touched_unstarted session touched change
    have flow := touched_flow config.maxQueueDepth state.stopping session touched change
      (flows session (List.mem_of_getElem? found))
    exact ⟨same_flows config _ (set_flows config state flows index touched flow) _ rfl rfl,
      same_started _ (set_started state started index session touched found reads works) _ rfl rfl⟩

-- A worker that goes through request_stop carries no frame.
theorem placed_flows (config : ServerConfig) (state : ServerThreads) (flows : Flows config state) (started : Started state)
    (index : Nat) (session : SessionThreads) (found : state.sessions[index]? = some session) (worker : WorkerAt)
    (frames : workerFrames worker = workerFrames session.worker) (before : session.worker ≠ .unstarted)
    (after : worker ≠ .unstarted) :
    Flows config (state.setSession index { session with worker }) ∧ Started (state.setSession index { session with worker }) := by
  have flow := SessionThreads.flow_worker config.maxQueueDepth state.stopping session
    (flows session (List.mem_of_getElem? found)) worker frames
  exact ⟨set_flows config state flows index _ flow,
    set_started state started index session { session with worker } found Iff.rfl (by simp [before, after])⟩

theorem worker_move_flows (config : ServerConfig) (state after : ServerThreads) (flows : Flows config state)
    (started : Started state) (index : Nat) (verdict : Verdict) (session : SessionThreads)
    (found : state.sessions[index]? = some session) (taken : state.workerMove index verdict session = some after) :
    Flows config after ∧ Started after := by
  have placed := placed_flows config state flows started index session found
  rcases worker_move_cases state after index verdict session taken with
    ⟨moved, stepped, rfl⟩ | ⟨place, rfl⟩ | ⟨place, rfl⟩ | ⟨place, rfl⟩
  · obtain ⟨here, there, reads⟩ := worker_step_started state.stopping state.stateFree verdict session moved stepped
    have flow := SessionThreads.worker_step_flow config.maxQueueDepth state.stopping state.stateFree verdict session moved
      (flows session (List.mem_of_getElem? found)) stepped
    exact ⟨set_flows config state flows index moved flow,
      set_started state started index session moved found reads (by simp [here, there])⟩
  · obtain ⟨flowing, begun⟩ := placed (if state.stopping then .leaving else .signalling) (by rw [place]; split <;> rfl)
      (by simp [place]) (by split <;> simp)
    exact ⟨stopped_flows config _ flowing _ rfl rfl, same_started _ begun _ rfl rfl⟩
  · obtain ⟨flowing, begun⟩ := placed .notifying (by rw [place]; rfl) (by simp [place]) (by simp)
    exact ⟨same_flows config _ flowing _ rfl rfl, same_started _ begun _ rfl rfl⟩
  · obtain ⟨sessions, stopping, acceptor, _, _⟩ := wake_reaper_same state
    have woken := wake_reaper_flows config state flows
    have awake := same_started state started _ sessions acceptor
    rw [← sessions] at found
    exact placed_flows config _ woken awake index session found .leaving (by rw [place]; rfl) (by simp [place]) (by simp)

theorem modify_last (sessions : List SessionThreads) (change : SessionThreads → SessionThreads) (index : Nat)
    (session : SessionThreads) (found : (sessions.modify (sessions.length - 1) change)[index]? = some session) :
    ∃ earlier, sessions[index]? = some earlier ∧
      session = if index + 1 = sessions.length then change earlier else earlier := by
  rw [List.getElem?_modify] at found
  cases here : sessions[index]? with
  | none => simp [here] at found
  | some earlier =>
      refine ⟨earlier, rfl, ?_⟩
      obtain ⟨inside, _⟩ := List.getElem?_eq_some_iff.mp here
      rw [here] at found
      obtain rfl := Option.some.inj found
      show (if sessions.length - 1 = index then change earlier else earlier) = _
      by_cases last : index + 1 = sessions.length
      · rw [if_pos last, if_pos (by omega)]
      · rw [if_neg last, if_neg (by omega)]

theorem acceptor_step_flows (config : ServerConfig) (event : AcceptorEvent) (state after : ServerThreads)
    (flows : Flows config state) (started : Started state) (taken : state.acceptorStep config event = some after) :
    Flows config after ∧ Started after := by
  rcases acceptor_step_cases config event state after taken with
    ⟨acceptor, acceptorWakeup, calm, still, rfl⟩ | ⟨place, rfl⟩ | ⟨place, rfl⟩ | ⟨place, rfl⟩
  · refine ⟨same_flows config state flows _ rfl rfl, fun index session found => ?_⟩
    obtain ⟨reads, works⟩ := started index session found
    simp only [AcceptorAt.Starting, not_or] at calm still works ⊢
    simp only [calm, still, false_and, false_or, iff_false] at reads works ⊢
    exact ⟨reads, works⟩
  · refine ⟨fun session member => ?_, fun index session found => ?_⟩
    · cases List.mem_append.mp member with
      | inl older => exact flows session older
      | inr fresh =>
          rw [List.mem_singleton.mp fresh]
          exact SessionThreads.flow_start _ _
    · rw [List.length_append, List.length_singleton]
      rcases Nat.lt_or_ge index state.sessions.length with inside | outside
      · rw [List.getElem?_append_left inside] at found
        obtain ⟨reads, works⟩ := started index session found
        simp only [place, AcceptorAt.Starting] at reads works ⊢
        simp only [reads, works]
        constructor <;> simp <;> omega
      · obtain ⟨bound, _⟩ := List.getElem?_eq_some_iff.mp found
        rw [List.length_append, List.length_singleton] at bound
        obtain rfl : index = state.sessions.length := by omega
        rw [List.getElem?_append_right (Nat.le_refl _), Nat.sub_self] at found
        obtain rfl := Option.some.inj found
        simp [AcceptorAt.Starting]
  · refine ⟨fun session member => ?_, fun index session found => ?_⟩
    · obtain ⟨index, found⟩ := List.mem_iff_getElem?.mp member
      obtain ⟨earlier, here, rfl⟩ := modify_last _ _ index session found
      have flow := flows earlier (List.mem_of_getElem? here)
      split
      · rename_i last
        have unstarted := (started index earlier here).1.mpr ⟨place, last⟩
        exact SessionThreads.flow_reader _ _ earlier flow .top (by rw [unstarted]; rfl) (by rw [unstarted]; exact id)
      · exact flow
    · obtain ⟨earlier, here, rfl⟩ := modify_last _ _ index session found
      obtain ⟨reads, works⟩ := started index earlier here
      simp only [place, AcceptorAt.Starting, List.length_modify] at reads works ⊢
      split
      · rename_i last
        simp_all
      · rename_i older
        simp_all
  · refine ⟨fun session member => ?_, fun index session found => ?_⟩
    · obtain ⟨index, found⟩ := List.mem_iff_getElem?.mp member
      obtain ⟨earlier, here, rfl⟩ := modify_last _ _ index session found
      have flow := flows earlier (List.mem_of_getElem? here)
      split
      · rename_i last
        have unstarted := (started index earlier here).2.mpr ⟨Or.inr place, last⟩
        exact SessionThreads.flow_worker _ _ earlier flow .locking (by rw [unstarted]; rfl)
      · exact flow
    · obtain ⟨earlier, here, rfl⟩ := modify_last _ _ index session found
      obtain ⟨reads, works⟩ := started index earlier here
      simp only [place, AcceptorAt.Starting, List.length_modify] at reads works ⊢
      split
      · rename_i last
        simp_all
      · rename_i older
        simp_all

theorem step_flows (config : ServerConfig) (before after : ServerThreads) (move : ThreadMove) (flows : Flows config before)
    (started : Started before) (taken : step config before move = some after) : Flows config after ∧ Started after := by
  cases move with
  | caller =>
      obtain rfl := Option.some.inj taken
      exact caller_step_flows config before flows started
  | acceptor event => exact acceptor_step_flows config event before after flows started taken
  | reaper => exact reaper_step_flows config before after flows started taken
  | reader index event =>
      obtain ⟨session, found, taken⟩ := Option.bind_eq_some_iff.mp taken
      obtain ⟨moved, stepped, same⟩ := Option.bind_eq_some_iff.mp taken
      obtain rfl := Option.some.inj same
      obtain ⟨here, there, works⟩ := reader_step_started _ _ _ event session moved stepped
      have flow := SessionThreads.reader_step_flow config.maxQueueDepth before.stopping before.stateFree event session moved
        (flows session (List.mem_of_getElem? found)) stepped
      exact ⟨set_flows config before flows index moved flow,
        set_started before started index session moved found (by simp [here, there]) works⟩
  | worker index verdict =>
      obtain ⟨session, found, taken⟩ := Option.bind_eq_some_iff.mp taken
      exact worker_move_flows config before after flows started index verdict session found taken

theorem reached_flows (config : ServerConfig) (allowed : ServerThreads → ThreadMove → Prop) (state : ServerThreads)
    (run : Reached config allowed state) : Flows config state ∧ Started state := by
  refine reached_invariant config allowed (fun state => Flows config state ∧ Started state) ?_ ?_ state run
  · exact ⟨fun _ member => absurd member List.not_mem_nil, fun _ _ found => by simp at found⟩
  · exact fun before after move held _ taken => step_flows config before after move held.1 held.2 taken

-- The inbox of a session is a bounded first-in first-out queue that loses nothing before a stop.
theorem inbox_lossless (config : ServerConfig) (state : ServerThreads) (run : Reached config (fun _ _ => True) state)
    (session : SessionThreads) (member : session ∈ state.sessions) :
    session.passed <+: session.decoded ∧ session.inbox.length ≤ config.maxQueueDepth ∧
      (state.stopping = false → session.decoded =
        session.handled ++ workerFrames session.worker ++ session.inbox ++ readerFrames session.reader) := by
  have flow := (reached_flows config _ state run).1 session member
  refine ⟨SessionThreads.flow_passed _ _ session flow, flow.bounded, fun running => ?_⟩
  rw [running] at flow
  exact SessionThreads.flow_places _ session flow

-- The worker holds a frame while the reader has another one and no room for it.
def crowdedMoves : List ThreadMove :=
  Sample.connected ++ Sample.queued {} ++ [.worker 0 .served, .worker 0 .served, .worker 0 .served] ++ Sample.queued {} ++
    [.reader 0 .readable, .reader 0 .readable, .reader 0 (.frame {}), .reader 0 .readable, .reader 0 .readable]

def crowdedConfig : ServerConfig := { maxQueueDepth := 1 }

theorem crowded_lossless : ∃ state session, replay crowdedConfig {} crowdedMoves = some state ∧ session ∈ state.sessions ∧
    session.decoded.length = 3 ∧ session.reader = .fullChecked {} ∧ session.worker = .handling {} ∧
    session.passed <+: session.decoded ∧ session.inbox.length ≤ crowdedConfig.maxQueueDepth ∧
    (state.stopping = false → session.decoded =
      session.handled ++ workerFrames session.worker ++ session.inbox ++ readerFrames session.reader) := by
  have run : ∃ state, replay crowdedConfig {} crowdedMoves = some state ∧ ∃ session ∈ state.sessions,
      session.decoded.length = 3 ∧ session.reader = .fullChecked {} ∧ session.worker = .handling {} :=
    ⟨_, rfl, _, List.mem_singleton_self _, rfl, rfl, rfl⟩
  obtain ⟨state, taken, session, member, decoded, reader, worker⟩ := run
  exact ⟨state, session, taken, member, decoded, reader, worker,
    inbox_lossless crowdedConfig state (replay_reached crowdedConfig _ crowdedMoves {} state .start (fun _ _ _ => trivial) taken) session member⟩

end ServerThreads

end PathPlanner

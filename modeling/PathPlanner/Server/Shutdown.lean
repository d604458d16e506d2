import PathPlanner.Server.Inbox

set_option autoImplicit false

namespace PathPlanner

inductive ThreadName where
  | caller | acceptor | reaper
  | reader (index : Nat)
  | worker (index : Nat)
deriving DecidableEq

-- The thread a move belongs to.
def ThreadMove.thread : ThreadMove → ThreadName
  | .caller => .caller
  | .acceptor _ => .acceptor
  | .reaper => .reaper
  | .reader index _ => .reader index
  | .worker index _ => .worker index

namespace SessionThreads

def ReaderRuns (session : SessionThreads) : Prop := session.reader ≠ .unstarted ∧ session.reader ≠ .finished

def WorkerRuns (session : SessionThreads) : Prop := session.worker ≠ .unstarted ∧ session.worker ≠ .finished

-- A call on the socket may last until the socket is shut down.
def ReaderStuck (stateFree : Bool) (session : SessionThreads) : Prop :=
  match session.reader with
  | .waiting => session.wakeup = false ∧ session.shut = false
  | .reading => session.shut = false
  | .rejecting => session.shut = false ∨ stateFree = false
  | .received _ => stateFree = false
  | .holding _ => session.workerHolds = true
  | .fullBlocked _ => True
  | .pushed => stateFree = false
  | .leaving => session.workerHolds = true
  | _ => False

def WorkerStuck (stateFree : Bool) (session : SessionThreads) : Prop :=
  match session.worker with
  | .locking => session.readerHolds = true
  | .emptyBlocked => True
  | .observing _ => stateFree = false
  | .handling _ => session.shut = false ∨ stateFree = false
  | .settling _ => session.readerHolds = true
  | _ => False

theorem free_reader_moves (depth : Nat) (stopping stateFree : Bool) (session : SessionThreads) (runs : session.ReaderRuns)
    (free : ¬session.ReaderStuck stateFree) : ∃ event, session.readerStep depth stopping stateFree event ≠ none := by
  obtain ⟨started, unfinished⟩ := runs
  unfold ReaderStuck at free
  unfold readerStep
  cases place : session.reader with
  | waiting => exact ⟨.readable, by simp⟩
  | reading => exact ⟨.closed, by simp⟩
  | _ =>
      refine ⟨.woken, ?_⟩
      simp only [place] at free started unfinished ⊢
      grind

theorem free_worker_moves (stopping stateFree : Bool) (verdict : Verdict) (session : SessionThreads) (runs : session.WorkerRuns)
    (free : ¬session.WorkerStuck stateFree)
    (inside : session.worker ≠ .requesting ∧ session.worker ≠ .signalling ∧ session.worker ≠ .notifying) :
    session.workerStep stopping stateFree verdict ≠ none := by
  obtain ⟨started, unfinished⟩ := runs
  unfold WorkerStuck at free
  unfold workerStep
  cases place : session.worker with
  | settled verdict => cases verdict <;> simp
  | _ =>
      simp only [place] at free started unfinished inside ⊢
      grind

end SessionThreads

namespace ServerThreads

open SessionThreads (ReaderRuns WorkerRuns ReaderStuck WorkerStuck)

def Unfinished (state : ServerThreads) : ThreadName → Prop
  | .caller => state.caller ≠ .idle
  | .acceptor => state.acceptor ≠ .finished
  | .reaper => state.reaper ≠ .finished
  | .reader index => ∃ session, state.sessions[index]? = some session ∧ session.ReaderRuns
  | .worker index => ∃ session, state.sessions[index]? = some session ∧ session.WorkerRuns

def Blocked (state : ServerThreads) : ThreadName → Prop
  | .caller => False
  | .acceptor =>
      match state.acceptor with
      | .waiting => state.acceptorWakeup = false
      | .erring => state.stateFree = false
      | .accepted => state.stateFree = false
      | _ => False
  | .reaper =>
      match state.reaper with
      | .blocked => True
      | .joiningAcceptor => state.acceptor ≠ .finished
      | .joiningReader index => ∃ session, state.sessions[index]? = some session ∧ session.ReaderRuns
      | .joiningWorker index => ∃ session, state.sessions[index]? = some session ∧ session.WorkerRuns
      | _ => False
  | .reader index => ∃ session, state.sessions[index]? = some session ∧ session.ReaderStuck state.stateFree
  | .worker index => ∃ session, state.sessions[index]? = some session ∧ session.WorkerStuck state.stateFree

-- Some thread is left, and none of those left can move.
def Deadlocked (state : ServerThreads) : Prop :=
  (∃ thread, state.Unfinished thread) ∧ ∀ thread, state.Unfinished thread → state.Blocked thread

theorem free_acceptor_moves (config : ServerConfig) (state : ServerThreads) (unfinished : state.Unfinished .acceptor)
    (free : ¬state.Blocked .acceptor) : ∃ event, state.acceptorStep config event ≠ none := by
  unfold Unfinished at unfinished
  unfold Blocked at free
  unfold acceptorStep
  cases place : state.acceptor with
  | waiting => exact ⟨.readable, by simp⟩
  | _ =>
      refine ⟨.readable, ?_⟩
      simp only [place] at free unfinished ⊢
      grind

theorem free_reaper_moves (state : ServerThreads) (unfinished : state.Unfinished .reaper) (free : ¬state.Blocked .reaper) :
    state.reaperStep ≠ none := by
  unfold Unfinished at unfinished
  unfold Blocked ReaderRuns WorkerRuns at free
  unfold reaperStep
  cases place : state.reaper with
  | _ =>
      simp only [place] at free unfinished ⊢
      grind

theorem free_thread_moves (config : ServerConfig) (state : ServerThreads) (thread : ThreadName)
    (unfinished : state.Unfinished thread) (free : ¬state.Blocked thread) :
    ∃ move, move.thread = thread ∧ step config state move ≠ none := by
  cases thread with
  | caller => exact ⟨.caller, rfl, by simp [step]⟩
  | acceptor =>
      obtain ⟨event, moves⟩ := free_acceptor_moves config state unfinished free
      exact ⟨.acceptor event, rfl, moves⟩
  | reaper => exact ⟨.reaper, rfl, free_reaper_moves state unfinished free⟩
  | reader index =>
      obtain ⟨session, found, runs⟩ := unfinished
      obtain ⟨event, moves⟩ := SessionThreads.free_reader_moves config.maxQueueDepth state.stopping state.stateFree session runs
        fun stuck => free ⟨session, found, stuck⟩
      refine ⟨.reader index event, rfl, ?_⟩
      obtain ⟨after, moved⟩ := Option.ne_none_iff_exists'.mp moves
      simp [step, found, moved]
  | worker index =>
      obtain ⟨session, found, runs⟩ := unfinished
      refine ⟨.worker index .served, rfl, ?_⟩
      simp only [step, found, Option.bind_eq_bind, Option.bind_some]
      unfold workerMove
      split
      · simp
      · simp
      · simp
      · rename_i asking signalling notifying
        have moves := SessionThreads.free_worker_moves state.stopping state.stateFree .served session runs
          (fun stuck => free ⟨session, found, stuck⟩) ⟨asking, signalling, notifying⟩
        simpa using moves

-- The reaper looks at the stop flag, the stop is requested and announced, and only then does the reaper block.
def lostMoves : List ThreadMove :=
  [.reaper, .acceptor .readable, .caller, .caller, .caller, .reaper, .acceptor .woken, .acceptor .readable]

theorem lost_wakeup_deadlocks : ¬∀ config state, Reached config (fun _ _ => True) state → state.stopping = true → ¬Deadlocked state := by
  intro claimed
  have taken : replay {} {} lostMoves = some { stopping := true, acceptor := .finished, reaper := .blocked } := rfl
  refine claimed {} _ (replay_reached {} _ lostMoves {} _ .start (fun _ _ _ => trivial) taken) rfl ⟨⟨.reaper, by simp [Unfinished]⟩, ?_⟩
  intro thread unfinished
  cases thread with
  | caller => exact unfinished rfl
  | acceptor => exact absurd rfl unfinished
  | reaper => exact trivial
  | reader index =>
      obtain ⟨session, found, _⟩ := unfinished
      simp at found
  | worker index =>
      obtain ⟨session, found, _⟩ := unfinished
      simp at found

end ServerThreads

namespace SessionThreads

-- The reader has told the queue that it is done.
def Over (reader : ReaderAt) : Prop := reader = .left ∨ reader = .leftEmpty ∨ reader = .leftFull ∨ reader = .finished

-- The reader has woken the worker for the last time.
def Parted (reader : ReaderAt) : Prop := reader = .leftEmpty ∨ reader = .leftFull ∨ reader = .finished

-- A thread blocked on the queue has a partner that will still notify it.
structure Paired (session : SessionThreads) : Prop where
  told : Over session.reader → session.readerDone = true
  checked : session.worker = .emptyChecked → ¬Over session.reader
  asleep : session.worker = .emptyBlocked → ¬Parted session.reader
  room : ∀ frame, session.reader = .fullBlocked frame → session.worker ≠ .finished ∧ session.worker ≠ .emptyBlocked

theorem wake_worker_paired (session : SessionThreads) (paired : session.Paired) : session.wakeWorker.Paired := by
  obtain ⟨told, checked, asleep, room⟩ := paired
  unfold wakeWorker
  split
  · exact ⟨told, by simp, by simp, fun frame blocked => by simp⟩
  · exact ⟨told, checked, asleep, room⟩

theorem wake_reader_paired (session : SessionThreads) (paired : session.Paired) : session.wakeReader.Paired := by
  obtain ⟨told, checked, asleep, room⟩ := paired
  unfold wakeReader
  split
  · exact ⟨by simp [Over], by simp [Over], by simp [Parted], by simp⟩
  · exact ⟨told, checked, asleep, room⟩

theorem reader_step_paired (depth : Nat) (stopping stateFree : Bool) (event : ReaderEvent) (before after : SessionThreads)
    (paired : before.Paired) (prompt : ∀ frame, before.reader = .fullChecked frame →
      before.worker ≠ .finished ∧ before.worker ≠ .emptyBlocked)
    (taken : before.readerStep depth stopping stateFree event = some after) : after.Paired := by
  obtain ⟨toldThen, checkedThen, asleepThen, roomThen⟩ := wake_worker_paired before paired
  obtain ⟨told, checked, asleep, room⟩ := paired
  unfold readerStep at taken
  have awake : before.wakeWorker.worker ≠ .emptyBlocked := by
    unfold wakeWorker
    split <;> simp_all
  rw [wake_worker_reader] at toldThen checkedThen
  split at taken
  all_goals
    constructor <;> grind [Over, Parted, workerHolds, wake_worker_reader]

theorem worker_step_paired (stopping stateFree : Bool) (verdict : Verdict) (before after : SessionThreads)
    (paired : before.Paired) (prompt : before.worker = .emptyChecked → ∀ frame, before.reader ≠ .fullBlocked frame)
    (taken : before.workerStep stopping stateFree verdict = some after) : after.Paired := by
  obtain ⟨toldThen, checkedThen, asleepThen, roomThen⟩ := wake_reader_paired before paired
  obtain ⟨told, checked, asleep, room⟩ := paired
  unfold workerStep at taken
  have awake (frame : Frame) : before.wakeReader.reader ≠ .fullBlocked frame := by
    unfold wakeReader
    split <;> simp_all
  split at taken
  all_goals
    constructor <;> grind [Over, Parted, readerHolds, wake_reader_worker]

-- A reader changes its worker by waking it only, and the other way round.
theorem reader_step_frame (depth : Nat) (stopping stateFree : Bool) (event : ReaderEvent) (before after : SessionThreads)
    (taken : before.readerStep depth stopping stateFree event = some after) :
    before.reader ≠ .finished ∧ (before.shut = true → after.shut = true) ∧
      (before.worker ≠ .emptyBlocked → after.worker = before.worker) := by
  have same (asleep : before.worker ≠ .emptyBlocked) : before.wakeWorker = before := by
    unfold wakeWorker
    split
    · contradiction
    · rfl
  have shut : before.wakeWorker.shut = before.shut := by
    unfold wakeWorker
    split <;> rfl
  unfold readerStep at taken
  split at taken <;> grind

theorem worker_step_frame (stopping stateFree : Bool) (verdict : Verdict) (before after : SessionThreads)
    (taken : before.workerStep stopping stateFree verdict = some after) :
    before.worker ≠ .finished ∧ before.worker ≠ .signalling ∧ before.worker ≠ .notifying ∧ after.shut = before.shut ∧
      (before.reader = .finished → after.reader = .finished) := by
  have same (finished : before.reader = .finished) : before.wakeReader = before := by
    unfold wakeReader
    simp [finished]
  have shut : before.wakeReader.shut = before.shut := by
    unfold wakeReader
    split <;> rfl
  unfold workerStep at taken
  split at taken <;> grind

theorem start_paired : ({} : SessionThreads).Paired :=
  ⟨by simp [Over], by simp, by simp, by simp⟩

theorem reader_start_paired (session : SessionThreads) : ({ session with reader := .top } : SessionThreads).Paired :=
  ⟨by simp [Over], by simp [Over], by simp [Parted], by simp⟩

-- What request_stop does in a worker, and the start of a worker.
theorem worker_placed_paired (session : SessionThreads) (paired : session.Paired) (worker : WorkerAt)
    (awake : worker ≠ .emptyChecked ∧ worker ≠ .emptyBlocked ∧ worker ≠ .finished) : ({ session with worker } : SessionThreads).Paired :=
  ⟨paired.told, fun checked => absurd checked awake.1, fun asleep => absurd asleep awake.2.1, fun _ _ => ⟨awake.2.2, awake.2.1⟩⟩

end SessionThreads

theorem touched_paired (session touched : SessionThreads) (change : ServerThreads.Touched session touched) (paired : session.Paired) :
    touched.Paired := by
  cases change with
  | wakeup => exact ⟨paired.told, paired.checked, paired.asleep, paired.room⟩
  | shut => exact ⟨paired.told, paired.checked, paired.asleep, paired.room⟩
  | worker => exact SessionThreads.wake_worker_paired session paired
  | reader => exact SessionThreads.wake_reader_paired session paired

namespace ReaperAt

-- What the reaper has done to a session when it stands at a place.
def Shut : ReaperAt → Nat → Prop
  | .locking, _ => False
  | .checked, _ => False
  | .blocked, _ => False
  | .joiningAcceptor, _ => False
  | .signalling next, index => index < next
  | .shutting next, index => index < next
  | _, _ => True

def ReaderJoined : ReaperAt → Nat → Prop
  | .joiningReader next, index => index < next
  | .wakingWorker _, _ => True
  | .wakingReader _, _ => True
  | .joiningWorker _, _ => True
  | .closing, _ => True
  | .finished, _ => True
  | _, _ => False

def WorkerJoined : ReaperAt → Nat → Prop
  | .joiningWorker next, index => index < next
  | .closing, _ => True
  | .finished, _ => True
  | _, _ => False

-- The reaper has joined the acceptor.
def Past (reaper : ReaperAt) : Prop :=
  reaper ≠ .locking ∧ reaper ≠ .checked ∧ reaper ≠ .blocked ∧ reaper ≠ .joiningAcceptor

end ReaperAt

structure Retired (reaper : ReaperAt) (index : Nat) (session : SessionThreads) : Prop where
  shut : reaper.Shut index → session.shut = true
  reader : reaper.ReaderJoined index → session.reader = .finished
  worker : reaper.WorkerJoined index → session.worker = .finished

theorem retired_early (reaper : ReaperAt) (early : ¬reaper.Past) (index : Nat) (session : SessionThreads) :
    Retired reaper index session := by
  unfold ReaperAt.Past at early
  cases reaper with
  | locking => exact ⟨False.elim, False.elim, False.elim⟩
  | checked => exact ⟨False.elim, False.elim, False.elim⟩
  | blocked => exact ⟨False.elim, False.elim, False.elim⟩
  | joiningAcceptor => exact ⟨False.elim, False.elim, False.elim⟩
  | _ => simp at early

namespace ServerThreads

-- A thread of the coordinator is about to signal the acceptor, or to notify the reaper.
def Signalling (state : ServerThreads) : Prop :=
  state.caller = .signalling ∨ ∃ session ∈ state.sessions, session.worker = .signalling

def Announcing (state : ServerThreads) : Prop :=
  state.caller ≠ .idle ∨ ∃ session ∈ state.sessions, session.worker = .signalling ∨ session.worker = .notifying

structure Orderly (state : ServerThreads) : Prop where
  started : Started state
  paired : ∀ session ∈ state.sessions, session.Paired
  retired : ∀ index session, state.sessions[index]? = some session → Retired state.reaper index session
  joined : state.reaper.Past → state.acceptor = .finished

-- Where a stop has been requested, the acceptor and the reaper do not wait for more than its announcement.
structure Awake (state : ServerThreads) : Prop where
  announced : state.reaper = .checked ∨ state.reaper = .blocked → state.stopping = true → Announcing state
  accepting : state.acceptor = .waiting → state.stopping = true → state.acceptorWakeup = true ∨ Signalling state

-- A step of a thread of one session.
theorem set_orderly (state : ServerThreads) (orderly : Orderly state) (index : Nat) (session moved : SessionThreads)
    (found : state.sessions[index]? = some session) (reads : moved.reader = .unstarted ↔ session.reader = .unstarted)
    (works : moved.worker = .unstarted ↔ session.worker = .unstarted) (paired : moved.Paired)
    (shut : session.shut = true → moved.shut = true) (reader : session.reader = .finished → moved.reader = .finished)
    (worker : session.worker = .finished → moved.worker = .finished) : Orderly (state.setSession index moved) := by
  refine ⟨set_started state orderly.started index session moved found reads works, ?_, ?_, orderly.joined⟩
  · intro other member
    cases List.mem_or_eq_of_mem_set member with
    | inl kept => exact orderly.paired other kept
    | inr placed => exact placed ▸ paired
  · intro other value found'
    simp only [setSession] at found' ⊢
    by_cases here : index = other
    · subst here
      obtain ⟨inside, _⟩ := List.getElem?_eq_some_iff.mp found
      rw [List.getElem?_set_self inside, Option.some.injEq] at found'
      subst found'
      have retired := orderly.retired index session found
      exact ⟨fun past => shut (retired.shut past), fun past => reader (retired.reader past),
        fun past => worker (retired.worker past)⟩
    · rw [List.getElem?_set_ne here] at found'
      exact orderly.retired other value found'

theorem same_orderly (state : ServerThreads) (orderly : Orderly state) (next : ServerThreads)
    (sessions : next.sessions = state.sessions) (acceptor : next.acceptor = state.acceptor) (reaper : next.reaper = state.reaper) :
    Orderly next := by
  refine ⟨same_started state orderly.started next sessions acceptor, ?_, ?_, ?_⟩
  · rw [sessions]
    exact orderly.paired
  · rw [sessions, reaper]
    exact orderly.retired
  · rw [reaper, acceptor]
    exact orderly.joined

theorem wake_reaper_orderly (state : ServerThreads) (orderly : Orderly state) : Orderly state.wakeReaper := by
  unfold wakeReaper
  split
  · have early : ¬ReaperAt.Past .locking := fun past => past.1 rfl
    exact ⟨same_started state orderly.started _ rfl rfl, orderly.paired,
      fun index session _ => retired_early .locking early index session, fun past => absurd past early⟩
  · exact orderly

theorem set_found (state : ServerThreads) (index : Nat) (session moved other : SessionThreads) (holds : SessionThreads → Prop)
    (found : state.sessions[index]? = some session) (stays : holds session → holds moved) (member : other ∈ state.sessions)
    (here : holds other) : ∃ value ∈ (state.setSession index moved).sessions, holds value := by
  obtain ⟨position, at'⟩ := List.mem_iff_getElem?.mp member
  simp only [setSession]
  by_cases same : index = position
  · subst same
    rw [found] at at'
    obtain rfl := Option.some.inj at'
    obtain ⟨inside, _⟩ := List.getElem?_eq_some_iff.mp found
    exact ⟨moved, List.mem_of_getElem? (List.getElem?_set_self inside), stays here⟩
  · exact ⟨other, List.mem_of_getElem? ((List.getElem?_set_ne same).trans at'), here⟩

theorem set_awake (state : ServerThreads) (awake : Awake state) (index : Nat) (session moved : SessionThreads)
    (found : state.sessions[index]? = some session) (signalling : session.worker = .signalling → moved.worker = .signalling)
    (notifying : session.worker = .notifying → moved.worker = .notifying) : Awake (state.setSession index moved) := by
  refine ⟨fun early stop => ?_, fun waiting stop => ?_⟩
  · refine (awake.announced early stop).imp_right fun ⟨other, member, place⟩ => ?_
    exact set_found state index session moved other (fun session => session.worker = .signalling ∨ session.worker = .notifying)
      found (Or.imp signalling notifying) member place
  · refine (awake.accepting waiting stop).imp_right fun said => said.imp_right fun ⟨other, member, place⟩ => ?_
    exact set_found state index session moved other (fun session => session.worker = .signalling) found signalling member place

theorem wake_reaper_quiet (state : ServerThreads) (unchecked : state.reaper ≠ .checked) :
    ¬(state.wakeReaper.reaper = .checked ∨ state.wakeReaper.reaper = .blocked) := by
  unfold wakeReaper
  split
  · simp
  · rename_i awake
    exact fun early => early.elim unchecked awake

-- No notification is made to a waiter that has looked already and not blocked yet, and no thread blocks on the queue of its
-- session when its partner will not notify it any more.
def Prompt (state : ServerThreads) : ThreadMove → Prop
  | .caller => state.caller = .notifying → state.reaper ≠ .checked
  | .acceptor _ => True
  | .reaper => True
  | .reader index _ => ∀ session frame, state.sessions[index]? = some session → session.reader = .fullChecked frame →
      session.worker ≠ .finished ∧ session.worker ≠ .emptyBlocked
  | .worker index _ => ∀ session, state.sessions[index]? = some session →
      (session.worker = .notifying → state.reaper ≠ .checked) ∧
        (session.worker = .emptyChecked → ∀ frame, session.reader ≠ .fullBlocked frame)

theorem reader_move_orderly (depth : Nat) (event : ReaderEvent) (state : ServerThreads) (orderly : Orderly state)
    (awake : Awake state) (index : Nat) (session moved : SessionThreads) (found : state.sessions[index]? = some session)
    (prompt : Prompt state (.reader index event))
    (stepped : session.readerStep depth state.stopping state.stateFree event = some moved) :
    Orderly (state.setSession index moved) ∧ Awake (state.setSession index moved) := by
  obtain ⟨started, stays, works⟩ := reader_step_started depth state.stopping state.stateFree event session moved stepped
  obtain ⟨unfinished, shut, worker⟩ :=
    SessionThreads.reader_step_frame depth state.stopping state.stateFree event session moved stepped
  have paired := SessionThreads.reader_step_paired depth state.stopping state.stateFree event session moved
    (orderly.paired session (List.mem_of_getElem? found)) (fun frame => prompt session frame found) stepped
  have kept (place : WorkerAt) (other : place ≠ .emptyBlocked) (here : session.worker = place) : moved.worker = place := by
    rw [worker (by rwa [here]), here]
  exact ⟨set_orderly state orderly index session moved found (by simp [started, stays]) works paired shut
      (fun finished => absurd finished unfinished) (kept .finished (by simp)),
    set_awake state awake index session moved found (kept .signalling (by simp)) (kept .notifying (by simp))⟩

-- A worker inside request_stop.
theorem placed_orderly (state : ServerThreads) (orderly : Orderly state) (index : Nat) (session : SessionThreads)
    (found : state.sessions[index]? = some session) (worker : WorkerAt)
    (before : session.worker ≠ .unstarted ∧ session.worker ≠ .finished)
    (after : worker ≠ .unstarted ∧ worker ≠ .emptyChecked ∧ worker ≠ .emptyBlocked ∧ worker ≠ .finished) :
    Orderly (state.setSession index { session with worker }) := by
  have paired := SessionThreads.worker_placed_paired session (orderly.paired session (List.mem_of_getElem? found)) worker after.2
  exact set_orderly state orderly index session { session with worker } found Iff.rfl (by simp [before.1, after.1]) paired id id
    fun finished => absurd finished before.2

theorem worker_move_orderly (verdict : Verdict) (state after : ServerThreads) (orderly : Orderly state) (awake : Awake state)
    (index : Nat) (session : SessionThreads) (found : state.sessions[index]? = some session)
    (prompt : Prompt state (.worker index verdict)) (taken : state.workerMove index verdict session = some after) :
    Orderly after ∧ Awake after := by
  have placed := placed_orderly state orderly index session found
  have inside := (List.getElem?_eq_some_iff.mp found).1
  obtain ⟨unchecked, roomy⟩ := prompt session found
  rcases worker_move_cases state after index verdict session taken with
    ⟨moved, stepped, rfl⟩ | ⟨place, rfl⟩ | ⟨place, rfl⟩ | ⟨place, rfl⟩
  · obtain ⟨started, stays, reads⟩ := worker_step_started state.stopping state.stateFree verdict session moved stepped
    obtain ⟨unfinished, signalling, notifying, shut, reader⟩ :=
      SessionThreads.worker_step_frame state.stopping state.stateFree verdict session moved stepped
    have paired := SessionThreads.worker_step_paired state.stopping state.stateFree verdict session moved
      (orderly.paired session (List.mem_of_getElem? found)) roomy stepped
    exact ⟨set_orderly state orderly index session moved found reads (by simp [started, stays]) paired (fun held => shut ▸ held)
        reader (fun finished => absurd finished unfinished),
      set_awake state awake index session moved found (fun here => absurd here signalling) (fun here => absurd here notifying)⟩
  · refine ⟨same_orderly _ (placed (if state.stopping then .leaving else .signalling) (by simp [place]) (by split <;> simp)) _
      rfl rfl rfl, ?_⟩
    cases stop : state.stopping with
    | true =>
        have kept := set_awake state awake index session { session with worker := .leaving } found (by simp [place])
          (by simp [place])
        exact ⟨fun early _ => kept.announced early stop, fun waiting _ => kept.accepting waiting stop⟩
    | false =>
        have said : ∃ other ∈ state.sessions.set index { session with worker := .signalling }, other.worker = .signalling :=
          ⟨_, List.mem_of_getElem? (List.getElem?_set_self inside), rfl⟩
        exact ⟨fun _ _ => Or.inr (said.imp fun _ held => ⟨held.1, Or.inl held.2⟩), fun _ _ => Or.inr (Or.inr said)⟩
  · refine ⟨same_orderly _ (placed .notifying (by simp [place]) (by simp)) _ rfl rfl rfl, fun _ _ => ?_, fun _ _ => Or.inl rfl⟩
    exact Or.inr ⟨_, List.mem_of_getElem? (List.getElem?_set_self inside), Or.inr rfl⟩
  · obtain ⟨sessions, stopping, acceptor, wakeup, caller⟩ := wake_reaper_same state
    rw [← sessions] at found
    have orderly := placed_orderly state.wakeReaper (wake_reaper_orderly state orderly) index session found .leaving
      (by simp [place]) (by simp)
    refine ⟨orderly, fun early => absurd early (wake_reaper_quiet state (unchecked place)), fun waiting stop => ?_⟩
    refine (awake.accepting (acceptor ▸ waiting) (stopping ▸ stop)).imp (wakeup ▸ ·) fun said => ?_
    refine said.imp (caller ▸ ·) fun ⟨other, member, here⟩ => ?_
    rw [← sessions] at member
    exact set_found state.wakeReaper index session { session with worker := .leaving } other
      (fun session => session.worker = .signalling) found (by simp [place]) member here

theorem caller_move_orderly (state : ServerThreads) (orderly : Orderly state) (awake : Awake state)
    (prompt : Prompt state .caller) : Orderly state.callerStep ∧ Awake state.callerStep := by
  unfold callerStep
  cases place : state.caller with
  | idle =>
      cases stop : state.stopping with
      | true => exact ⟨orderly, awake⟩
      | false =>
          refine ⟨same_orderly state orderly _ rfl rfl rfl, fun _ _ => Or.inl ?_, fun _ _ => Or.inr (Or.inl ?_)⟩ <;> simp
  | signalling =>
      exact ⟨same_orderly state orderly _ rfl rfl rfl, fun _ _ => Or.inl (by simp), fun _ _ => Or.inl rfl⟩
  | notifying =>
      obtain ⟨sessions, stopping, acceptor, wakeup, caller⟩ := wake_reaper_same state
      have woken := wake_reaper_orderly state orderly
      refine ⟨same_orderly _ woken _ rfl rfl rfl, fun early => absurd early (wake_reaper_quiet state (prompt place)),
        fun waiting stop => ?_⟩
      rcases awake.accepting (acceptor ▸ waiting) (stopping ▸ stop) with signalled | calling | working
      · exact Or.inl (wakeup.trans signalled)
      · simp [place] at calling
      · rw [← sessions] at working
        exact Or.inr (Or.inr working)

theorem modify_found (sessions : List SessionThreads) (change : SessionThreads → SessionThreads) (session : SessionThreads)
    (member : session ∈ sessions) (kept : ∀ index, sessions[index]? = some session → index + 1 = sessions.length →
      (change session).worker = session.worker) :
    ∃ moved ∈ sessions.modify (sessions.length - 1) change, moved.worker = session.worker := by
  obtain ⟨index, found⟩ := List.mem_iff_getElem?.mp member
  have placed : (sessions.modify (sessions.length - 1) change)[index]? =
      some (if sessions.length - 1 = index then change session else session) := by
    rw [List.getElem?_modify, found]
    rfl
  refine ⟨_, List.mem_of_getElem? placed, ?_⟩
  split
  · rename_i last
    have inside := (List.getElem?_eq_some_iff.mp found).1
    exact kept index found (by omega)
  · rfl

-- The acceptor leaves the workers that have been started where they are.
theorem acceptor_step_workers (config : ServerConfig) (event : AcceptorEvent) (state after : ServerThreads)
    (started : Started state) (taken : state.acceptorStep config event = some after) (session : SessionThreads)
    (member : session ∈ state.sessions) (working : session.worker ≠ .unstarted) :
    ∃ moved ∈ after.sessions, moved.worker = session.worker := by
  rcases acceptor_step_cases config event state after taken with
    ⟨acceptor, acceptorWakeup, _, _, rfl⟩ | ⟨_, rfl⟩ | ⟨_, rfl⟩ | ⟨place, rfl⟩
  · exact ⟨session, member, rfl⟩
  · exact ⟨session, List.mem_append_left _ member, rfl⟩
  · exact modify_found state.sessions _ session member fun _ _ _ => rfl
  · exact modify_found state.sessions _ session member fun index found last =>
      absurd ((started index session found).2.mpr ⟨Or.inr place, last⟩) working

theorem acceptor_step_paired (config : ServerConfig) (event : AcceptorEvent) (state after : ServerThreads)
    (paired : ∀ session ∈ state.sessions, session.Paired) (taken : state.acceptorStep config event = some after) :
    ∀ session ∈ after.sessions, session.Paired := by
  intro session member
  rcases acceptor_step_cases config event state after taken with
    ⟨acceptor, acceptorWakeup, _, _, rfl⟩ | ⟨_, rfl⟩ | ⟨_, rfl⟩ | ⟨_, rfl⟩
  · exact paired session member
  · cases List.mem_append.mp member with
    | inl older => exact paired session older
    | inr fresh =>
        rw [List.mem_singleton.mp fresh]
        exact SessionThreads.start_paired
  · obtain ⟨index, found⟩ := List.mem_iff_getElem?.mp member
    obtain ⟨earlier, here, rfl⟩ := modify_last _ _ index session found
    split
    · exact SessionThreads.reader_start_paired earlier
    · exact paired earlier (List.mem_of_getElem? here)
  · obtain ⟨index, found⟩ := List.mem_iff_getElem?.mp member
    obtain ⟨earlier, here, rfl⟩ := modify_last _ _ index session found
    have before := paired earlier (List.mem_of_getElem? here)
    split
    · exact SessionThreads.worker_placed_paired earlier before .locking (by simp)
    · exact before

-- The acceptor looks at the stop flag before it waits.
theorem acceptor_step_frame (config : ServerConfig) (event : AcceptorEvent) (state after : ServerThreads)
    (taken : state.acceptorStep config event = some after) :
    after.reaper = state.reaper ∧ after.caller = state.caller ∧ after.stopping = state.stopping ∧
      (after.acceptor = .waiting → after.stopping = false) := by
  unfold acceptorStep at taken
  split at taken <;> grind

-- The acceptor moves before the reaper has joined it.
theorem acceptor_move_orderly (config : ServerConfig) (event : AcceptorEvent) (state after : ServerThreads)
    (started : Started after) (orderly : Orderly state) (awake : Awake state)
    (taken : state.acceptorStep config event = some after) : Orderly after ∧ Awake after := by
  obtain ⟨reaper, caller, stopping, running⟩ := acceptor_step_frame config event state after taken
  have early : ¬after.reaper.Past := by
    rw [reaper]
    intro past
    simp [acceptorStep, orderly.joined past] at taken
  refine ⟨⟨started, acceptor_step_paired config event state after orderly.paired taken,
    fun index session _ => retired_early after.reaper early index session, fun past => absurd past early⟩, ?_, ?_⟩
  · intro waits stop
    rw [reaper] at waits
    rw [stopping] at stop
    refine (awake.announced waits stop).imp (caller ▸ ·) fun ⟨session, member, place⟩ => ?_
    have working : session.worker ≠ .unstarted := by
      rintro unstarted
      simp [unstarted] at place
    obtain ⟨moved, kept, same⟩ := acceptor_step_workers config event state after orderly.started taken session member working
    exact ⟨moved, kept, same ▸ place⟩
  · intro waiting stop
    rw [running waiting] at stop
    contradiction

theorem touched_frame (session touched : SessionThreads) (change : Touched session touched) :
    (session.shut = true → touched.shut = true) ∧ (session.reader = .finished → touched.reader = .finished) ∧
      (session.worker ≠ .emptyBlocked → touched.worker = session.worker) := by
  cases change with
  | wakeup => exact ⟨id, id, fun _ => rfl⟩
  | shut => exact ⟨fun _ => rfl, id, fun _ => rfl⟩
  | worker =>
      unfold SessionThreads.wakeWorker
      split
      · rename_i blocked
        exact ⟨id, id, fun awake => absurd blocked awake⟩
      · exact ⟨id, id, fun _ => rfl⟩
  | reader =>
      unfold SessionThreads.wakeReader
      split
      · rename_i frame blocked
        exact ⟨id, fun finished => by simp [blocked] at finished, fun _ => rfl⟩
      · exact ⟨id, id, fun _ => rfl⟩

theorem touched_orderly (state : ServerThreads) (orderly : Orderly state) (awake : Awake state) (index : Nat)
    (session touched : SessionThreads) (found : state.sessions[index]? = some session) (change : Touched session touched) :
    Orderly (state.setSession index touched) ∧ Awake (state.setSession index touched) := by
  obtain ⟨shut, reader, worker⟩ := touched_frame session touched change
  obtain ⟨reads, works⟩ := touched_unstarted session touched change
  have paired := touched_paired session touched change (orderly.paired session (List.mem_of_getElem? found))
  have kept (place : WorkerAt) (other : place ≠ .emptyBlocked) (here : session.worker = place) : touched.worker = place := by
    rw [worker (by rwa [here]), here]
  exact ⟨set_orderly state orderly index session touched found reads works paired shut reader (kept .finished (by simp)),
    set_awake state awake index session touched found (kept .signalling (by simp)) (kept .notifying (by simp))⟩

theorem reaper_placed (state : ServerThreads) (orderly : Orderly state) (awake : Awake state) (next : ReaperAt)
    (retired : ∀ index session, state.sessions[index]? = some session → Retired next index session)
    (joined : next.Past → state.acceptor = .finished)
    (announced : next = .checked ∨ next = .blocked → state.stopping = true → Announcing state) :
    Orderly { state with reaper := next } ∧ Awake { state with reaper := next } :=
  ⟨⟨same_started state orderly.started _ rfl rfl, orderly.paired, retired, joined⟩, announced, awake.accepting⟩

-- Once the acceptor is joined, every thread of a session has been started.
theorem joined_started (state : ServerThreads) (orderly : Orderly state) (finished : state.acceptor = .finished) (index : Nat)
    (session : SessionThreads) (found : state.sessions[index]? = some session) :
    session.reader ≠ .unstarted ∧ session.worker ≠ .unstarted := by
  obtain ⟨reads, works⟩ := orderly.started index session found
  constructor
  · intro unstarted
    have never := (reads.mp unstarted).1
    simp [finished] at never
  · intro unstarted
    have never := (works.mp unstarted).1
    simp [finished, AcceptorAt.Starting] at never

theorem none_below (sessions : List SessionThreads) (limit index : Nat) (session : SessionThreads)
    (ended : sessions[limit]? = none) (found : sessions[index]? = some session) : index < limit :=
  Nat.lt_of_lt_of_le (List.getElem?_eq_some_iff.mp found).1 (List.getElem?_eq_none_iff.mp ended)

theorem signalling_orderly (state : ServerThreads) (orderly : Orderly state) (awake : Awake state) (next : Nat)
    (shut : ∀ index session, state.sessions[index]? = some session → index < next → session.shut = true)
    (finished : state.acceptor = .finished) :
    Orderly { state with reaper := .signalling next } ∧ Awake { state with reaper := .signalling next } :=
  reaper_placed state orderly awake (.signalling next)
    (fun index session found => ⟨shut index session found, False.elim, False.elim⟩) (fun _ => finished) (by simp)

-- Each of the loops over the sessions ends when there is none at the index.
theorem signalled_orderly (state : ServerThreads) (orderly : Orderly state) (awake : Awake state) (limit : Nat)
    (shut : ∀ index session, state.sessions[index]? = some session → index < limit → session.shut = true)
    (ended : state.sessions[limit]? = none) (finished : state.acceptor = .finished) :
    Orderly { state with reaper := .joiningReader 0 } ∧ Awake { state with reaper := .joiningReader 0 } :=
  reaper_placed state orderly awake (.joiningReader 0)
    (fun index session found => ⟨fun _ => shut index session found (none_below state.sessions limit index session ended found),
      fun never => absurd never (Nat.not_lt_zero index), False.elim⟩) (fun _ => finished) (by simp)

theorem woken_orderly (state : ServerThreads) (orderly : Orderly state) (awake : Awake state) (next : ReaperAt)
    (retired : ∀ (index : Nat) (session : SessionThreads), state.sessions[index]? = some session →
      session.shut = true ∧ session.reader = .finished)
    (waking : next = .joiningWorker 0 ∨ (∃ index, next = .wakingWorker index) ∨ ∃ index, next = .wakingReader index)
    (finished : state.acceptor = .finished) :
    Orderly { state with reaper := next } ∧ Awake { state with reaper := next } := by
  refine reaper_placed state orderly awake next (fun index session found => ?_) (fun _ => finished) ?_
  · obtain ⟨shut, reader⟩ := retired index session found
    refine ⟨fun _ => shut, fun _ => reader, ?_⟩
    rcases waking with rfl | ⟨_, rfl⟩ | ⟨_, rfl⟩
    · exact fun never => absurd never (Nat.not_lt_zero index)
    · exact False.elim
    · exact False.elim
  · rcases waking with rfl | ⟨_, rfl⟩ | ⟨_, rfl⟩ <;> simp

theorem reaper_move_orderly (state after : ServerThreads) (orderly : Orderly state) (awake : Awake state)
    (taken : state.reaperStep = some after) : Orderly after ∧ Awake after := by
  have retired := orderly.retired
  have joined := orderly.joined
  have announced := awake.announced
  unfold reaperStep at taken
  cases place : state.reaper with
  | locking =>
      simp only [place, Option.some.injEq] at taken
      subst taken
      cases stop : state.stopping with
      | true =>
          have early : ¬ReaperAt.Past .joiningAcceptor := fun past => past.2.2.2 rfl
          have placed := reaper_placed state orderly awake .joiningAcceptor
            (fun index session _ => retired_early _ early index session) (fun past => absurd past early) (by simp)
          simpa [stop] using placed
      | false =>
          have early : ¬ReaperAt.Past .checked := fun past => past.2.1 rfl
          have placed := reaper_placed state orderly awake .checked
            (fun index session _ => retired_early _ early index session) (fun past => absurd past early) (by simp [stop])
          simpa [stop] using placed
  | checked =>
      simp only [place, Option.some.injEq] at taken
      subst taken
      have early : ¬ReaperAt.Past .blocked := fun past => past.2.2.1 rfl
      exact reaper_placed state orderly awake .blocked (fun index session _ => retired_early _ early index session)
        (fun past => absurd past early) fun _ => announced (Or.inl place)
  | blocked => simp [place] at taken
  | joiningAcceptor =>
      simp only [place, Option.ite_none_right_eq_some, Option.some.injEq] at taken
      obtain ⟨finished, rfl⟩ := taken
      exact signalling_orderly state orderly awake 0 (fun index session _ never => absurd never (Nat.not_lt_zero index)) finished
  | signalling limit =>
      have finished := joined (by simp [place, ReaperAt.Past])
      have shut (index : Nat) (session : SessionThreads) (found : state.sessions[index]? = some session)
          (below : index < limit) : session.shut = true := (retired index session found).shut (place ▸ below)
      simp only [place] at taken
      cases here : state.sessions[limit]? with
      | none =>
          simp only [here, Option.some.injEq] at taken
          subst taken
          exact signalled_orderly state orderly awake limit shut here finished
      | some session =>
          simp only [here, Option.some.injEq] at taken
          subst taken
          obtain ⟨ordered, woken⟩ := touched_orderly state orderly awake limit session _ here .wakeup
          refine reaper_placed _ ordered woken (.shutting limit) (fun index other found => ?_) (fun _ => finished) (by simp)
          have before := (ordered.retired index other found).shut
          exact ⟨fun below => before (by simpa [setSession, place, ReaperAt.Shut] using below), False.elim, False.elim⟩
  | shutting limit =>
      have finished := joined (by simp [place, ReaperAt.Past])
      have shut (index : Nat) (session : SessionThreads) (found : state.sessions[index]? = some session)
          (below : index < limit) : session.shut = true := (retired index session found).shut (place ▸ below)
      simp only [place] at taken
      cases here : state.sessions[limit]? with
      | none =>
          simp only [here, Option.some.injEq] at taken
          subst taken
          exact signalled_orderly state orderly awake limit shut here finished
      | some session =>
          simp only [here, Option.some.injEq] at taken
          subst taken
          obtain ⟨ordered, woken⟩ := touched_orderly state orderly awake limit session _ here .shut
          refine signalling_orderly _ ordered woken (limit + 1) (fun index other found below => ?_) finished
          rcases Nat.lt_succ_iff_lt_or_eq.mp below with earlier | rfl
          · exact (ordered.retired index other found).shut (by simpa [setSession, place, ReaperAt.Shut] using earlier)
          · obtain ⟨inside, _⟩ := List.getElem?_eq_some_iff.mp here
            rw [setSession, List.getElem?_set_self inside, Option.some.injEq] at found
            subst found
            rfl
  | joiningReader limit =>
      have finished := joined (by simp [place, ReaperAt.Past])
      have shut (index : Nat) (session : SessionThreads) (found : state.sessions[index]? = some session) :
          session.shut = true := (retired index session found).shut (place ▸ trivial)
      have reader (index : Nat) (session : SessionThreads) (found : state.sessions[index]? = some session)
          (below : index < limit) : session.reader = .finished := (retired index session found).reader (place ▸ below)
      simp only [place] at taken
      cases here : state.sessions[limit]? with
      | none =>
          simp only [here, Option.some.injEq] at taken
          subst taken
          exact woken_orderly state orderly awake (.wakingWorker 0) (fun index session found =>
            ⟨shut index session found, reader index session found (none_below state.sessions limit index session here found)⟩)
            (Or.inr (Or.inl ⟨0, rfl⟩)) finished
      | some session =>
          simp only [here, Option.ite_none_right_eq_some, Option.some.injEq] at taken
          obtain ⟨ended, rfl⟩ := taken
          refine reaper_placed state orderly awake (.joiningReader (limit + 1)) (fun index other found => ?_) (fun _ => finished)
            (by simp)
          refine ⟨fun _ => shut index other found, fun below => ?_, False.elim⟩
          rcases Nat.lt_succ_iff_lt_or_eq.mp below with earlier | rfl
          · exact reader index other found earlier
          · rw [here, Option.some.injEq] at found
            subst found
            exact ended.resolve_left (joined_started state orderly finished index session here).1
  | wakingWorker limit =>
      have finished := joined (by simp [place, ReaperAt.Past])
      simp only [place] at taken
      cases here : state.sessions[limit]? with
      | none =>
          simp only [here, Option.some.injEq] at taken
          subst taken
          exact woken_orderly state orderly awake (.joiningWorker 0) (fun index session found =>
            ⟨(retired index session found).shut (place ▸ trivial), (retired index session found).reader (place ▸ trivial)⟩)
            (Or.inl rfl) finished
      | some session =>
          simp only [here, Option.some.injEq] at taken
          subst taken
          obtain ⟨ordered, woken⟩ := touched_orderly state orderly awake limit session _ here .worker
          exact woken_orderly _ ordered woken (.wakingReader limit) (fun index session found =>
            ⟨(ordered.retired index session found).shut (by simp [setSession, place, ReaperAt.Shut]),
              (ordered.retired index session found).reader (by simp [setSession, place, ReaperAt.ReaderJoined])⟩)
            (Or.inr (Or.inr ⟨limit, rfl⟩)) finished
  | wakingReader limit =>
      have finished := joined (by simp [place, ReaperAt.Past])
      simp only [place] at taken
      cases here : state.sessions[limit]? with
      | none =>
          simp only [here, Option.some.injEq] at taken
          subst taken
          exact woken_orderly state orderly awake (.joiningWorker 0) (fun index session found =>
            ⟨(retired index session found).shut (place ▸ trivial), (retired index session found).reader (place ▸ trivial)⟩)
            (Or.inl rfl) finished
      | some session =>
          simp only [here, Option.some.injEq] at taken
          subst taken
          obtain ⟨ordered, woken⟩ := touched_orderly state orderly awake limit session _ here .reader
          exact woken_orderly _ ordered woken (.wakingWorker (limit + 1)) (fun index session found =>
            ⟨(ordered.retired index session found).shut (by simp [setSession, place, ReaperAt.Shut]),
              (ordered.retired index session found).reader (by simp [setSession, place, ReaperAt.ReaderJoined])⟩)
            (Or.inr (Or.inl ⟨limit + 1, rfl⟩)) finished
  | joiningWorker limit =>
      have finished := joined (by simp [place, ReaperAt.Past])
      have shut (index : Nat) (session : SessionThreads) (found : state.sessions[index]? = some session) :
          session.shut = true := (retired index session found).shut (place ▸ trivial)
      have reader (index : Nat) (session : SessionThreads) (found : state.sessions[index]? = some session) :
          session.reader = .finished := (retired index session found).reader (place ▸ trivial)
      have worker (index : Nat) (session : SessionThreads) (found : state.sessions[index]? = some session)
          (below : index < limit) : session.worker = .finished := (retired index session found).worker (place ▸ below)
      simp only [place] at taken
      cases here : state.sessions[limit]? with
      | none =>
          simp only [here, Option.some.injEq] at taken
          subst taken
          exact reaper_placed state orderly awake .closing (fun index session found =>
            ⟨fun _ => shut index session found, fun _ => reader index session found,
              fun _ => worker index session found (none_below state.sessions limit index session here found)⟩)
            (fun _ => finished) (by simp)
      | some session =>
          simp only [here, Option.ite_none_right_eq_some, Option.some.injEq] at taken
          obtain ⟨ended, rfl⟩ := taken
          refine reaper_placed state orderly awake (.joiningWorker (limit + 1)) (fun index other found => ?_) (fun _ => finished)
            (by simp)
          refine ⟨fun _ => shut index other found, fun _ => reader index other found, fun below => ?_⟩
          rcases Nat.lt_succ_iff_lt_or_eq.mp below with earlier | rfl
          · exact worker index other found earlier
          · rw [here, Option.some.injEq] at found
            subst found
            exact ended.resolve_left (joined_started state orderly finished index session here).2
  | closing =>
      have finished := joined (by simp [place, ReaperAt.Past])
      simp only [place, Option.some.injEq] at taken
      subst taken
      exact reaper_placed state orderly awake .finished (fun index session found =>
        ⟨fun _ => (retired index session found).shut (place ▸ trivial),
          fun _ => (retired index session found).reader (place ▸ trivial),
          fun _ => (retired index session found).worker (place ▸ trivial)⟩) (fun _ => finished) (by simp)
  | finished => simp [place] at taken

theorem step_orderly (config : ServerConfig) (before after : ServerThreads) (move : ThreadMove) (flows : Flows config before)
    (orderly : Orderly before) (awake : Awake before) (prompt : Prompt before move)
    (taken : step config before move = some after) : Orderly after ∧ Awake after := by
  cases move with
  | caller =>
      obtain rfl := Option.some.inj taken
      exact caller_move_orderly before orderly awake prompt
  | acceptor event =>
      have started := (step_flows config before after (.acceptor event) flows orderly.started taken).2
      exact acceptor_move_orderly config event before after started orderly awake taken
  | reaper => exact reaper_move_orderly before after orderly awake taken
  | reader index event =>
      obtain ⟨session, found, taken⟩ := Option.bind_eq_some_iff.mp taken
      obtain ⟨moved, stepped, same⟩ := Option.bind_eq_some_iff.mp taken
      obtain rfl := Option.some.inj same
      exact reader_move_orderly config.maxQueueDepth event before orderly awake index session moved found prompt stepped
  | worker index verdict =>
      obtain ⟨session, found, taken⟩ := Option.bind_eq_some_iff.mp taken
      exact worker_move_orderly verdict before after orderly awake index session found prompt taken

theorem reached_orderly (config : ServerConfig) (state : ServerThreads) (run : Reached config Prompt state) :
    Orderly state ∧ Awake state := by
  have held := reached_invariant config Prompt (fun state => Flows config state ∧ Orderly state ∧ Awake state) ?_ ?_ state run
  · exact held.2
  · refine ⟨(reached_flows config Prompt {} .start).1, ⟨(reached_flows config Prompt {} .start).2, ?_, ?_, ?_⟩, ?_, ?_⟩
    · exact fun _ member => absurd member List.not_mem_nil
    · exact fun _ _ found => by simp at found
    · exact fun past => absurd rfl past.1
    · exact fun early _ => by simp at early
    · exact fun waiting _ => by simp at waiting
  · intro before after move ⟨flows, orderly, awake⟩ prompt taken
    exact ⟨(step_flows config before after move flows orderly.started taken).1,
      step_orderly config before after move flows orderly awake prompt taken⟩

-- Where a reader is stuck though its socket is shut down, its worker is not.
theorem shut_reader_waits (session : SessionThreads) (paired : session.Paired) (shut : session.shut = true)
    (started : session.worker ≠ .unstarted) (stuck : session.ReaderStuck true) : session.WorkerRuns ∧ ¬session.WorkerStuck true := by
  unfold SessionThreads.ReaderStuck at stuck
  have holding (holds : session.workerHolds = true) : session.WorkerRuns ∧ ¬session.WorkerStuck true := by
    have checked : session.worker = .emptyChecked := by simpa [SessionThreads.workerHolds] using holds
    simp [SessionThreads.WorkerRuns, SessionThreads.WorkerStuck, checked]
  cases place : session.reader with
  | holding frame => exact holding (by simpa [place] using stuck)
  | leaving => exact holding (by simpa [place] using stuck)
  | fullBlocked frame =>
      obtain ⟨unfinished, awake⟩ := paired.room frame place
      refine ⟨⟨started, unfinished⟩, ?_⟩
      unfold SessionThreads.WorkerStuck
      cases worker : session.worker with
      | emptyBlocked => exact absurd worker awake
      | _ => simp [SessionThreads.readerHolds, place, shut]
  | _ => simp [place, shut] at stuck

theorem shut_worker_free (session : SessionThreads) (paired : session.Paired) (shut : session.shut = true)
    (ended : session.reader = .finished) : ¬session.WorkerStuck true := by
  unfold SessionThreads.WorkerStuck
  cases worker : session.worker with
  | emptyBlocked => exact absurd (Or.inr (Or.inr ended)) (paired.asleep worker)
  | _ => simp [SessionThreads.readerHolds, ended, shut]

theorem silent_caller (state : ServerThreads) (blocked : ∀ thread, state.Unfinished thread → state.Blocked thread) :
    ¬Announcing state := by
  rintro (calling | ⟨session, member, place⟩)
  · exact blocked .caller calling
  · obtain ⟨index, found⟩ := List.mem_iff_getElem?.mp member
    have runs : session.WorkerRuns := by
      rcases place with place | place <;> simp [SessionThreads.WorkerRuns, place]
    obtain ⟨other, here, stuck⟩ := blocked (.worker index) ⟨session, found, runs⟩
    rw [found] at here
    obtain rfl := Option.some.inj here
    rcases place with place | place <;> simp [SessionThreads.WorkerStuck, place] at stuck

-- After a stop some thread can move until every thread has finished.
theorem prompt_shutdown (config : ServerConfig) (state : ServerThreads) (run : Reached config Prompt state)
    (stopping : state.stopping = true) : ¬Deadlocked state := by
  rintro ⟨⟨thread, unfinished⟩, blocked⟩
  obtain ⟨orderly, awake⟩ := reached_orderly config state run
  have silent := silent_caller state blocked
  have quiet (signalling : Signalling state) : False :=
    silent (signalling.imp (fun calling => by simp [calling]) fun ⟨session, member, place⟩ => ⟨session, member, Or.inl place⟩)
  have unchecked : state.reaper ≠ .checked := fun checked => silent (awake.announced (Or.inl checked) stopping)
  have free : state.stateFree = true := by simpa [stateFree] using unchecked
  have reaping (waits : state.reaper ≠ .finished) : state.Blocked .reaper := blocked .reaper waits
  have retired := orderly.retired
  simp only [Blocked] at reaping
  cases place : state.reaper with
  | blocked => exact silent (awake.announced (Or.inr place) stopping)
  | joiningAcceptor =>
      have running : state.acceptor ≠ .finished := by simpa [place] using reaping
      have waits : state.Blocked .acceptor := blocked .acceptor running
      simp only [Blocked, free] at waits
      cases acceptor : state.acceptor with
      | waiting =>
          have unsignalled : state.acceptorWakeup = false := by simpa [acceptor] using waits
          have signalled := awake.accepting acceptor stopping
          simp only [unsignalled, Bool.false_eq_true, false_or] at signalled
          exact quiet signalled
      | _ => simp [acceptor] at waits
  | joiningReader index =>
      have finished := orderly.joined (by simp [place, ReaperAt.Past])
      have joining : ∃ session, state.sessions[index]? = some session ∧ session.ReaderRuns := by simpa [place] using reaping
      obtain ⟨session, found, runs⟩ := joining
      have paired := orderly.paired session (List.mem_of_getElem? found)
      have shut := (retired index session found).shut (place ▸ trivial)
      obtain ⟨other, here, stuck⟩ := blocked (.reader index) ⟨session, found, runs⟩
      rw [found, Option.some.injEq] at here
      subst here
      rw [free] at stuck
      obtain ⟨working, moving⟩ := shut_reader_waits session paired shut (joined_started state orderly finished index session found).2 stuck
      obtain ⟨other, here, stalled⟩ := blocked (.worker index) ⟨session, found, working⟩
      rw [found, Option.some.injEq] at here
      subst here
      rw [free] at stalled
      exact moving stalled
  | joiningWorker index =>
      have joining : ∃ session, state.sessions[index]? = some session ∧ session.WorkerRuns := by simpa [place] using reaping
      obtain ⟨session, found, runs⟩ := joining
      have paired := orderly.paired session (List.mem_of_getElem? found)
      have shut := (retired index session found).shut (place ▸ trivial)
      have ended := (retired index session found).reader (place ▸ trivial)
      obtain ⟨other, here, stuck⟩ := blocked (.worker index) ⟨session, found, runs⟩
      rw [found, Option.some.injEq] at here
      subst here
      rw [free] at stuck
      exact shut_worker_free session paired shut ended stuck
  | finished =>
      have finished := orderly.joined (by simp [place, ReaperAt.Past])
      cases thread with
      | caller => exact blocked .caller unfinished
      | acceptor => exact unfinished finished
      | reaper => exact unfinished place
      | reader index =>
          obtain ⟨session, found, runs⟩ := unfinished
          exact runs.2 ((retired index session found).reader (place ▸ trivial))
      | worker index =>
          obtain ⟨session, found, runs⟩ := unfinished
          exact runs.2 ((retired index session found).worker (place ▸ trivial))
  | _ => simp [place] at reaping

theorem connected_shutdown : ∃ before after, replay {} {} Sample.connected = some before ∧
    step {} before .caller = some after ∧ after.sessions.length = 1 ∧ after.stopping = true ∧ ¬Deadlocked after := by
  have taken : ∃ before, replay {} {} Sample.connected = some before ∧ before.caller = .idle ∧ before.stopping = false ∧
      before.sessions.length = 1 := ⟨_, rfl, rfl, rfl, rfl⟩
  obtain ⟨before, taken, idle, running, session⟩ := taken
  have connected : Reached {} Prompt before := by
    refine replay_reached {} Prompt Sample.connected {} before .start (fun state move member => ?_) taken
    simp only [Sample.connected, List.mem_cons, List.not_mem_nil, or_false, or_self] at member
    exact member ▸ trivial
  have stopped : before.callerStep.stopping = true := by simp [callerStep, idle, running]
  exact ⟨before, before.callerStep, taken, rfl, by simp [callerStep, idle, running, session], stopped,
    prompt_shutdown {} before.callerStep (.step before _ .caller connected (by simp [Prompt, idle]) rfl) stopped⟩

end ServerThreads

end PathPlanner

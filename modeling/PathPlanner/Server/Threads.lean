import PathPlanner.Server.Coordinator

set_option autoImplicit false

namespace PathPlanner

-- A thread stands before the next thing it does to the shared state. A critical section is one step; only a wait holds
-- its mutex from the check of the predicate to the step that blocks.
inductive ReaderAt where
  | unstarted | top | waiting | reading | rejecting
  | received (frame : Frame)
  | holding (frame : Frame)
  | fullChecked (frame : Frame)
  | fullBlocked (frame : Frame)
  | pushed | announcing | leaving | left | leftEmpty | leftFull | finished
deriving DecidableEq

inductive Verdict where
  | served | failed | shutdown
deriving DecidableEq

inductive WorkerAt where
  | unstarted | locking | emptyChecked | emptyBlocked
  | popped (frame : Frame)
  | observing (frame : Frame)
  | handling (frame : Frame)
  | settling (verdict : Verdict)
  | settled (verdict : Verdict)
  | requesting | signalling | notifying | leaving | left | finished
deriving DecidableEq

inductive AcceptorAt where
  | top | waiting | erring | accepting | accepted | refusing | registered | halfStarted | finished
deriving DecidableEq

inductive ReaperAt where
  | locking | checked | blocked | joiningAcceptor
  | signalling (index : Nat)
  | shutting (index : Nat)
  | joiningReader (index : Nat)
  | wakingWorker (index : Nat)
  | wakingReader (index : Nat)
  | joiningWorker (index : Nat)
  | closing | finished
deriving DecidableEq

-- A caller of request_stop from outside; one that finds the flag set returns at once.
inductive CallerAt where
  | idle | signalling | notifying
deriving DecidableEq

-- The queue of a session and its two threads, with the frames its reader has decoded and those its worker is done with.
structure SessionThreads where
  inbox : List Frame := []
  readerDone : Bool := false
  inFlight : Nat := 0
  reader : ReaderAt := .unstarted
  worker : WorkerAt := .unstarted
  wakeup : Bool := false
  shut : Bool := false
  decoded : List Frame := []
  handled : List Frame := []

structure ServerThreads where
  stopping : Bool := false
  acceptorWakeup : Bool := false
  caller : CallerAt := .idle
  acceptor : AcceptorAt := .top
  reaper : ReaperAt := .locking
  sessions : List SessionThreads := []

-- What a call into the network gives a thread.
inductive ReaderEvent where
  | woken | readable | fault
  | frame (value : Frame)
  | malformed | closed
deriving DecidableEq

inductive AcceptorEvent where
  | woken | readable | fault
deriving DecidableEq

inductive ThreadMove where
  | caller
  | acceptor (event : AcceptorEvent)
  | reaper
  | reader (index : Nat) (event : ReaderEvent)
  | worker (index : Nat) (verdict : Verdict)
deriving DecidableEq

namespace SessionThreads

-- The reader, or the worker, holds the mutex of the session over a wait.
def readerHolds (session : SessionThreads) : Bool :=
  match session.reader with
  | .fullChecked _ => true
  | _ => false

def workerHolds (session : SessionThreads) : Bool := decide (session.worker = .emptyChecked)

def wakeWorker (session : SessionThreads) : SessionThreads :=
  match session.worker with
  | .emptyBlocked => { session with worker := .locking }
  | _ => session

def wakeReader (session : SessionThreads) : SessionThreads :=
  match session.reader with
  | .fullBlocked frame => { session with reader := .holding frame }
  | _ => session

-- none where the thread cannot move: it is blocked, or another thread holds a mutex it needs.
def readerStep (depth : Nat) (stopping stateFree : Bool) (event : ReaderEvent) (session : SessionThreads) :
    Option SessionThreads :=
  match session.reader with
  | .unstarted => none
  | .top => some { session with reader := if stopping then .leaving else .waiting }
  | .waiting =>
      match event with
      | .woken => if session.wakeup then some { session with reader := .top, wakeup := false } else none
      | .readable => some { session with reader := .reading }
      | .fault => some { session with reader := .leaving }
      | _ => none
  | .reading =>
      match event with
      | .frame value => some { session with reader := .received value, decoded := session.decoded ++ [value] }
      | .malformed => some { session with reader := .rejecting }
      | .closed => some { session with reader := .leaving }
      | _ => none
  | .rejecting => if stateFree then some { session with reader := .leaving } else none
  | .received frame => if stateFree then some { session with reader := .holding frame } else none
  | .holding frame =>
      if session.workerHolds then none
      else if stopping then some { session with reader := .leaving }
      else if session.inbox.length < depth then some { session with reader := .pushed, inbox := session.inbox ++ [frame] }
      else some { session with reader := .fullChecked frame }
  | .fullChecked frame => some { session with reader := .fullBlocked frame }
  | .fullBlocked _ => none
  | .pushed => if stateFree then some { session with reader := .announcing } else none
  | .announcing => some { session.wakeWorker with reader := .top }
  | .leaving => if session.workerHolds then none else some { session with reader := .left, readerDone := true }
  | .left => some { session.wakeWorker with reader := .leftEmpty }
  -- Nobody but the reader itself ever waits for room.
  | .leftEmpty => some { session with reader := .leftFull }
  | .leftFull => some { session with reader := .finished, shut := session.shut || !stopping }
  | .finished => none

-- The steps of the worker beside those of request_stop.
def workerStep (stopping stateFree : Bool) (verdict : Verdict) (session : SessionThreads) : Option SessionThreads :=
  match session.worker with
  | .unstarted => none
  | .locking =>
      if session.readerHolds then none
      else
        match session.inbox with
        | frame :: rest => some { session with worker := .popped frame, inbox := rest, inFlight := session.inFlight + 1 }
        | [] => some { session with worker := if session.readerDone || stopping then .leaving else .emptyChecked }
  | .emptyChecked => some { session with worker := .emptyBlocked }
  | .emptyBlocked => none
  | .popped frame => some { session.wakeReader with worker := .observing frame }
  | .observing frame => if stateFree then some { session with worker := .handling frame } else none
  | .handling frame =>
      if stateFree then some { session with worker := .settling verdict, handled := session.handled ++ [frame] } else none
  | .settling verdict =>
      if session.readerHolds then none
      else some { session with worker := .settled verdict, inFlight := session.inFlight - 1 }
  | .settled .served => some { session with worker := if stopping then .leaving else .locking }
  | .settled .failed => some { session with worker := .leaving }
  | .settled .shutdown => some { session with worker := .requesting }
  | .requesting => none
  | .signalling => none
  | .notifying => none
  -- Nobody but the worker itself ever waits for a frame.
  | .leaving => some { session with worker := .left }
  | .left => some { session.wakeReader with worker := .finished }
  | .finished => none

end SessionThreads

namespace ServerThreads

-- state_mutex is held over the wait of the reaper only.
def stateFree (state : ServerThreads) : Bool := decide (state.reaper ≠ .checked)

def setSession (state : ServerThreads) (index : Nat) (session : SessionThreads) : ServerThreads :=
  { state with sessions := state.sessions.set index session }

def wakeReaper (state : ServerThreads) : ServerThreads :=
  match state.reaper with
  | .blocked => { state with reaper := .locking }
  | _ => state

def callerStep (state : ServerThreads) : ServerThreads :=
  match state.caller with
  | .idle => if state.stopping then state else { state with stopping := true, caller := .signalling }
  | .signalling => { state with acceptorWakeup := true, caller := .notifying }
  | .notifying => { state.wakeReaper with caller := .idle }

def acceptorStep (config : ServerConfig) (event : AcceptorEvent) (state : ServerThreads) : Option ServerThreads :=
  match state.acceptor with
  | .top => some { state with acceptor := if state.stopping then .finished else .waiting }
  | .waiting =>
      match event with
      | .woken => if state.acceptorWakeup then some { state with acceptor := .top, acceptorWakeup := false } else none
      | .readable => some { state with acceptor := .accepting }
      | .fault => some { state with acceptor := if state.stopping then .finished else .erring }
  | .erring => if state.stateFree then some { state with acceptor := .top } else none
  | .accepting =>
      match event with
      | .fault => some { state with acceptor := if state.stopping then .finished else .erring }
      | _ => some { state with acceptor := .accepted }
  | .accepted =>
      match event with
      | .fault => some { state with acceptor := .erring }
      | _ =>
          if state.stateFree = false then none
          else if state.sessions.length ≥ config.maxSessions ∨ state.stopping = true then some { state with acceptor := .refusing }
          else some { state with acceptor := .registered, sessions := state.sessions ++ [{}] }
  | .refusing => some { state with acceptor := .top }
  | .registered => some { state with
      acceptor := .halfStarted
      sessions := state.sessions.modify (state.sessions.length - 1) fun session => { session with reader := .top } }
  | .halfStarted => some { state with
      acceptor := .top
      sessions := state.sessions.modify (state.sessions.length - 1) fun session => { session with worker := .locking } }
  | .finished => none

def reaperStep (state : ServerThreads) : Option ServerThreads :=
  match state.reaper with
  | .locking => some { state with reaper := if state.stopping then .joiningAcceptor else .checked }
  | .checked => some { state with reaper := .blocked }
  | .blocked => none
  | .joiningAcceptor => if state.acceptor = .finished then some { state with reaper := .signalling 0 } else none
  | .signalling index =>
      match state.sessions[index]? with
      | none => some { state with reaper := .joiningReader 0 }
      | some session => some { state.setSession index { session with wakeup := true } with reaper := .shutting index }
  | .shutting index =>
      match state.sessions[index]? with
      | none => some { state with reaper := .joiningReader 0 }
      | some session => some { state.setSession index { session with shut := true } with reaper := .signalling (index + 1) }
  | .joiningReader index =>
      match state.sessions[index]? with
      | none => some { state with reaper := .wakingWorker 0 }
      | some session =>
          if session.reader = .unstarted ∨ session.reader = .finished then some { state with reaper := .joiningReader (index + 1) }
          else none
  | .wakingWorker index =>
      match state.sessions[index]? with
      | none => some { state with reaper := .joiningWorker 0 }
      | some session => some { state.setSession index session.wakeWorker with reaper := .wakingReader index }
  | .wakingReader index =>
      match state.sessions[index]? with
      | none => some { state with reaper := .joiningWorker 0 }
      | some session => some { state.setSession index session.wakeReader with reaper := .wakingWorker (index + 1) }
  | .joiningWorker index =>
      match state.sessions[index]? with
      | none => some { state with reaper := .closing }
      | some session =>
          if session.worker = .unstarted ∨ session.worker = .finished then some { state with reaper := .joiningWorker (index + 1) }
          else none
  -- The sessions stay listed when they are cleared; none of their threads is left.
  | .closing => some { state with reaper := .finished }
  | .finished => none

-- The worker that was asked to shut down calls request_stop; every other step is its session's own.
def workerMove (state : ServerThreads) (index : Nat) (verdict : Verdict) (session : SessionThreads) : Option ServerThreads :=
  match session.worker with
  | .requesting =>
      some { state.setSession index { session with worker := if state.stopping then .leaving else .signalling } with stopping := true }
  | .signalling => some { state.setSession index { session with worker := .notifying } with acceptorWakeup := true }
  | .notifying => some (state.wakeReaper.setSession index { session with worker := .leaving })
  | _ => (session.workerStep state.stopping state.stateFree verdict).map (state.setSession index)

def step (config : ServerConfig) (state : ServerThreads) : ThreadMove → Option ServerThreads
  | .caller => some state.callerStep
  | .acceptor event => state.acceptorStep config event
  | .reaper => state.reaperStep
  | .reader index event => do
      let session ← state.sessions[index]?
      let moved ← session.readerStep config.maxQueueDepth state.stopping state.stateFree event
      some (state.setSession index moved)
  | .worker index verdict => do
      let session ← state.sessions[index]?
      state.workerMove index verdict session

-- What the reaper does to a session: it signals it, shuts its socket down, or notifies one of its threads.
inductive Touched (before : SessionThreads) : SessionThreads → Prop where
  | wakeup : Touched before { before with wakeup := true }
  | shut : Touched before { before with shut := true }
  | worker : Touched before before.wakeWorker
  | reader : Touched before before.wakeReader

theorem reaper_step_cases (state after : ServerThreads) (taken : state.reaperStep = some after) :
    (∃ reaper, after = { state with reaper }) ∨ ∃ index session touched reaper,
      state.sessions[index]? = some session ∧ Touched session touched ∧ after = { state.setSession index touched with reaper } := by
  unfold reaperStep at taken
  cases place : state.reaper with
  | signalling index =>
      simp only [place] at taken
      cases found : state.sessions[index]? with
      | none => exact Or.inl ⟨_, (by simpa [found] using taken.symm)⟩
      | some session => exact Or.inr ⟨index, session, _, _, found, .wakeup, (by simpa [found] using taken.symm)⟩
  | shutting index =>
      simp only [place] at taken
      cases found : state.sessions[index]? with
      | none => exact Or.inl ⟨_, (by simpa [found] using taken.symm)⟩
      | some session => exact Or.inr ⟨index, session, _, _, found, .shut, (by simpa [found] using taken.symm)⟩
  | wakingWorker index =>
      simp only [place] at taken
      cases found : state.sessions[index]? with
      | none => exact Or.inl ⟨_, (by simpa [found] using taken.symm)⟩
      | some session => exact Or.inr ⟨index, session, _, _, found, .worker, (by simpa [found] using taken.symm)⟩
  | wakingReader index =>
      simp only [place] at taken
      cases found : state.sessions[index]? with
      | none => exact Or.inl ⟨_, (by simpa [found] using taken.symm)⟩
      | some session => exact Or.inr ⟨index, session, _, _, found, .reader, (by simpa [found] using taken.symm)⟩
  | joiningReader index =>
      simp only [place] at taken
      cases found : state.sessions[index]? with
      | none => exact Or.inl ⟨_, (by simpa [found] using taken.symm)⟩
      | some session =>
          simp only [found, Option.ite_none_right_eq_some, Option.some.injEq] at taken
          exact Or.inl ⟨_, taken.2.symm⟩
  | joiningWorker index =>
      simp only [place] at taken
      cases found : state.sessions[index]? with
      | none => exact Or.inl ⟨_, (by simpa [found] using taken.symm)⟩
      | some session =>
          simp only [found, Option.ite_none_right_eq_some, Option.some.injEq] at taken
          exact Or.inl ⟨_, taken.2.symm⟩
  | joiningAcceptor =>
      simp only [place, Option.ite_none_right_eq_some, Option.some.injEq] at taken
      exact Or.inl ⟨_, taken.2.symm⟩
  | locking => exact Or.inl ⟨_, (by simpa [place] using taken.symm)⟩
  | checked => exact Or.inl ⟨_, (by simpa [place] using taken.symm)⟩
  | closing => exact Or.inl ⟨_, (by simpa [place] using taken.symm)⟩
  | blocked => simp [place] at taken
  | finished => simp [place] at taken

theorem worker_move_cases (state after : ServerThreads) (index : Nat) (verdict : Verdict) (session : SessionThreads)
    (taken : state.workerMove index verdict session = some after) :
    (∃ moved, session.workerStep state.stopping state.stateFree verdict = some moved ∧ after = state.setSession index moved) ∨
      (session.worker = .requesting ∧ after =
        { state.setSession index { session with worker := if state.stopping then .leaving else .signalling } with stopping := true }) ∨
      (session.worker = .signalling ∧
        after = { state.setSession index { session with worker := .notifying } with acceptorWakeup := true }) ∨
      session.worker = .notifying ∧ after = state.wakeReaper.setSession index { session with worker := .leaving } := by
  unfold workerMove at taken
  split at taken
  · rename_i place
    exact Or.inr (Or.inl ⟨place, (Option.some.inj taken).symm⟩)
  · rename_i place
    exact Or.inr (Or.inr (Or.inl ⟨place, (Option.some.inj taken).symm⟩))
  · rename_i place
    exact Or.inr (Or.inr (Or.inr ⟨place, (Option.some.inj taken).symm⟩))
  · obtain ⟨moved, stepped, same⟩ := Option.map_eq_some_iff.mp taken
    exact Or.inl ⟨moved, stepped, same.symm⟩

-- The acceptor is between the registration of a session and the start of its last thread.
def AcceptorAt.Starting (acceptor : AcceptorAt) : Prop := acceptor = .registered ∨ acceptor = .halfStarted

theorem acceptor_step_cases (config : ServerConfig) (event : AcceptorEvent) (state after : ServerThreads)
    (taken : state.acceptorStep config event = some after) :
    (∃ acceptor acceptorWakeup, ¬AcceptorAt.Starting state.acceptor ∧ ¬AcceptorAt.Starting acceptor ∧
        after = { state with acceptor, acceptorWakeup }) ∨
      (state.acceptor = .accepted ∧ after = { state with acceptor := .registered, sessions := state.sessions ++ [{}] }) ∨
      (state.acceptor = .registered ∧ after = { state with
        acceptor := .halfStarted
        sessions := state.sessions.modify (state.sessions.length - 1) fun session => { session with reader := .top } }) ∨
      state.acceptor = .halfStarted ∧ after = { state with
        acceptor := .top
        sessions := state.sessions.modify (state.sessions.length - 1) fun session => { session with worker := .locking } } := by
  unfold acceptorStep at taken
  have moved (acceptor : AcceptorAt) (calm : ¬AcceptorAt.Starting state.acceptor) (next : ¬AcceptorAt.Starting acceptor)
      (same : { state with acceptor } = after) : ∃ acceptor acceptorWakeup, ¬AcceptorAt.Starting state.acceptor ∧
        ¬AcceptorAt.Starting acceptor ∧ after = { state with acceptor, acceptorWakeup } :=
    ⟨acceptor, state.acceptorWakeup, calm, next, same.symm⟩
  cases place : state.acceptor with
  | top =>
      rw [place] at moved
      simp only [place, Option.some.injEq] at taken
      refine Or.inl (moved _ (by simp [AcceptorAt.Starting]) ?_ taken)
      split <;> simp [AcceptorAt.Starting]
  | waiting =>
      rw [place] at moved
      simp only [place] at taken
      cases event with
      | woken =>
          simp only [Option.ite_none_right_eq_some, Option.some.injEq] at taken
          exact Or.inl ⟨.top, false, by simp [AcceptorAt.Starting], by simp [AcceptorAt.Starting], taken.2.symm⟩
      | readable =>
          exact Or.inl (moved _ (by simp [AcceptorAt.Starting]) (by simp [AcceptorAt.Starting]) (Option.some.inj taken))
      | fault =>
          refine Or.inl (moved _ (by simp [AcceptorAt.Starting]) ?_ (Option.some.inj taken))
          split <;> simp [AcceptorAt.Starting]
  | erring =>
      rw [place] at moved
      simp only [place, Option.ite_none_right_eq_some, Option.some.injEq] at taken
      exact Or.inl (moved _ (by simp [AcceptorAt.Starting]) (by simp [AcceptorAt.Starting]) taken.2)
  | accepting =>
      rw [place] at moved
      simp only [place] at taken
      cases event with
      | fault =>
          refine Or.inl (moved _ (by simp [AcceptorAt.Starting]) ?_ (Option.some.inj taken))
          split <;> simp [AcceptorAt.Starting]
      | woken =>
          exact Or.inl (moved _ (by simp [AcceptorAt.Starting]) (by simp [AcceptorAt.Starting]) (Option.some.inj taken))
      | readable =>
          exact Or.inl (moved _ (by simp [AcceptorAt.Starting]) (by simp [AcceptorAt.Starting]) (Option.some.inj taken))
  | accepted =>
      rw [place] at moved
      simp only [place] at taken
      have settled (answered : (if state.stateFree = false then none
          else if state.sessions.length ≥ config.maxSessions ∨ state.stopping = true then some { state with acceptor := .refusing }
          else some { state with acceptor := .registered, sessions := state.sessions ++ [{}] }) = some after) :
          after = { state with acceptor := .refusing } ∨
            after = { state with acceptor := .registered, sessions := state.sessions ++ [{}] } := by
        split at answered
        · contradiction
        · split at answered
          · exact Or.inl (Option.some.inj answered).symm
          · exact Or.inr (Option.some.inj answered).symm
      cases event with
      | fault =>
          exact Or.inl (moved _ (by simp [AcceptorAt.Starting]) (by simp [AcceptorAt.Starting]) (Option.some.inj taken))
      | woken =>
          cases settled taken with
          | inl refused =>
              exact Or.inl (moved _ (by simp [AcceptorAt.Starting]) (by simp [AcceptorAt.Starting]) refused.symm)
          | inr registered => exact Or.inr (Or.inl ⟨rfl, registered⟩)
      | readable =>
          cases settled taken with
          | inl refused =>
              exact Or.inl (moved _ (by simp [AcceptorAt.Starting]) (by simp [AcceptorAt.Starting]) refused.symm)
          | inr registered => exact Or.inr (Or.inl ⟨rfl, registered⟩)
  | refusing =>
      rw [place] at moved
      simp only [place, Option.some.injEq] at taken
      exact Or.inl (moved _ (by simp [AcceptorAt.Starting]) (by simp [AcceptorAt.Starting]) taken)
  | registered => exact Or.inr (Or.inr (Or.inl ⟨rfl, by simpa [place] using taken.symm⟩))
  | halfStarted => exact Or.inr (Or.inr (Or.inr ⟨rfl, by simpa [place] using taken.symm⟩))
  | finished => simp [place] at taken

-- The states that steps of an allowed kind lead to from the start of the coordinator.
inductive Reached (config : ServerConfig) (allowed : ServerThreads → ThreadMove → Prop) : ServerThreads → Prop where
  | start : Reached config allowed {}
  | step (before after : ServerThreads) (move : ThreadMove) (reached : Reached config allowed before)
      (fits : allowed before move) (taken : step config before move = some after) : Reached config allowed after

theorem reached_invariant (config : ServerConfig) (allowed : ServerThreads → ThreadMove → Prop) (invariant : ServerThreads → Prop)
    (initial : invariant {}) (kept : ∀ before after move, invariant before → allowed before move →
      step config before move = some after → invariant after) (state : ServerThreads) (run : Reached config allowed state) :
    invariant state := by
  induction run with
  | start => exact initial
  | step before after move _ fits taken ih => exact kept before after move ih fits taken

-- The state that a list of moves leads to, when each of them is possible.
def replay (config : ServerConfig) (state : ServerThreads) : List ThreadMove → Option ServerThreads
  | [] => some state
  | move :: rest =>
      match step config state move with
      | none => none
      | some next => replay config next rest

theorem replay_reached (config : ServerConfig) (allowed : ServerThreads → ThreadMove → Prop) (moves : List ThreadMove)
    (before after : ServerThreads) (run : Reached config allowed before) (fits : ∀ state, ∀ move ∈ moves, allowed state move)
    (taken : replay config before moves = some after) : Reached config allowed after := by
  induction moves generalizing before with
  | nil =>
      obtain rfl := Option.some.inj taken
      exact run
  | cons move rest ih =>
      rw [replay] at taken
      cases stepped : step config before move with
      | none => simp [stepped] at taken
      | some next =>
          rw [stepped] at taken
          exact ih next (.step before next move run (fits before move (by simp)) stepped)
            (fun state other later => fits state other (List.mem_cons_of_mem move later)) taken

end ServerThreads

namespace Sample

-- The acceptor takes one connection and starts its threads.
def connected : List ThreadMove :=
  [.acceptor .readable, .acceptor .readable, .acceptor .readable, .acceptor .readable, .acceptor .readable, .acceptor .readable]

-- The reader of the first session decodes a frame and queues it.
def queued (frame : Frame) : List ThreadMove :=
  [.reader 0 .readable, .reader 0 .readable, .reader 0 (.frame frame), .reader 0 .readable, .reader 0 .readable,
    .reader 0 .readable, .reader 0 .readable]

end Sample

end PathPlanner

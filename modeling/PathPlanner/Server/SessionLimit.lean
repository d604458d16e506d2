import PathPlanner.Server.Threads

set_option autoImplicit false

namespace PathPlanner

-- A session has ended when both of its threads have.
def SessionThreads.ended (session : SessionThreads) : Bool :=
  decide (session.reader = .finished ∧ session.worker = .finished)

namespace ServerThreads

-- The sessions that were accepted and have not ended.
def live (state : ServerThreads) : Nat := state.sessions.countP fun session => !session.ended

structure TakenStep where
  before : ServerThreads
  move : ThreadMove
  after : ServerThreads

-- The steps of a run, up to the first move that is not possible.
def stepsOf (config : ServerConfig) : ServerThreads → List ThreadMove → List TakenStep
  | _, [] => []
  | state, move :: rest =>
      match step config state move with
      | none => []
      | some next => ⟨state, move, next⟩ :: stepsOf config next rest

namespace TakenStep

-- A connection stands before the limit, at a coordinator that nobody has asked to stop.
def Arrives (taken : TakenStep) : Prop :=
  (taken.move = .acceptor .woken ∨ taken.move = .acceptor .readable) ∧ taken.before.acceptor = .accepted ∧ taken.before.stopping = false

def admits (taken : TakenStep) : Bool := decide (taken.before.acceptor = .accepted ∧ taken.after.acceptor = .registered)

-- The connection becomes a session whose two threads the acceptor starts next.
def Served (config : ServerConfig) (taken : TakenStep) : Prop :=
  taken.after.sessions = taken.before.sessions ++ [({} : SessionThreads)] ∧ ∃ half whole, step config taken.after (.acceptor .readable) = some half ∧
    step config half (.acceptor .readable) = some whole ∧
      whole.sessions = taken.before.sessions ++ [({ reader := .top, worker := .locking } : SessionThreads)]

-- The connection is answered with the session limit.
def Refused (taken : TakenStep) : Prop := taken.after.acceptor = .refusing

end TakenStep

open TakenStep

def admitted (steps : List TakenStep) : Nat := steps.countP admits

theorem set_session_length (state : ServerThreads) (index : Nat) (session : SessionThreads) :
    (state.setSession index session).sessions.length = state.sessions.length := List.length_set

theorem wake_reaper_kept (state : ServerThreads) :
    state.wakeReaper.sessions = state.sessions ∧ state.wakeReaper.acceptor = state.acceptor := by
  unfold wakeReaper
  split <;> exact ⟨rfl, rfl⟩

-- Only an admission adds to the list, and nothing is ever taken off it.
structure Grown (before after : ServerThreads) : Prop where
  sessions : after.sessions.length = before.sessions.length
  acceptor : after.acceptor = before.acceptor

theorem other_step_grown (config : ServerConfig) (before after : ServerThreads) (move : ThreadMove)
    (other : ∀ event, move ≠ .acceptor event) (taken : step config before move = some after) : Grown before after := by
  cases move with
  | caller =>
      obtain rfl := Option.some.inj taken
      rw [callerStep]
      cases before.caller with
      | idle =>
          dsimp only
          split <;> exact ⟨rfl, rfl⟩
      | signalling => exact ⟨rfl, rfl⟩
      | notifying => exact ⟨congrArg List.length (wake_reaper_kept before).1, (wake_reaper_kept before).2⟩
  | acceptor event => exact absurd rfl (other event)
  | reaper =>
      rcases reaper_step_cases before after taken with ⟨reaper, rfl⟩ | ⟨index, session, touched, reaper, _, _, rfl⟩
      · exact ⟨rfl, rfl⟩
      · exact ⟨set_session_length before index touched, rfl⟩
  | reader index event =>
      obtain ⟨session, _, moved⟩ := Option.bind_eq_some_iff.mp taken
      obtain ⟨next, _, same⟩ := Option.bind_eq_some_iff.mp moved
      obtain rfl := Option.some.inj same
      exact ⟨set_session_length before index next, rfl⟩
  | worker index verdict =>
      obtain ⟨session, _, moved⟩ := Option.bind_eq_some_iff.mp taken
      rcases worker_move_cases before after index verdict session moved with
        ⟨next, _, rfl⟩ | ⟨_, rfl⟩ | ⟨_, rfl⟩ | ⟨_, rfl⟩
      · exact ⟨set_session_length before index next, rfl⟩
      · exact ⟨set_session_length before index _, rfl⟩
      · exact ⟨set_session_length before index _, rfl⟩
      · obtain ⟨sessions, acceptor⟩ := wake_reaper_kept before
        exact ⟨(set_session_length before.wakeReaper index _).trans (congrArg List.length sessions), acceptor⟩

theorem step_length (config : ServerConfig) (before after : ServerThreads) (move : ThreadMove) (taken : step config before move = some after) :
    after.sessions.length = before.sessions.length + if (TakenStep.mk before move after).admits = true then 1 else 0 := by
  have unchanged (passes : ¬ (before.acceptor = .accepted ∧ after.acceptor = .registered))
      (same : after.sessions.length = before.sessions.length) :
      after.sessions.length = before.sessions.length + if (TakenStep.mk before move after).admits = true then 1 else 0 := by
    rw [if_neg (by rw [admits, decide_eq_true_eq]; exact passes), Nat.add_zero, same]
  by_cases other : ∀ event, move ≠ .acceptor event
  · have grown := other_step_grown config before after move other taken
    apply unchanged _ grown.sessions
    rw [grown.acceptor]
    rintro ⟨here, there⟩
    rw [here] at there
    cases there
  · push Not at other
    obtain ⟨event, rfl⟩ := other
    rcases acceptor_step_cases config event before after taken with
      ⟨acceptor, acceptorWakeup, _, calm, rfl⟩ | ⟨place, rfl⟩ | ⟨place, rfl⟩ | ⟨place, rfl⟩
    · exact unchanged (fun passes => calm (Or.inl passes.2)) rfl
    · rw [if_pos (by rw [admits, decide_eq_true_eq]; exact ⟨place, rfl⟩)]
      exact List.length_append
    · exact unchanged (fun passes => by cases passes.1.symm.trans place) (List.length_modify _ _ _)
    · exact unchanged (fun passes => by cases passes.1.symm.trans place) (List.length_modify _ _ _)

theorem step_in_run (config : ServerConfig) (moves : List ThreadMove) (state : ServerThreads) (before after : List TakenStep)
    (taken : TakenStep) (split : stepsOf config state moves = before ++ taken :: after) :
    step config taken.before taken.move = some taken.after ∧
      taken.before.sessions.length = state.sessions.length + admitted before := by
  induction moves generalizing state before with
  | nil => simp [stepsOf] at split
  | cons move rest ih =>
      rw [stepsOf] at split
      cases stepped : step config state move with
      | none => simp [stepped] at split
      | some next =>
          rw [stepped] at split
          cases before with
          | nil =>
              obtain ⟨rfl, _⟩ := List.cons.inj split
              exact ⟨stepped, rfl⟩
          | cons first earlier =>
              obtain ⟨rfl, later⟩ := List.cons.inj split
              obtain ⟨valid, length⟩ := ih next earlier later
              refine ⟨valid, ?_⟩
              rw [length, step_length config state next move stepped, admitted, admitted, List.countP_cons]
              omega

theorem registered_served (config : ServerConfig) (before : ServerThreads) (move : ThreadMove) :
    (TakenStep.mk before move { before with acceptor := .registered, sessions := before.sessions ++ [{}] }).Served config := by
  have last (change : SessionThreads → SessionThreads) (session : SessionThreads) :
      (before.sessions ++ [session]).modify ((before.sessions ++ [session]).length - 1) change = before.sessions ++ [change session] := by
    rw [List.length_append, List.length_singleton, Nat.add_sub_cancel]
    induction before.sessions with
    | nil => rfl
    | cons first rest ih => exact congrArg (first :: ·) ih
  refine ⟨rfl, _, _, rfl, rfl, ?_⟩
  dsimp only
  rw [last, last]

-- The list of the sessions alone decides about a connection.
theorem arrival_decided (config : ServerConfig) (taken : TakenStep) (valid : step config taken.before taken.move = some taken.after)
    (arrives : taken.Arrives) : (taken.Served config ↔ taken.before.sessions.length < config.maxSessions) ∧
      (taken.Refused ↔ config.maxSessions ≤ taken.before.sessions.length) := by
  obtain ⟨before, move, after⟩ := taken
  obtain ⟨event, place, calm⟩ := arrives
  dsimp only at event place calm
  have same : (if before.stateFree = false then none
      else if before.sessions.length ≥ config.maxSessions ∨ before.stopping = true then some { before with acceptor := AcceptorAt.refusing }
      else some { before with acceptor := .registered, sessions := before.sessions ++ [{}] }) = some after := by
    have valid : step config before move = some after := valid
    rcases event with rfl | rfl
    · rw [step, acceptorStep, place] at valid
      exact valid
    · rw [step, acceptorStep, place] at valid
      exact valid
  by_cases full : config.maxSessions ≤ before.sessions.length
  · rw [if_pos (show before.sessions.length ≥ config.maxSessions ∨ before.stopping = true from Or.inl full)] at same
    obtain rfl : { before with acceptor := AcceptorAt.refusing } = after := by
      split at same
      · cases same
      · exact Option.some.inj same
    refine ⟨⟨fun served => ?_, fun room => absurd full (not_le.mpr room)⟩, ⟨fun _ => full, fun _ => rfl⟩⟩
    have longer := congrArg List.length served.1
    rw [List.length_append] at longer
    exact absurd longer (Nat.succ_ne_self _).symm
  · rw [if_neg (show ¬ (before.sessions.length ≥ config.maxSessions ∨ before.stopping = true) by simp [full, calm])] at same
    obtain rfl : { before with acceptor := AcceptorAt.registered, sessions := before.sessions ++ [{}] } = after := by
      split at same
      · cases same
      · exact Option.some.inj same
    exact ⟨⟨fun _ => not_le.mp full, fun _ => registered_served config before move⟩,
      ⟨fun refused => (by cases refused), fun crowded => absurd crowded full⟩⟩

-- The limit is one of live sessions in a run exactly where no connection that finds room among the live comes after the list is full.
theorem session_limit_live_iff (config : ServerConfig) (moves : List ThreadMove) :
    (∀ before taken after, stepsOf config {} moves = before ++ taken :: after → taken.Arrives →
      taken.before.live < config.maxSessions → taken.Served config ∧ ¬ taken.Refused) ↔
    ∀ before taken after, stepsOf config {} moves = before ++ taken :: after → taken.Arrives →
      taken.before.live < config.maxSessions → admitted before < config.maxSessions := by
  refine forall_congr' fun before => forall_congr' fun taken => forall_congr' fun after => ?_
  refine forall_congr' fun split => forall_congr' fun arrives => forall_congr' fun _ => ?_
  obtain ⟨valid, length⟩ := step_in_run config moves {} before after taken split
  obtain ⟨served, refused⟩ := arrival_decided config taken valid arrives
  have counted : taken.before.sessions.length = admitted before := length.trans (Nat.zero_add _)
  rw [served, refused, counted, not_le, and_self]

-- One session comes and goes, and another connection has been accepted.
def comeAndGone : List ThreadMove :=
  Sample.connected ++ [.reader 0 .readable, .reader 0 .readable, .reader 0 .closed, .reader 0 .readable, .reader 0 .readable,
    .reader 0 .readable, .reader 0 .readable, .worker 0 .served, .worker 0 .served, .worker 0 .served] ++
  [.acceptor .readable, .acceptor .readable, .acceptor .readable]

def departed : ServerThreads := (replay { maxSessions := 1 } {} comeAndGone).getD {}

def turnedAway : TakenStep := ⟨departed, .acceptor .readable, { departed with acceptor := .refusing }⟩

theorem ended_session_counts : ¬ ∀ (config : ServerConfig) (moves : List ThreadMove) (before after : List TakenStep) (taken : TakenStep),
    stepsOf config {} moves = before ++ taken :: after → taken.Arrives → taken.before.live < config.maxSessions →
      taken.Served config ∧ ¬ taken.Refused := by
  intro always
  have split : stepsOf { maxSessions := 1 } {} (comeAndGone ++ [.acceptor .readable]) =
      stepsOf { maxSessions := 1 } {} comeAndGone ++ turnedAway :: [] := rfl
  have nobody : turnedAway.before.live < ({ maxSessions := 1 } : ServerConfig).maxSessions := by decide
  exact (always _ _ _ _ _ split ⟨Or.inr rfl, rfl, rfl⟩ nobody).2 rfl

end ServerThreads

end PathPlanner

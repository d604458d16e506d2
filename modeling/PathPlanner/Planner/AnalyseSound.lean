import PathPlanner.Planner.Admissible
import PathPlanner.Planner.DisjointCut
import PathPlanner.Planner.Reach

set_option autoImplicit false

namespace PathPlanner

open Mapping Walk EnumerateSets BuildPool

namespace Mapping

theorem compliant_apart (request : PlanningRequest) (source target : EndpointBinding) (route : Route) (nonempty : route ≠ [])
    (compliant : CompliantRoute request source target route) : source.node ≠ target.node := by
  intro same
  have last := finish_last _ _ _ _ _ nonempty compliant.walk
  refine (List.nodup_cons.mp compliant.simple).1 ?_
  rw [same, ← last]
  exact List.mem_map_of_mem (List.getLast_mem nonempty)

end Mapping

namespace Analyse

variable {state : PlannerState} {task : EnumerationTask}

-- Exhaustive means that no compliant route is missing.
structure EnumerationSound (state : PlannerState) (task : EnumerationTask) (run : EnumerationRun) : Prop where
  compliant : ∀ route ∈ run.out.paths, route ≠ [] ∧ CompliantRoute state.request task.sourceBinding task.targetBinding route
  complete : run.out.exhaustive = true → ∀ route, route ≠ [] →
    CompliantRoute state.request task.sourceBinding task.targetBinding route → route ∈ run.out.paths
  ready : run.scratch.Ready

theorem enumerated_sound (stateSound : PlannerState.Sound state) (taskSound : EnumerationTask.Sound state task)
    (scratch : SearchScratch) (bounded : scratch.blocks.Bounded) :
    EnumerationSound state task (enumerated state task scratch) := by
  have clear := BlockSet.reset_clear _ bounded
  have start : ({ scratch with blocks := scratch.blocks.reset } : SearchScratch).Ready :=
    ⟨BlockSet.reset_bounded _ bounded, clear⟩
  obtain ⟨blocks, taken, part, view, all⟩ := Enumerate.deepen_swept state scratch.blocks.reset task
    (min state.hopLimit state.fabric.nodes.length) 1 ⟨{ scratch with blocks := scratch.blocks.reset }, {}⟩ rfl
  have members := fun route => Enumerate.sweep_paths_mem stateSound taskSound scratch.blocks.reset clear route
  unfold enumerated enumeratePaths
  dsimp only
  generalize Enumerate.deepen state scratch.blocks.reset task (min state.hopLimit state.fabric.nodes.length) 1
    ⟨{ scratch with blocks := scratch.blocks.reset }, {}⟩ = run at blocks view all
  simp only [List.nil_append] at view
  refine ⟨fun route member => ?_, fun exhaustive route nonempty compliant => ?_, ?_⟩
  · have inside : route ∈ taken := by
      rw [← view]
      exact List.mem_of_mem_take member
    exact (members route).mp (part.mem inside)
  · simp only [Bool.and_eq_true, decide_eq_true_eq] at exhaustive
    dsimp only
    rw [List.take_of_length_le exhaustive.2, view, all exhaustive.1.1]
    exact (members route).mpr ⟨nonempty, compliant⟩
  · exact ⟨blocks ▸ start.bounded, blocks ▸ start.clear⟩

theorem build_pool_strict (limits : PlannerLimits) (enumeration : Enumeration) (scratch : SearchScratch)
    (sound : PoolSound state task (buildPool state task enumeration limits scratch).1) :
    (buildPool state task enumeration limits scratch).1.Pairwise fun a b => candidateKey a < candidateKey b := by
  have sorted : (buildPool state task enumeration limits scratch).1.Pairwise fun a b => candidateKey a ≤ candidateKey b := by
    unfold buildPool
    dsimp only
    split_ifs
    · exact (unique_candidates_strict _ (sort_candidates_sorted _)).imp fun less => less.le
    · exact sort_candidates_sorted _
  have distinct := List.pairwise_map.mp sound.distinct
  refine (sorted.and distinct).imp fun {a b} both => lt_of_le_of_ne both.1 fun same => both.2 (candidate_key_edges a b same)

-- The alternatives kept for a logical edge are the best of its admissible sets, of all of them when that was exhaustive.
structure Retained (state : PlannerState) (limits : PlannerLimits) (task : EnumerationTask) (exhaustive : Bool)
    (sets : List PathSet) : Prop where
  best : ∃ items : List PathSet, Ranked.Best pathSetKey limits.maxSetAlternatives items sets ∧ items.Nodup ∧
    (∀ set ∈ items, ∃ routes, SetSound state task set routes) ∧
    (exhaustive = true → ∀ routes, AdmissibleSet state.request task.sourceBinding task.targetBinding routes →
      ∃ order : List Route, order.Perm routes ∧ SetSound state task (setOf state (order.map state.candidateOf)) order ∧
        setOf state (order.map state.candidateOf) ∈ items)

theorem choices_distinct (wanted : Nat) (pool chosen : List Candidate) (distinct : pool.Nodup) (room : chosen.length ≤ wanted) :
    (choices state wanted pool chosen).Nodup := by
  induction pool generalizing chosen with
  | nil =>
      rw [choices]
      split_ifs <;> simp
  | cons candidate rest ih =>
      obtain ⟨fresh, restDistinct⟩ := List.nodup_cons.mp distinct
      by_cases complete : chosen.length = wanted
      · rw [choices_complete state wanted _ _ complete]
        simp
      · rw [choices, if_neg complete, List.nodup_append]
        have longer : (chosen ++ [candidate]).length ≤ wanted := by
          rw [List.length_append, List.length_singleton]
          omega
        refine ⟨?_, ih chosen restDistinct room, ?_⟩
        · split_ifs
          · exact ih _ restDistinct longer
          · exact List.nodup_nil
        · rintro result taken other passed rfl
          split_ifs at taken
          · obtain ⟨picked, _, eq, _⟩ := (choices_mem state wanted rest _ result longer).mp taken
            obtain ⟨skipped, part, same, _⟩ := (choices_mem state wanted rest chosen result room).mp passed
            rw [eq, List.append_assoc, List.append_cancel_left_eq] at same
            exact fresh (part.mem (by simp [← same]))
          · simp at taken

theorem offered_distinct (wanted : Nat) (pool : List Candidate)
    (sorted : pool.Pairwise fun a b => candidateKey a < candidateKey b) :
    (offered state (choices state wanted pool [])).Nodup := by
  have distinct : pool.Nodup := by
    refine sorted.imp ?_
    rintro a _ less rfl
    exact lt_irrefl _ less
  refine List.Nodup.filter _ (List.Nodup.map_on ?_ (choices_distinct wanted pool [] distinct (Nat.zero_le _)))
  intro first left second right same
  have kept : ∀ chosen ∈ choices state wanted pool [], (setOf state chosen).paths = chosen := by
    intro chosen member
    obtain ⟨picked, part, rfl, _⟩ := (choices_mem state wanted pool [] chosen (Nat.zero_le _)).mp member
    exact sort_candidates_strict _ (sorted.sublist part)
  rw [← kept first left, ← kept second right, same]

variable {limits : PlannerLimits}

theorem enumerate_sets_retained (stateSound : PlannerState.Sound state) (pool : List Candidate) (poolSound : PoolSound state task pool)
    (sorted : pool.Pairwise fun a b => candidateKey a < candidateKey b) (exhaustive : Bool)
    (complete : exhaustive = true → ∀ route, CompliantRoute state.request task.sourceBinding task.targetBinding route →
      state.candidateOf route ∈ pool) (budget : Nat) :
    Retained state limits task
      (exhaustive && !(enumerateSets state pool (wanted state) limits.maxSetAlternatives budget).stepLimited)
      (enumerateSets state pool (wanted state) limits.maxSetAlternatives budget).best := by
  obtain ⟨taken, part, best, all⟩ := enumerate_sets_best state (wanted state) limits.maxSetAlternatives budget pool
  refine ⟨taken, best, (offered_distinct _ pool sorted).sublist part, fun set member => ?_, fun proven routes admissible => ?_⟩
  · exact offered_sound stateSound pool poolSound sorted set (part.mem member)
  · simp only [Bool.and_eq_true, Bool.not_eq_true'] at proven
    obtain ⟨order, perm, offered⟩ := offered_complete stateSound pool poolSound (complete proven.1) routes admissible
    obtain ⟨listed, sound⟩ := offered_sound stateSound pool poolSound sorted _ offered
    have same : (listed.map state.candidateOf).Perm (order.map state.candidateOf) := by
      rw [← sound.paths]
      exact sort_candidates_perm _
    have listedPerm : listed.Perm order := by
      have edges := same.map Candidate.edges
      simpa [List.map_map, Function.comp_def, PlannerState.candidateOf] using edges
    refine ⟨listed, listedPerm.trans perm, sound.built ▸ sound, ?_⟩
    rw [← sound.built, all proven.2]
    exact offered

-- A denial that claims proof has one: a cut below the wanted number, or a search that saw every set.
theorem deny_sets_proven (stateSound : PlannerState.Sound state) (taskSound : EnumerationTask.Sound state task)
    (apart : task.source ≠ task.target) (room : 1 ≤ limits.maxSetAlternatives) (exhaustive : Bool) (sets : SetEnumeration)
    (plan : EdgePlan) (retained : Retained state limits task plan.setsExhaustive []) (routes : List Route)
    (admissible : AdmissibleSet state.request task.sourceBinding task.targetBinding routes) :
    (denySets state task exhaustive sets plan).kind ≠ .provenInfeasible := by
  have count : routes.length = wanted state := by rw [admissible.count, wanted, wanted_eq stateSound]
  have enough : state.policy.disjointness ≠ .none → wanted state ≤ maxDisjointPaths state task.source task.target
      (decide (state.policy.disjointness = .node)) task.sourceBinding task.targetBinding (wanted state) := by
    intro mode
    rw [← count]
    exact MaxDisjointPaths.max_disjoint_paths_bound _ stateSound taskSound apart routes admissible.compliant
      (admissible.separate.imp fun separate => separate.edges mode)
      fun node => admissible.separate.imp fun separate => separate.nodes (of_decide_eq_true node)
  unfold denySets
  dsimp only
  by_cases certified : state.policy.disjointness ≠ .none ∧ wanted state > 1 ∧
      maxDisjointPaths state task.source task.target (decide (state.policy.disjointness = .node)) task.sourceBinding
        task.targetBinding (wanted state) < wanted state
  · exact absurd certified.2.2 (not_lt.mpr (enough certified.1))
  · rw [if_neg certified]
    by_cases proven : plan.setsExhaustive = true
    · obtain ⟨items, best, _, _, complete⟩ := retained.best
      obtain ⟨order, _, _, member⟩ := complete proven routes admissible
      exact absurd rfl (best.nonempty room (List.ne_nil_of_mem member))
    · rw [if_neg proven]
      simp [fail]

theorem deny_sets_failed (exhaustive : Bool) (sets : SetEnumeration) (plan : EdgePlan) :
    (denySets state task exhaustive sets plan).failed = true := by
  unfold denySets
  dsimp only
  split_ifs <;> rfl

-- What the analysis of a logical edge with usable endpoints amounts to.
structure Verdict (state : PlannerState) (limits : PlannerLimits) (task : EnumerationTask) (plan : EdgePlan) : Prop where
  kept : plan.failed = false → plan.alternatives ≠ [] ∧ Retained state limits task plan.setsExhaustive plan.alternatives ∧
    (plan.setsExhaustive = true → task.sourceBinding.node ≠ task.targetBinding.node)
  proven : plan.failed = true → plan.kind = .provenInfeasible → task.source ≠ task.target → 1 ≤ limits.maxSetAlternatives →
    ∀ routes, ¬ AdmissibleSet state.request task.sourceBinding task.targetBinding routes

theorem choose_sets_verdict (stateSound : PlannerState.Sound state) (taskSound : EnumerationTask.Sound state task)
    (exhaustive : Bool) (pool : List Candidate) (poolSound : PoolSound state task pool)
    (sorted : pool.Pairwise fun a b => candidateKey a < candidateKey b)
    (complete : exhaustive = true → ∀ route, CompliantRoute state.request task.sourceBinding task.targetBinding route →
      state.candidateOf route ∈ pool)
    (apart : exhaustive = true → task.sourceBinding.node ≠ task.targetBinding.node) (plan : EdgePlan)
    (fresh : plan.failed = false) : Verdict state limits task (chooseSets state limits task exhaustive pool plan) := by
  have retained := @enumerate_sets_retained _ _ limits stateSound pool poolSound sorted exhaustive complete
    limits.maxCombinationSteps
  unfold chooseSets
  dsimp only
  by_cases nothing : (enumerateSets state pool (wanted state) limits.maxSetAlternatives limits.maxCombinationSteps).best = []
  · rw [if_pos nothing]
    refine ⟨fun passed => ?_, fun _ proven apart room routes admissible => ?_⟩
    · rw [deny_sets_failed] at passed
      exact Bool.noConfusion passed
    · rw [nothing] at retained
      exact deny_sets_proven stateSound taskSound apart room exhaustive _ _ retained routes admissible proven
  · rw [if_neg nothing]
    refine ⟨fun _ => ⟨nothing, retained, fun proven => ?_⟩, fun failed => ?_⟩
    · simp only [Bool.and_eq_true] at proven
      exact apart proven.1
    · dsimp only at failed
      rw [fresh] at failed
      exact Bool.noConfusion failed

theorem wanted_nonempty (stateSound : PlannerState.Sound state) (routes : List Route)
    (admissible : AdmissibleSet state.request task.sourceBinding task.targetBinding routes) : ∃ route, route ∈ routes := by
  have positive := stateSound.request.policy.paths.1
  have count := admissible.count
  exact List.exists_mem_of_length_pos (by omega)

theorem search_verdict (stateSound : PlannerState.Sound state) (taskSound : EnumerationTask.Sound state task)
    (scratch : SearchScratch) (bounded : scratch.blocks.Bounded) (plan : EdgePlan) (fresh : plan.failed = false) :
    Verdict state limits task (search state limits task scratch plan).1 ∧ (search state limits task scratch plan).2.Ready := by
  have run := enumerated_sound stateSound taskSound scratch bounded
  obtain ⟨poolSound, ready⟩ := build_pool_sound state stateSound task taskSound (enumerated state task scratch).out limits
    (enumerated state task scratch).scratch run.ready fun route member => (run.compliant route member).2
  have sorted := build_pool_strict limits _ _ poolSound
  have listed : (enumerated state task scratch).out.exhaustive = true → ∀ candidate,
      candidate ∈ (buildPool state task (enumerated state task scratch).out limits (enumerated state task scratch).scratch).1 ↔
        ∃ route ∈ (enumerated state task scratch).out.paths, candidate = state.candidateOf route := by
    intro exhaustive candidate
    unfold buildPool
    dsimp only
    rw [if_pos exhaustive]
    exact enumerated_candidates_mem stateSound taskSound _ (fun route member => (run.compliant route member).2) candidate
  unfold search
  dsimp only
  generalize buildPool state task (enumerated state task scratch).out limits (enumerated state task scratch).scratch = built
    at poolSound ready sorted listed
  obtain ⟨pool, after⟩ := built
  dsimp only at poolSound ready sorted listed ⊢
  by_cases empty : pool = []
  · rw [if_pos empty]
    by_cases partly : (enumerated state task scratch).out.exhaustive = false
    · rw [if_pos partly]
      exact ⟨⟨fun passed => by simp [fail] at passed, fun _ proven => by simp [fail] at proven⟩, ready⟩
    · rw [if_neg partly]
      refine ⟨⟨fun passed => by simp [diagnosed, fail] at passed, fun _ _ apart _ routes admissible => ?_⟩, ready⟩
      obtain ⟨route, member⟩ := wanted_nonempty stateSound routes admissible
      have compliant := admissible.compliant route member
      have nonempty : route ≠ [] := by
        rintro rfl
        have same : task.sourceBinding.node = task.targetBinding.node := compliant.walk
        have source := taskSound.source
        rw [same, taskSound.target, Option.some.injEq] at source
        exact apart source.symm
      have exhaustive : (enumerated state task scratch).out.exhaustive = true := by simpa using partly
      have inside := (listed exhaustive (state.candidateOf route)).mpr
        ⟨route, run.complete exhaustive route nonempty compliant, rfl⟩
      rw [empty] at inside
      simp at inside
  · rw [if_neg empty]
    -- An exhaustive pool that is not empty has a route between two different nodes, so no compliant route is empty.
    have apart : (enumerated state task scratch).out.exhaustive = true → task.sourceBinding.node ≠ task.targetBinding.node := by
      intro exhaustive
      obtain ⟨first, firstIn⟩ := List.exists_mem_of_ne_nil pool empty
      obtain ⟨known, knownIn, _⟩ := (listed exhaustive first).mp firstIn
      exact compliant_apart _ _ _ known (run.compliant known knownIn).1 (run.compliant known knownIn).2
    refine ⟨choose_sets_verdict stateSound taskSound _ pool poolSound sorted (fun exhaustive route compliant => ?_) apart _ fresh,
      ready⟩
    have nonempty : route ≠ [] := by
      rintro rfl
      exact apart exhaustive compliant.walk
    exact (listed exhaustive _).mpr ⟨route, run.complete exhaustive route nonempty compliant, rfl⟩

theorem analyse_endpoints_verdict (stateSound : PlannerState.Sound state) (logical : LogicalEdge) (scratch : SearchScratch)
    (ready : scratch.Ready) (plan : EdgePlan) (fresh : plan.failed = false)
    (edgeTask : EdgeTask state logical task)
    (bounds : task.maxPaths = limits.maxExhaustivePaths ∧ task.maxSteps = limits.maxEnumerationSteps) :
    Verdict state limits task
        (analyseEndpoints state limits task.source task.target task.sourceBinding task.targetBinding scratch plan).1 ∧
      (analyseEndpoints state limits task.source task.target task.sourceBinding task.targetBinding scratch plan).2.Ready := by
  have same : (⟨task.source, task.target, task.sourceBinding, task.targetBinding, limits.maxExhaustivePaths,
      limits.maxEnumerationSteps⟩ : EnumerationTask) = task := by rw [← bounds.1, ← bounds.2]
  unfold analyseEndpoints
  dsimp only
  rw [same]
  by_cases barred : state.nodeAllowed task.source = false ∨ state.nodeAllowed task.target = false
  · rw [if_pos barred]
    refine ⟨⟨fun passed => by simp [fail] at passed, fun _ _ _ _ routes admissible => ?_⟩, ready⟩
    obtain ⟨route, member⟩ := wanted_nonempty stateSound routes admissible
    have compliant := admissible.compliant route member
    have sourceOk := (stateSound.node_allowed_iff _ _ edgeTask.sourceNode).mpr
      (compliant.nodes _ (by simp [visited]))
    have targetOk := (stateSound.node_allowed_iff _ _ edgeTask.targetNode).mpr
      (compliant.nodes _ (finish_visited _ _ _ _ _ compliant.walk))
    rcases barred with source | target
    · rw [sourceOk] at source
      exact Bool.noConfusion source
    · rw [targetOk] at target
      exact Bool.noConfusion target
  · rw [if_neg barred]
    have taskSound := edgeTask.sound stateSound (by simpa using (not_or.mp barred).1)
    have hops := fun apart route => Reachability.bfs_min_hops_bound stateSound taskSound scratch.blocks ready.clear apart route
    cases found : Reachability.bfsMinHops state scratch.blocks task.sourceBinding task.targetBinding task.source task.target with
    | none =>
        refine ⟨⟨fun passed => by simp [diagnosed, fail] at passed, fun _ _ apart _ routes admissible => ?_⟩, ready⟩
        obtain ⟨route, member⟩ := wanted_nonempty stateSound routes admissible
        obtain ⟨_, known, _⟩ := hops apart route (admissible.compliant route member)
        simp [found] at known
    | some count =>
        dsimp only
        by_cases far : count > state.policy.maxHops
        · rw [if_pos far]
          refine ⟨⟨fun passed => by simp [fail] at passed, fun _ _ apart _ routes admissible => ?_⟩, ready⟩
          obtain ⟨route, member⟩ := wanted_nonempty stateSound routes admissible
          have compliant := admissible.compliant route member
          obtain ⟨least, known, short⟩ := hops apart route compliant
          rw [found, Option.some.injEq] at known
          have allowed := compliant.hops
          change route.length ≤ state.policy.maxHops at allowed
          omega
        · rw [if_neg far]
          exact search_verdict stateSound taskSound scratch ready.bounded plan fresh

-- The record of a logical edge, whatever the analysis decides about it.
structure Labelled (state : PlannerState) (index : Nat) (plan : EdgePlan) : Prop where
  id : plan.id = ⟨UInt64.ofNat (index + 1)⟩
  src : plan.src = (state.request.collective.logicalEdges.getD index {}).src
  dst : plan.dst = (state.request.collective.logicalEdges.getD index {}).dst
  stage : plan.stage = state.request.collective.logicalEdgeStage.getD index 0

def labels (plan : EdgePlan) : LogicalEdgeId × ParticipantId × ParticipantId × Nat := (plan.id, plan.src, plan.dst, plan.stage)

theorem deny_sets_labels (exhaustive : Bool) (sets : SetEnumeration) (plan : EdgePlan) :
    labels (denySets state task exhaustive sets plan) = labels plan := by
  unfold denySets
  dsimp only
  split_ifs <;> rfl

theorem search_labels (scratch : SearchScratch) (plan : EdgePlan) :
    labels (search state limits task scratch plan).1 = labels plan := by
  unfold search chooseSets
  dsimp only
  split_ifs
  · rfl
  · rfl
  · rw [deny_sets_labels]
    rfl
  · rfl

theorem analyse_endpoints_labels (source target : NodeIndex) (sourceBinding targetBinding : EndpointBinding)
    (scratch : SearchScratch) (plan : EdgePlan) :
    labels (analyseEndpoints state limits source target sourceBinding targetBinding scratch plan).1 = labels plan := by
  unfold analyseEndpoints
  dsimp only
  by_cases barred : state.nodeAllowed source = false ∨ state.nodeAllowed target = false
  · rw [if_pos barred]
    rfl
  · rw [if_neg barred]
    cases Reachability.bfsMinHops state scratch.blocks sourceBinding targetBinding source target with
    | none => rfl
    | some hops =>
        dsimp only
        split_ifs
        · rfl
        · exact search_labels _ _

-- What an analysis may say of a logical edge whose endpoints are known.
def Judged (kind : DenialKind) : Prop := kind = .provenInfeasible ∨ kind = .searchLimitReached

theorem Judged.valid {kind : DenialKind} (judged : Judged kind) : kind ≠ .invalidRequest := by
  rcases judged with rfl | rfl <;> decide

theorem Judged.supported {kind : DenialKind} (judged : Judged kind) : kind ≠ .unsupportedConstraint := by
  rcases judged with rfl | rfl <;> decide

theorem deny_sets_kind (exhaustive : Bool) (sets : SetEnumeration) (plan : EdgePlan) :
    Judged (denySets state task exhaustive sets plan).kind := by
  unfold denySets
  dsimp only
  split_ifs <;> simp [fail, Judged]

theorem search_kind (scratch : SearchScratch) (plan : EdgePlan) (start : Judged plan.kind) :
    Judged (search state limits task scratch plan).1.kind := by
  unfold search chooseSets
  dsimp only
  split_ifs
  · simp [fail, Judged]
  · simp [diagnosed, fail, Judged]
  · exact deny_sets_kind _ _ _
  · exact start

-- Once both endpoints are known the request is never called malformed.
theorem analyse_endpoints_kind (source target : NodeIndex) (sourceBinding targetBinding : EndpointBinding)
    (scratch : SearchScratch) (plan : EdgePlan) (start : Judged plan.kind) :
    Judged (analyseEndpoints state limits source target sourceBinding targetBinding scratch plan).1.kind := by
  unfold analyseEndpoints
  dsimp only
  by_cases barred : state.nodeAllowed source = false ∨ state.nodeAllowed target = false
  · rw [if_pos barred]
    simp [fail, Judged]
  · rw [if_neg barred]
    cases Reachability.bfsMinHops state scratch.blocks sourceBinding targetBinding source target with
    | none => simp [diagnosed, fail, Judged]
    | some hops =>
        dsimp only
        split_ifs
        · simp [fail, Judged]
        · exact search_kind _ _ start

end Analyse

open Analyse

-- The analysis of one logical edge, from any scratch state with nothing blocked.
structure EdgeVerdict (state : PlannerState) (limits : PlannerLimits) (index : Nat) (plan : EdgePlan) : Prop where
  labelled : Labelled state index plan
  kept : plan.failed = false → ∃ task, EdgeTask state (state.request.collective.logicalEdges.getD index {}) task ∧
    Verdict state limits task plan
  proven : plan.failed = true → plan.kind = .provenInfeasible → 1 ≤ limits.maxSetAlternatives →
    ∀ source target, BoundTo state.request (state.request.collective.logicalEdges.getD index {}).src source →
      BoundTo state.request (state.request.collective.logicalEdges.getD index {}).dst target → source.node ≠ target.node →
      ∀ routes, ¬ AdmissibleSet state.request source target routes
  bound : ∀ source target, BoundTo state.request (state.request.collective.logicalEdges.getD index {}).src source →
    BoundTo state.request (state.request.collective.logicalEdges.getD index {}).dst target → plan.kind ≠ .invalidRequest

theorem analyse_logical_edge_labels (state : PlannerState) (limits : PlannerLimits) (scratch : SearchScratch) (index : Nat) :
    Labelled state index (analyseLogicalEdge state limits scratch index).1 := by
  have split : ∀ plan, labels plan = (⟨UInt64.ofNat (index + 1)⟩, (state.request.collective.logicalEdges.getD index {}).src,
      (state.request.collective.logicalEdges.getD index {}).dst, state.request.collective.logicalEdgeStage.getD index 0) →
      Labelled state index plan := by
    intro plan same
    simp only [labels, Prod.mk.injEq] at same
    exact ⟨same.1, same.2.1, same.2.2.1, same.2.2.2⟩
  refine split _ ?_
  unfold analyseLogicalEdge
  dsimp only
  split
  · split
    · rw [analyse_endpoints_labels]
      rfl
    · rfl
  · rfl
  · rfl

-- Only the self check of the whole plan calls a constraint unsupported.
theorem analyse_logical_edge_supported (state : PlannerState) (limits : PlannerLimits) (scratch : SearchScratch) (index : Nat) :
    (analyseLogicalEdge state limits scratch index).1.kind ≠ .unsupportedConstraint := by
  unfold analyseLogicalEdge
  dsimp only
  split
  · split
    · exact Judged.supported (analyse_endpoints_kind _ _ _ _ _ _ (Or.inl rfl))
    · simp [fail]
  · simp [fail]
  · simp [fail]

theorem analyse_logical_edge_verdict (state : PlannerState) (stateSound : PlannerState.Sound state) (limits : PlannerLimits)
    (scratch : SearchScratch) (ready : scratch.Ready) (index : Nat) :
    EdgeVerdict state limits index (analyseLogicalEdge state limits scratch index).1 ∧
      (analyseLogicalEdge state limits scratch index).2.Ready := by
  have find := PlanningRequest.find_binding_bound state.request stateSound.request
  have labelled := analyse_logical_edge_labels state limits scratch index
  unfold analyseLogicalEdge at labelled ⊢
  dsimp only at labelled ⊢
  split at labelled
  · rename_i sourceBinding targetBinding sourceFound targetFound
    have sourceBound := (find _ _).mp sourceFound
    have targetBound := (find _ _).mp targetFound
    obtain ⟨source, sourceNode⟩ := (stateSound.request.bindings _ sourceBound.listed).known
    obtain ⟨target, targetNode⟩ := (stateSound.request.bindings _ targetBound.listed).known
    change state.fabric.nodeIndex sourceBinding.node = some source at sourceNode
    change state.fabric.nodeIndex targetBinding.node = some target at targetNode
    simp only [sourceNode, targetNode] at labelled ⊢
    let task : EnumerationTask :=
      ⟨source, target, sourceBinding, targetBinding, limits.maxExhaustivePaths, limits.maxEnumerationSteps⟩
    have edgeTask : EdgeTask state (state.request.collective.logicalEdges.getD index {}) task :=
      ⟨sourceBound, targetBound, sourceNode, targetNode⟩
    let start : EdgePlan := {
      id := ⟨UInt64.ofNat (index + 1)⟩
      src := (state.request.collective.logicalEdges.getD index {}).src
      dst := (state.request.collective.logicalEdges.getD index {}).dst
      stage := state.request.collective.logicalEdgeStage.getD index 0 }
    obtain ⟨verdict, after⟩ := @analyse_endpoints_verdict _ _ limits stateSound _ scratch ready start rfl edgeTask
      ⟨rfl, rfl⟩
    refine ⟨⟨labelled, fun _ => ⟨task, edgeTask, verdict⟩, fun failed proven room source target left right apart => ?_,
      fun _ _ _ _ => (analyse_endpoints_kind source target sourceBinding targetBinding scratch start (Or.inl rfl)).valid⟩, after⟩
    obtain ⟨rfl, rfl⟩ := edgeTask.bindings_unique stateSound source target left right
    refine verdict.proven failed proven (fun same => apart ?_) room
    have targetNode := edgeTask.targetNode
    rw [← same] at targetNode
    exact stateSound.request.fabric.node_index_injective _ _ _ edgeTask.sourceNode targetNode
  · rename_i missing
    refine ⟨⟨labelled, fun passed => by simp [fail] at passed, fun _ proven => by simp [fail] at proven,
      fun source _ left _ => ?_⟩, ready⟩
    rw [(find _ source).mpr left] at missing
    exact absurd missing (by simp)
  · rename_i missing
    refine ⟨⟨labelled, fun passed => by simp [fail] at passed, fun _ proven => by simp [fail] at proven,
      fun _ target _ right => ?_⟩, ready⟩
    rw [(find _ target).mpr right] at missing
    exact absurd missing (by simp)

end PathPlanner

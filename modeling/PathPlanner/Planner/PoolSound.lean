import PathPlanner.Planner.EnumerateSound
import PathPlanner.Planner.Pool

set_option autoImplicit false

namespace PathPlanner

open Sequence Mapping Walk

-- What every logical edge's analysis finds and leaves behind: no node or edge is blocked.
structure SearchScratch.Ready (scratch : SearchScratch) : Prop where
  bounded : scratch.blocks.Bounded
  clear : scratch.blocks.Clear

theorem initial_ready : SearchScratch.Ready {} := ⟨BlockSet.initial_bounded, BlockSet.initial_clear⟩

namespace BuildPool

variable {state : PlannerState} {task : EnumerationTask}

structure PoolSound (state : PlannerState) (task : EnumerationTask) (pool : List Candidate) : Prop where
  candidates : ∀ candidate ∈ pool, ∃ route, candidate = state.candidateOf route ∧
    CompliantRoute state.request task.sourceBinding task.targetBinding route
  distinct : (pool.map Candidate.edges).Nodup

theorem make_candidate_some (stateSound : PlannerState.Sound state) (taskSound : EnumerationTask.Sound state task)
    (route : Route) (candidate : Candidate)
    (permitted : PermittedWalk state.request task.sourceBinding task.targetBinding route)
    (made : state.makeCandidate route task.source = some candidate) :
    candidate = state.candidateOf route ∧ CompliantRoute state.request task.sourceBinding task.targetBinding route := by
  unfold PlannerState.makeCandidate at made
  split_ifs at made with accepted
  rw [Option.some.injEq] at made
  refine ⟨made.symm, (compliant_iff _ _ _ _).mpr ⟨permitted.walk, ?_, accepted.1, taskSound.sourceUsable,
    permitted.permitted, permitted.cost⟩⟩
  exact (stateSound.simple_path_iff route task.source _ (fun index member => (permitted.permitted index member).stored)
    taskSound.source).mp accepted.2

theorem make_candidate_compliant (stateSound : PlannerState.Sound state) (taskSound : EnumerationTask.Sound state task)
    (route : Route) (compliant : CompliantRoute state.request task.sourceBinding task.targetBinding route) :
    state.makeCandidate route task.source = some (state.candidateOf route) := by
  unfold PlannerState.makeCandidate
  rw [if_pos ⟨compliant.hops, (stateSound.simple_path_iff route task.source _ compliant.stored taskSound.source).mpr
    compliant.simple⟩]

theorem unique_candidates_strict (candidates : List Candidate)
    (sorted : candidates.Pairwise fun a b => candidateKey a ≤ candidateKey b) :
    (uniqueCandidates candidates).Pairwise fun a b => candidateKey a < candidateKey b := by
  have trans : Trans (fun a b => candidateKey a < candidateKey b) (fun a b => candidateKey a < candidateKey b)
      (fun a b => candidateKey a < candidateKey b) := ⟨fun left right => lt_trans left right⟩
  refine unique_strict Candidate.edges _ _ candidates sorted fun a b le differ => lt_of_le_of_ne le fun same => ?_
  exact differ (candidate_key_edges a b same)

theorem strict_distinct (candidates : List Candidate)
    (sorted : candidates.Pairwise fun a b => candidateKey a < candidateKey b)
    (made : ∀ candidate ∈ candidates, ∃ route, candidate = state.candidateOf route) :
    (candidates.map Candidate.edges).Nodup := by
  rw [List.Nodup, List.pairwise_map]
  refine sorted.imp_of_mem fun {a b} left right less same => ?_
  obtain ⟨first, rfl⟩ := made a left
  obtain ⟨second, rfl⟩ := made b right
  have routes : first = second := same
  subst routes
  exact lt_irrefl _ less

theorem enumerated_candidates_mem (stateSound : PlannerState.Sound state) (taskSound : EnumerationTask.Sound state task)
    (paths : List Route)
    (compliant : ∀ route ∈ paths, CompliantRoute state.request task.sourceBinding task.targetBinding route)
    (candidate : Candidate) :
    candidate ∈ enumeratedCandidates state task.source paths ↔ ∃ route ∈ paths, candidate = state.candidateOf route := by
  have listed : ∀ other, other ∈ sortCandidates (paths.filterMap fun path => state.makeCandidate path task.source) ↔
      ∃ route ∈ paths, other = state.candidateOf route := by
    intro other
    rw [(sort_candidates_perm _).mem_iff, List.mem_filterMap]
    refine exists_congr fun route => and_congr_right fun member => ?_
    rw [make_candidate_compliant stateSound taskSound route (compliant route member), Option.some.injEq, eq_comm]
  rw [← listed]
  constructor
  · exact fun kept => (unique_sublist Candidate.edges _).mem kept
  · intro member
    obtain ⟨kept, inside, same⟩ := unique_keys Candidate.edges _ candidate member
    obtain ⟨first, _, rfl⟩ := (listed kept).mp ((unique_sublist Candidate.edges _).mem inside)
    obtain ⟨second, _, rfl⟩ := (listed candidate).mp member
    have routes : first = second := same
    subst routes
    exact inside

theorem enumerated_candidates_sound (stateSound : PlannerState.Sound state) (taskSound : EnumerationTask.Sound state task)
    (paths : List Route)
    (compliant : ∀ route ∈ paths, CompliantRoute state.request task.sourceBinding task.targetBinding route) :
    PoolSound state task (enumeratedCandidates state task.source paths) := by
  have made := fun candidate => (enumerated_candidates_mem stateSound taskSound paths compliant candidate).mp
  refine ⟨fun candidate member => ?_, @strict_distinct state _
    (unique_candidates_strict _ (sort_candidates_sorted _)) fun candidate member => ?_⟩
  · obtain ⟨route, inside, eq⟩ := made candidate member
    exact ⟨route, eq, compliant route inside⟩
  · obtain ⟨route, _, eq⟩ := made candidate member
    exact ⟨route, eq⟩

theorem pool_nothing : PoolSound state task [] := ⟨by simp, by simp⟩

theorem not_present (pool : List Candidate) (candidate : Candidate) (absent : alreadyPresent pool candidate = false) :
    candidate.edges ∉ pool.map Candidate.edges := by
  intro listed
  obtain ⟨other, member, same⟩ := List.mem_map.mp listed
  rw [alreadyPresent, List.any_eq_false] at absent
  exact absent other member (by simpa [samePath] using same)

theorem pool_snoc (pool : List Candidate) (route : Route) (sound : PoolSound state task pool)
    (compliant : CompliantRoute state.request task.sourceBinding task.targetBinding route)
    (absent : alreadyPresent pool (state.candidateOf route) = false) :
    PoolSound state task (pool ++ [state.candidateOf route]) := by
  refine ⟨fun candidate member => ?_, ?_⟩
  · rcases List.mem_append.mp member with old | new
    · exact sound.candidates candidate old
    · exact ⟨route, List.mem_singleton.mp new, compliant⟩
  · rw [List.map_append, List.nodup_append]
    refine ⟨sound.distinct, by simp, fun a old b new same => ?_⟩
    have here : b = (state.candidateOf route).edges := by simpa using new
    exact not_present pool _ absent (by rw [← here, ← same]; exact old)

theorem pool_perm (pool other : List Candidate) (perm : other.Perm pool) (sound : PoolSound state task pool) :
    PoolSound state task other :=
  ⟨fun candidate member => sound.candidates candidate (perm.mem_iff.mp member),
    ((perm.map Candidate.edges).nodup_iff).mpr sound.distinct⟩

theorem pool_sublist (pool other : List Candidate) (part : other.Sublist pool) (sound : PoolSound state task pool) :
    PoolSound state task other :=
  ⟨fun candidate member => sound.candidates candidate (part.mem member), sound.distinct.sublist (part.map _)⟩

theorem pool_append (pool extra : List Candidate) (left : PoolSound state task pool) (right : PoolSound state task extra)
    (apart : ∀ candidate ∈ extra, candidate.edges ∉ pool.map Candidate.edges) : PoolSound state task (pool ++ extra) := by
  refine ⟨fun candidate member => ?_, ?_⟩
  · rcases List.mem_append.mp member with old | new
    · exact left.candidates candidate old
    · exact right.candidates candidate new
  · rw [List.map_append, List.nodup_append]
    refine ⟨left.distinct, right.distinct, fun a old b new same => ?_⟩
    obtain ⟨candidate, member, eq⟩ := List.mem_map.mp new
    exact apart candidate member (by rw [eq, ← same]; exact old)

theorem search_blocked_bounded (scratch : SearchScratch) (edges : List EdgeIndex) (nodes : List NodeIndex)
    (bounded : scratch.blocks.Bounded) : (searchBlocked state task scratch edges nodes).2.blocks.Bounded := by
  unfold searchBlocked
  rw [shortest_path_blocks]
  have edgesKept : ∀ (edges : List EdgeIndex) (blocks : BlockSet), blocks.Bounded →
      (edges.foldl BlockSet.blockEdge blocks).Bounded := by
    intro edges
    induction edges with
    | nil => exact fun _ start => start
    | cons edge rest ih => exact fun blocks start => ih _ (BlockSet.block_edge_bounded blocks edge start)
  have nodesKept : ∀ (nodes : List NodeIndex) (blocks : BlockSet), blocks.Bounded →
      (nodes.foldl BlockSet.blockNode blocks).Bounded := by
    intro nodes
    induction nodes with
    | nil => exact fun _ start => start
    | cons node rest ih => exact fun blocks start => ih _ (BlockSet.block_node_bounded blocks node start)
  exact nodesKept nodes _ (edgesKept edges _ (BlockSet.reset_bounded _ bounded))

theorem search_blocked_sound (stateSound : PlannerState.Sound state) (taskSound : EnumerationTask.Sound state task)
    (scratch : SearchScratch) (edges : List EdgeIndex) (nodes : List NodeIndex)
    (found : (searchBlocked state task scratch edges nodes).1.found = true) :
    PermittedWalk state.request task.sourceBinding task.targetBinding (searchBlocked state task scratch edges nodes).1.edges :=
  shortest_path_sound state stateSound task taskSound _ found

theorem consider_sound (stateSound : PlannerState.Sound state) (taskSound : EnumerationTask.Sound state task) (cap : Nat)
    (pool : List Candidate) (outcome : SearchOutcome) (sound : PoolSound state task pool)
    (permitted : outcome.found = true → PermittedWalk state.request task.sourceBinding task.targetBinding outcome.edges) :
    PoolSound state task (consider state task cap pool outcome) := by
  unfold consider
  by_cases full : outcome.found = false ∨ pool.length ≥ cap
  · rw [if_pos full]
    exact sound
  · rw [if_neg full]
    have found : outcome.found = true := by
      by_contra missing
      exact full (Or.inl (by simpa using missing))
    cases made : state.makeCandidate outcome.edges task.source with
    | none => exact sound
    | some candidate =>
        obtain ⟨rfl, compliant⟩ := make_candidate_some stateSound taskSound _ _ (permitted found) made
        dsimp only
        split_ifs with present
        · exact sound
        · exact pool_snoc pool _ sound compliant (by simpa using present)

theorem cheapest_first_sound (stateSound : PlannerState.Sound state) (taskSound : EnumerationTask.Sound state task)
    (candidates : List Candidate) (scratch : SearchScratch) (sound : PoolSound state task candidates)
    (bounded : scratch.blocks.Bounded) :
    PoolSound state task (cheapestFirst state task candidates scratch).1 ∧
      (cheapestFirst state task candidates scratch).2.blocks.Bounded := by
  have kept := @search_blocked_bounded state task scratch [] [] bounded
  have permitted := search_blocked_sound stateSound taskSound scratch [] []
  unfold cheapestFirst
  generalize searchBlocked state task scratch [] [] = searched at kept permitted
  obtain ⟨best, after⟩ := searched
  dsimp only at kept permitted ⊢
  split
  · rename_i cheapest found made
    obtain ⟨rfl, compliant⟩ := make_candidate_some stateSound taskSound _ _ (permitted found) made
    exact ⟨⟨by simpa using ⟨_, rfl, compliant⟩, by simp⟩, kept⟩
  · exact ⟨pool_sublist candidates _ (List.take_sublist 1 candidates) sound, kept⟩

theorem diversify_sound (stateSound : PlannerState.Sound state) (taskSound : EnumerationTask.Sound state task) (cap : Nat)
    (steps : Nat) (chain : Chain) (sound : PoolSound state task chain.pool) (bounded : chain.scratch.blocks.Bounded) :
    PoolSound state task (diversify state task cap steps chain).pool ∧
      (diversify state task cap steps chain).scratch.blocks.Bounded := by
  induction steps generalizing chain with
  | zero => exact ⟨sound, bounded⟩
  | succ steps ih =>
      rw [diversify]
      have kept := @search_blocked_bounded state task chain.scratch chain.blockedEdges chain.blockedNodes bounded
      have permitted := search_blocked_sound stateSound taskSound chain.scratch chain.blockedEdges chain.blockedNodes
      generalize searchBlocked state task chain.scratch chain.blockedEdges chain.blockedNodes = searched at kept permitted
      obtain ⟨next, after⟩ := searched
      dsimp only at kept permitted ⊢
      split_ifs
      · exact ⟨sound, bounded⟩
      · exact ⟨sound, kept⟩
      · exact ih _ (consider_sound stateSound taskSound cap chain.pool next sound permitted) kept
      · exact ih _ (consider_sound stateSound taskSound cap chain.pool next sound permitted) kept

theorem alternatives_sound (stateSound : PlannerState.Sound state) (taskSound : EnumerationTask.Sound state task)
    (pool : List Candidate) (takenAway : List (List EdgeIndex × List NodeIndex)) (extra : List Candidate)
    (scratch : SearchScratch) (sound : PoolSound state task extra)
    (apart : ∀ candidate ∈ extra, candidate.edges ∉ pool.map Candidate.edges) (bounded : scratch.blocks.Bounded) :
    PoolSound state task (alternatives state task pool takenAway extra scratch).1 ∧
      (∀ candidate ∈ (alternatives state task pool takenAway extra scratch).1,
        candidate.edges ∉ pool.map Candidate.edges) ∧
      (alternatives state task pool takenAway extra scratch).2.blocks.Bounded := by
  induction takenAway generalizing extra scratch with
  | nil => exact ⟨sound, apart, bounded⟩
  | cons first rest ih =>
      obtain ⟨edges, nodes⟩ := first
      rw [alternatives]
      have kept := @search_blocked_bounded state task scratch edges nodes bounded
      have permitted := search_blocked_sound stateSound taskSound scratch edges nodes
      generalize searchBlocked state task scratch edges nodes = searched at kept permitted
      obtain ⟨outcome, after⟩ := searched
      dsimp only at kept permitted ⊢
      by_cases missing : outcome.found = false
      · rw [if_pos missing]
        exact ih extra after sound apart kept
      · rw [if_neg missing]
        cases made : state.makeCandidate outcome.edges task.source with
        | none => exact ih extra after sound apart kept
        | some candidate =>
            obtain ⟨rfl, compliant⟩ := make_candidate_some stateSound taskSound _ _ (permitted (by simpa using missing)) made
            dsimp only
            by_cases present : (alreadyPresent pool (state.candidateOf outcome.edges) ||
                alreadyPresent extra (state.candidateOf outcome.edges)) = true
            · rw [if_pos present]
              exact ih extra after sound apart kept
            · rw [if_neg present]
              have absent : alreadyPresent pool (state.candidateOf outcome.edges) = false ∧
                  alreadyPresent extra (state.candidateOf outcome.edges) = false := by simpa using present
              refine ih _ after (pool_snoc extra _ sound compliant absent.2) (fun candidate member => ?_) kept
              rcases List.mem_append.mp member with old | new
              · exact apart candidate old
              · rw [List.mem_singleton.mp new]
                exact not_present pool _ absent.1

theorem diverse_pool_sound (stateSound : PlannerState.Sound state) (taskSound : EnumerationTask.Sound state task) (cap : Nat)
    (first : Candidate) (pool : List Candidate) (scratch : SearchScratch) (sound : PoolSound state task pool)
    (bounded : scratch.blocks.Bounded) :
    PoolSound state task (diversePool state task cap first pool scratch).1 ∧
      (diversePool state task cap first pool scratch).2.blocks.Bounded := by
  unfold diversePool
  dsimp only
  generalize (if nodeDisjoint state then interiorPositions state first.edges else []) = blockedNodes
  obtain ⟨chainSound, chainBounded⟩ := diversify_sound stateSound taskSound cap (state.policy.pathsPerLogicalEdge - 1)
    ⟨first.edges, blockedNodes, pool, scratch⟩ sound bounded
  generalize diversify state task cap (state.policy.pathsPerLogicalEdge - 1)
    ⟨first.edges, blockedNodes, pool, scratch⟩ = chain at chainSound chainBounded
  generalize first.edges.map (fun index => ([index], [])) ++
    (if nodeDisjoint state then chain.blockedNodes.map (fun node => ([], [node])) else []) = takenAway
  obtain ⟨extraSound, extraApart, extraBounded⟩ := alternatives_sound stateSound taskSound chain.pool takenAway []
    chain.scratch pool_nothing (by simp) chainBounded
  generalize alternatives state task chain.pool takenAway [] chain.scratch = result at extraSound extraApart extraBounded
  obtain ⟨extra, after⟩ := result
  dsimp only at extraSound extraApart extraBounded ⊢
  refine ⟨pool_append _ _ chainSound (pool_sublist _ _ (List.take_sublist _ _)
    (pool_perm extra _ (sort_candidates_perm extra) extraSound)) fun candidate member => ?_, extraBounded⟩
  exact extraApart candidate ((sort_candidates_perm extra).mem_iff.mp (List.mem_of_mem_take member))

theorem fill_pool_sound (cap : Nat) (candidates pool : List Candidate) (fresh : PoolSound state task candidates)
    (sound : PoolSound state task pool) : PoolSound state task (fillPool cap candidates pool) := by
  induction candidates generalizing pool with
  | nil => exact sound
  | cons candidate rest ih =>
      have restSound := pool_sublist _ rest (List.sublist_cons_self candidate rest) fresh
      rw [fillPool]
      split_ifs with full present
      · exact sound
      · exact ih pool restSound sound
      · obtain ⟨route, rfl, compliant⟩ := fresh.candidates candidate (by simp)
        exact ih _ restSound (pool_snoc pool route sound compliant (by simpa using present))

end BuildPool

open BuildPool

-- A pool holds compliant routes only, no route twice, and nothing stays blocked.
theorem build_pool_sound (state : PlannerState) (stateSound : PlannerState.Sound state) (task : EnumerationTask)
    (taskSound : EnumerationTask.Sound state task) (enumeration : Enumeration) (limits : PlannerLimits)
    (scratch : SearchScratch) (ready : scratch.Ready)
    (compliant : ∀ route ∈ enumeration.paths, CompliantRoute state.request task.sourceBinding task.targetBinding route) :
    PoolSound state task (buildPool state task enumeration limits scratch).1 ∧
      (buildPool state task enumeration limits scratch).2.Ready := by
  have candidatesSound := enumerated_candidates_sound stateSound taskSound enumeration.paths compliant
  unfold buildPool
  dsimp only
  by_cases exhaustive : enumeration.exhaustive = true
  · rw [if_pos exhaustive]
    exact ⟨candidatesSound, ready⟩
  · rw [if_neg exhaustive]
    obtain ⟨firstSound, firstBounded⟩ := cheapest_first_sound stateSound taskSound _ scratch candidatesSound ready.bounded
    generalize cheapestFirst state task (enumeratedCandidates state task.source enumeration.paths) scratch = start
      at firstSound firstBounded
    obtain ⟨pool, after⟩ := start
    dsimp only at firstSound firstBounded ⊢
    cases pool with
    | nil =>
        exact ⟨pool_perm _ _ (sort_candidates_perm _) (fill_pool_sound _ _ _ candidatesSound firstSound),
          BlockSet.reset_bounded _ firstBounded, BlockSet.reset_clear _ firstBounded⟩
    | cons first rest =>
        obtain ⟨diverseSound, diverseBounded⟩ := diverse_pool_sound stateSound taskSound limits.maxCandidatePaths first
          (first :: rest) after firstSound firstBounded
        exact ⟨pool_perm _ _ (sort_candidates_perm _) (fill_pool_sound _ _ _ candidatesSound diverseSound),
          BlockSet.reset_bounded _ diverseBounded, BlockSet.reset_clear _ diverseBounded⟩

end PathPlanner

import PathPlanner.Planner.OutcomeSound
import PathPlanner.Lib.TwoRuns

set_option autoImplicit false

namespace PathPlanner

open TwoRuns

namespace BlockSet

-- Block sets that answer alike, whatever their stamps and generations.
structure Alike (left right : BlockSet) : Prop where
  edges : ∀ edge, left.edgeBlocked edge = right.edgeBlocked edge
  nodes : ∀ node, left.nodeBlocked node = right.nodeBlocked node

theorem clear_alike (left right : BlockSet) (leftClear : left.Clear) (rightClear : right.Clear) : Alike left right :=
  ⟨fun edge => (leftClear.1 edge).trans (rightClear.1 edge).symm, fun node => (leftClear.2 node).trans (rightClear.2 node).symm⟩

theorem block_edge_alike (left right : BlockSet) (edge : EdgeIndex) (alike : Alike left right) :
    Alike (left.blockEdge edge) (right.blockEdge edge) := by
  refine ⟨fun other => ?_, alike.nodes⟩
  by_cases same : other = edge
  · subst same
    simp [edgeBlocked, blockEdge]
  · have kept := alike.edges other
    simpa [edgeBlocked, blockEdge, Function.update_of_ne same] using kept

theorem block_node_alike (left right : BlockSet) (node : NodeIndex) (alike : Alike left right) :
    Alike (left.blockNode node) (right.blockNode node) := by
  refine ⟨alike.edges, fun other => ?_⟩
  by_cases same : other = node
  · subst same
    simp [nodeBlocked, blockNode]
  · have kept := alike.nodes other
    simpa [nodeBlocked, blockNode, Function.update_of_ne same] using kept

end BlockSet

section Blocks

variable (state : PlannerState) {left right : BlockSet} (alike : left.Alike right)

include alike

theorem hop_usable_alike : hopUsable state left = hopUsable state right := by
  funext sourceBinding targetBinding index next
  unfold hopUsable
  rw [alike.edges, alike.nodes]

theorem extend_alike (task : EnumerationTask) : Enumerate.extend state left task = Enumerate.extend state right task := by
  funext node visited cost index
  unfold Enumerate.extend
  rw [hop_usable_alike state alike]

theorem enumerate_depth_alike (task : EnumerationTask) (remaining : Nat) :
    Enumerate.enumerateDepth state left task remaining = Enumerate.enumerateDepth state right task remaining := by
  have edges : Enumerate.enumerateEdges state left task = Enumerate.enumerateEdges state right task := by
    funext descend last node visited current cost outgoing
    induction outgoing with
    | nil => rfl
    | cons index rest ih =>
        funext run
        rw [Enumerate.enumerateEdges, Enumerate.enumerateEdges, extend_alike state alike, ih]
  induction remaining with
  | zero => rfl
  | succ remaining ih =>
      funext node visited current cost run
      rw [Enumerate.enumerateDepth, Enumerate.enumerateDepth, ih, edges]

theorem deepen_alike (task : EnumerationTask) (count limit : Nat) :
    Enumerate.deepen state left task count limit = Enumerate.deepen state right task count limit := by
  induction count generalizing limit with
  | zero => rfl
  | succ count ih =>
      funext run
      rw [Enumerate.deepen, Enumerate.deepen, ih, enumerate_depth_alike state alike]

theorem bfs_min_hops_alike : Reachability.bfsMinHops state left = Reachability.bfsMinHops state right := by
  funext sourceBinding targetBinding source target
  have targets : Reachability.usableTargets state left = Reachability.usableTargets state right := by
    funext sourceBinding targetBinding node
    unfold Reachability.usableTargets
    rw [hop_usable_alike state alike]
  unfold Reachability.bfsMinHops
  rw [targets]

theorem search_loop_alike (sourceBinding targetBinding : EndpointBinding) (source target : NodeIndex) (count : Nat) :
    ShortestPath.searchLoop state left sourceBinding targetBinding source target count =
      ShortestPath.searchLoop state right sourceBinding targetBinding source target count := by
  have relaxed : ShortestPath.relaxEdges state left = ShortestPath.relaxEdges state right := by
    funext sourceBinding targetBinding label tables outgoing
    have one : ShortestPath.relaxEdge state left = ShortestPath.relaxEdge state right := by
      funext sourceBinding targetBinding label tables index
      unfold ShortestPath.relaxEdge
      rw [hop_usable_alike state alike]
    unfold ShortestPath.relaxEdges
    rw [one]
  induction count with
  | zero =>
      funext tables
      unfold ShortestPath.searchLoop
      rfl
  | succ count ih =>
      funext tables
      unfold ShortestPath.searchLoop
      simp only [ih, relaxed]

end Blocks

-- The planner state with another budget for its searches; nothing but the searches reads it.
def PlannerState.withBudget (state : PlannerState) (budget : Nat) : PlannerState := { state with maxExpansions := budget }

namespace EnumerateSets

variable (state : PlannerState) (budget : Nat)

theorem first_reject_budget : firstReject (state.withBudget budget) = firstReject state := by
  funext chosenCount candidate chosen
  induction chosen with
  | nil => rfl
  | cons existing rest ih =>
      rw [firstReject, firstReject, ih]
      rfl

theorem enumerate_sets_budget : enumerateSets (state.withBudget budget) = enumerateSets state := by
  have loop : setsLoop (state.withBudget budget) = setsLoop state := by
    funext wanted cap steps pool
    induction pool with
    | nil => rfl
    | cons candidate rest ih =>
        funext chosen out
        rw [setsLoop, setsLoop, ih, first_reject_budget]
        rfl
  unfold enumerateSets
  rw [loop]
  rfl

end EnumerateSets

-- What the analysis asks of a relation between two scratch states: the blocks, the enumeration and the searches keep it.
structure Primitives (view : View SearchScratch) (state : PlannerState) (budget : Nat) : Prop where
  blocks : ∀ left right, view.abreast left right → left.blocks.Alike right.blocks
  change : ∀ change : BlockSet → BlockSet, (∀ blocks, blocks.Bounded → (change blocks).Bounded) →
    (∀ left right : BlockSet, left.Bounded → right.Bounded → left.Alike right → (change left).Alike (change right)) →
    Steady view view (fun scratch => { scratch with blocks := change scratch.blocks })
      fun scratch => { scratch with blocks := change scratch.blocks }
  enumeration : ∀ task, Steady view (view.pair Enumeration)
    (fun scratch => ((Analyse.enumerated (state.withBudget budget) task scratch).out,
      (Analyse.enumerated (state.withBudget budget) task scratch).scratch))
    fun scratch => ((Analyse.enumerated state task scratch).out, (Analyse.enumerated state task scratch).scratch)
  search : ∀ source target sourceBinding targetBinding, Steady view (view.pair SearchOutcome)
    (fun scratch => shortestPath (state.withBudget budget) scratch source target sourceBinding targetBinding)
    fun scratch => shortestPath state scratch source target sourceBinding targetBinding

namespace BuildPool

variable (state : PlannerState) (task : EnumerationTask)

-- The pool's first route, and the pool that widening it gives.
def seeded (candidates : List Candidate) (best : SearchOutcome) (scratch : SearchScratch) : List Candidate × SearchScratch :=
  match best.found, state.makeCandidate best.edges task.source with
  | true, some cheapest => ([cheapest], scratch)
  | _, _ => (candidates.take 1, scratch)

-- The resources whose loss is tried in turn.
def takenAway (first : Candidate) (blockedNodes : List NodeIndex) : List (List EdgeIndex × List NodeIndex) :=
  first.edges.map (fun index => ([index], [])) ++ if nodeDisjoint state then blockedNodes.map (fun node => ([], [node])) else []

def widen (cap : Nat) (pool : List Candidate) (scratch : SearchScratch) : List Candidate × SearchScratch :=
  match pool with
  | [] => ([], scratch)
  | first :: _ => diversePool state task cap first pool scratch

-- The pool in its two steps, written without their intermediate names.
theorem build_pool_steps (enumeration : Enumeration) (limits : PlannerLimits) (scratch : SearchScratch) :
    buildPool state task enumeration limits scratch =
      if enumeration.exhaustive then (enumeratedCandidates state task.source enumeration.paths, scratch)
      else
        let candidates := enumeratedCandidates state task.source enumeration.paths
        let found := cheapestFirst state task candidates scratch
        let widened := widen state task limits.maxCandidatePaths found.1 found.2
        (sortCandidates (fillPool limits.maxCandidatePaths candidates widened.1),
          { widened.2 with blocks := widened.2.blocks.reset }) := rfl

end BuildPool

namespace Analyse

variable (state : PlannerState) (task : EnumerationTask) (limits : PlannerLimits)

-- A record without its message, which quotes the counters.
def unworded (plan : EdgePlan) : EdgePlan := { plan with message := [] }

-- The record that an enumeration and a pool lead to.
def decided (out : Enumeration) (pool : List Candidate) (plan : EdgePlan) : EdgePlan :=
  let plan := { plan with
    enumerationExhaustive := out.exhaustive
    pathsEnumerated := out.paths.length
    candidatesConsidered := pool.length }
  unworded (if pool = [] then
    if out.exhaustive = false then fail plan .searchLimitReached .searchBudgetExceeded .searchBudget []
    else diagnosed state task [] plan
  else chooseSets state limits task out.exhaustive pool plan)

theorem decided_budget (budget : Nat) : decided (state.withBudget budget) = decided state := by
  have sets : chooseSets (state.withBudget budget) = chooseSets state := by
    unfold chooseSets
    rw [EnumerateSets.enumerate_sets_budget]
    rfl
  unfold decided
  rw [sets]
  rfl

theorem search_decided (scratch : SearchScratch) (plan : EdgePlan) :
    (unworded (search state limits task scratch plan).1, (search state limits task scratch plan).2) =
      (decided state task limits (enumerated state task scratch).out
        (buildPool state task (enumerated state task scratch).out limits (enumerated state task scratch).scratch).1 plan,
        (buildPool state task (enumerated state task scratch).out limits (enumerated state task scratch).scratch).2) := by
  unfold search decided
  dsimp only
  split_ifs <;> rfl

end Analyse

variable {view : View SearchScratch} {state : PlannerState} {budget : Nat} (primitives : Primitives view state budget)
  (task : EnumerationTask)

include primitives

theorem reset_steady : Steady view view (fun scratch => { scratch with blocks := scratch.blocks.reset })
    fun scratch => { scratch with blocks := scratch.blocks.reset } :=
  primitives.change BlockSet.reset BlockSet.reset_bounded fun _ _ leftBounded rightBounded _ =>
    BlockSet.clear_alike _ _ (BlockSet.reset_clear _ leftBounded) (BlockSet.reset_clear _ rightBounded)

namespace BuildPool

theorem search_blocked_steady (edges : List EdgeIndex) (nodes : List NodeIndex) :
    Steady view (view.pair SearchOutcome) (fun scratch => searchBlocked (state.withBudget budget) task scratch edges nodes)
      fun scratch => searchBlocked state task scratch edges nodes := by
  have edge : ∀ index, Steady view view (fun scratch => { scratch with blocks := scratch.blocks.blockEdge index })
      fun scratch => { scratch with blocks := scratch.blocks.blockEdge index } := fun index =>
    primitives.change _ (fun blocks => BlockSet.block_edge_bounded blocks index)
      fun _ _ _ _ alike => BlockSet.block_edge_alike _ _ index alike
  have node : ∀ index, Steady view view (fun scratch => { scratch with blocks := scratch.blocks.blockNode index })
      fun scratch => { scratch with blocks := scratch.blocks.blockNode index } := fun index =>
    primitives.change _ (fun blocks => BlockSet.block_node_bounded blocks index)
      fun _ _ _ _ alike => BlockSet.block_node_alike _ _ index alike
  have edgesFold : ∀ (edges : List EdgeIndex) (scratch : SearchScratch), edges.foldl (fun scratch index =>
      { scratch with blocks := scratch.blocks.blockEdge index }) scratch =
        { scratch with blocks := edges.foldl BlockSet.blockEdge scratch.blocks } := by
    intro edges
    induction edges with
    | nil => exact fun _ => rfl
    | cons _ _ ih => exact fun _ => ih _
  have nodesFold : ∀ (nodes : List NodeIndex) (scratch : SearchScratch), nodes.foldl (fun scratch index =>
      { scratch with blocks := scratch.blocks.blockNode index }) scratch =
        { scratch with blocks := nodes.foldl BlockSet.blockNode scratch.blocks } := by
    intro nodes
    induction nodes with
    | nil => exact fun _ => rfl
    | cons _ _ ih => exact fun _ => ih _
  have blocked := steady_comp _ _ _ _ (steady_comp _ _ _ _ (reset_steady primitives) (steady_fold _ _ edge edges))
    (steady_fold _ _ node nodes)
  simp only [edgesFold, nodesFold] at blocked
  exact steady_comp _ _ _ _ blocked (primitives.search task.source task.target task.sourceBinding task.targetBinding)

theorem cheapest_first_steady (candidates : List Candidate) :
    Steady view (view.pair (List Candidate)) (fun scratch => cheapestFirst (state.withBudget budget) task candidates scratch)
      fun scratch => cheapestFirst state task candidates scratch := by
  refine steady_bind _ _ (seeded state task candidates) (seeded state task candidates)
    (search_blocked_steady primitives task [] []) fun best => ?_
  unfold seeded
  split
  · exact steady_return _
  · exact steady_return _

omit primitives in
def chainView (view : View SearchScratch) : View Chain where
  within chain := view.within chain.scratch
  abreast left right := left.blockedEdges = right.blockedEdges ∧ left.blockedNodes = right.blockedNodes ∧ left.pool = right.pool ∧
    view.abreast left.scratch right.scratch

theorem diversify_steady (cap steps : Nat) : Steady (chainView view) (chainView view)
    (diversify (state.withBudget budget) task cap steps) (diversify state task cap steps) := by
  induction steps with
  | zero => exact steady_id
  | succ steps ih =>
      constructor
      · intro chain within
        rw [diversify] at within
        have searched := (search_blocked_steady primitives task chain.blockedEdges chain.blockedNodes).within chain.scratch
        dsimp only at within
        split_ifs at within
        · exact within
        · exact searched within
        · exact searched (ih.within _ within)
        · exact searched (ih.within _ within)
      · rintro ⟨edges, nodes, pool, leftScratch⟩ ⟨_, _, _, rightScratch⟩ ⟨rfl, rfl, rfl, scratch⟩ within
        have searched := (search_blocked_steady primitives task edges nodes).abreast leftScratch rightScratch scratch
        rw [diversify] at within ⊢
        rw [diversify]
        dsimp only at within ⊢
        by_cases full : pool.length ≥ cap
        · rw [if_pos full, if_pos full]
          exact ⟨rfl, rfl, rfl, scratch⟩
        · rw [if_neg full] at within
          rw [if_neg full, if_neg full]
          generalize searchBlocked (state.withBudget budget) task leftScratch edges nodes = left at searched ⊢
          generalize searchBlocked state task rightScratch edges nodes = right at searched within ⊢
          obtain ⟨next, after⟩ := left
          obtain ⟨other, final⟩ := right
          by_cases missing : other.found = false
          · simp only [if_pos missing] at within
            obtain ⟨same, later⟩ := searched within
            dsimp only at same
            subst same
            simp only [if_pos missing]
            exact ⟨rfl, rfl, rfl, later⟩
          · simp only [if_neg missing] at within
            obtain ⟨same, later⟩ := searched (ih.within _ within)
            dsimp only at same
            subst same
            simp only [if_neg missing]
            exact ih.abreast _ _ ⟨rfl, rfl, rfl, later⟩ within

-- What becomes of one path that was searched for with some edges and nodes taken away.
def tryAlternative (state : PlannerState) (task : EnumerationTask) (pool : List Candidate) (rest : List (List EdgeIndex × List NodeIndex))
    (extra : List Candidate) (found : Bool) (made : Option Candidate) (scratch : SearchScratch) : List Candidate × SearchScratch :=
  if found = false then alternatives state task pool rest extra scratch
  else
    match made with
    | none => alternatives state task pool rest extra scratch
    | some candidate =>
        if alreadyPresent pool candidate || alreadyPresent extra candidate then alternatives state task pool rest extra scratch
        else alternatives state task pool rest (extra ++ [candidate]) scratch

theorem alternatives_steady (pool : List Candidate) (takenAway : List (List EdgeIndex × List NodeIndex)) (extra : List Candidate) :
    Steady view (view.pair (List Candidate)) (fun scratch => alternatives (state.withBudget budget) task pool takenAway extra scratch)
      fun scratch => alternatives state task pool takenAway extra scratch := by
  induction takenAway generalizing extra with
  | nil => exact steady_return extra
  | cons first rest ih =>
      obtain ⟨edges, nodes⟩ := first
      refine steady_bind _ _
        (fun outcome scratch => tryAlternative (state.withBudget budget) task pool rest extra outcome.found
          (state.makeCandidate outcome.edges task.source) scratch)
        (fun outcome scratch => tryAlternative state task pool rest extra outcome.found
          (state.makeCandidate outcome.edges task.source) scratch)
        (search_blocked_steady primitives task edges nodes) fun outcome => ?_
      unfold tryAlternative
      refine steady_if _ _ _ _ _ (ih extra) ?_
      cases state.makeCandidate outcome.edges task.source with
      | none => exact ih extra
      | some candidate => exact steady_if _ _ _ _ _ (ih extra) (ih _)

theorem diverse_pool_steady (cap : Nat) (first : Candidate) (pool : List Candidate) :
    Steady view (view.pair (List Candidate)) (fun scratch => diversePool (state.withBudget budget) task cap first pool scratch)
      fun scratch => diversePool state task cap first pool scratch := by
  have started : Steady view (chainView view) (fun scratch => (⟨first.edges,
      if nodeDisjoint state then interiorPositions state first.edges else [], pool, scratch⟩ : Chain)) fun scratch =>
        ⟨first.edges, if nodeDisjoint state then interiorPositions state first.edges else [], pool, scratch⟩ :=
    ⟨fun _ within => within, fun _ _ abreast _ => ⟨rfl, rfl, rfl, abreast⟩⟩
  have opened : Steady (chainView view) (view.pair (List EdgeIndex × List NodeIndex × List Candidate))
      (fun chain => ((chain.blockedEdges, chain.blockedNodes, chain.pool), chain.scratch))
      fun chain => ((chain.blockedEdges, chain.blockedNodes, chain.pool), chain.scratch) :=
    ⟨fun _ within => within, fun _ _ abreast _ => ⟨Prod.ext abreast.1 (Prod.ext abreast.2.1 abreast.2.2.1), abreast.2.2.2⟩⟩
  have chained := steady_comp _ _ _ _ (steady_comp _ _ _ _ started
    (diversify_steady primitives task cap (state.policy.pathsPerLogicalEdge - 1))) opened
  refine steady_bind _ _ (fun chain scratch => (chain.2.2 ++ (sortCandidates (alternatives (state.withBudget budget) task chain.2.2
      (takenAway state first chain.2.1) [] scratch).1).take (cap - chain.2.2.length),
    (alternatives (state.withBudget budget) task chain.2.2 (takenAway state first chain.2.1) [] scratch).2))
    (fun chain scratch => (chain.2.2 ++ (sortCandidates (alternatives state task chain.2.2
      (takenAway state first chain.2.1) [] scratch).1).take (cap - chain.2.2.length),
    (alternatives state task chain.2.2 (takenAway state first chain.2.1) [] scratch).2)) chained fun chain => ?_
  exact steady_map (fun extra => chain.2.2 ++ (sortCandidates extra).take (cap - chain.2.2.length)) _ _
    (alternatives_steady primitives task chain.2.2 (takenAway state first chain.2.1) [])

theorem widen_steady (cap : Nat) (pool : List Candidate) :
    Steady view (view.pair (List Candidate)) (widen (state.withBudget budget) task cap pool) (widen state task cap pool) := by
  cases pool with
  | nil => exact steady_return []
  | cons first rest => exact diverse_pool_steady primitives task cap first (first :: rest)

end BuildPool

open BuildPool in
theorem build_pool_steady (enumeration : Enumeration) (limits : PlannerLimits) :
    Steady view (view.pair (List Candidate)) (fun scratch => buildPool (state.withBudget budget) task enumeration limits scratch)
      fun scratch => buildPool state task enumeration limits scratch := by
  have same : enumeratedCandidates (state.withBudget budget) = enumeratedCandidates state := rfl
  simp only [build_pool_steps, same]
  refine steady_if _ _ _ _ _ (steady_return _) ?_
  generalize enumeratedCandidates state task.source enumeration.paths = candidates
  have pools := steady_bind _ _ (widen (state.withBudget budget) task limits.maxCandidatePaths)
    (widen state task limits.maxCandidatePaths) (cheapest_first_steady primitives task candidates)
    (widen_steady primitives task limits.maxCandidatePaths)
  refine steady_bind _ _ (fun pool (scratch : SearchScratch) => (sortCandidates (fillPool limits.maxCandidatePaths candidates pool),
    { scratch with blocks := scratch.blocks.reset })) (fun pool (scratch : SearchScratch) =>
      (sortCandidates (fillPool limits.maxCandidatePaths candidates pool), { scratch with blocks := scratch.blocks.reset })) pools
    fun pool => ?_
  exact steady_comp _ _ _ _ (reset_steady primitives) (steady_return _)

namespace Analyse

variable (limits : PlannerLimits)

theorem search_steady (plan : EdgePlan) : Steady view (view.pair EdgePlan)
    (fun scratch => (unworded (search (state.withBudget budget) limits task scratch plan).1,
      (search (state.withBudget budget) limits task scratch plan).2))
    fun scratch => (unworded (search state limits task scratch plan).1, (search state limits task scratch plan).2) := by
  simp only [search_decided, decided_budget]
  exact steady_bind _ _ (fun out scratch =>
    (decided state task limits out (buildPool (state.withBudget budget) task out limits scratch).1 plan,
      (buildPool (state.withBudget budget) task out limits scratch).2))
    (fun out scratch => (decided state task limits out (buildPool state task out limits scratch).1 plan,
      (buildPool state task out limits scratch).2)) (primitives.enumeration task) fun out =>
        steady_map (fun pool => decided state task limits out pool plan) _ _ (build_pool_steady primitives task out limits)

theorem analyse_endpoints_steady (source target : NodeIndex) (sourceBinding targetBinding : EndpointBinding) (plan : EdgePlan) :
    Steady view (view.pair EdgePlan) (fun scratch =>
      (unworded (analyseEndpoints (state.withBudget budget) limits source target sourceBinding targetBinding scratch plan).1,
        (analyseEndpoints (state.withBudget budget) limits source target sourceBinding targetBinding scratch plan).2))
      fun scratch => (unworded (analyseEndpoints state limits source target sourceBinding targetBinding scratch plan).1,
        (analyseEndpoints state limits source target sourceBinding targetBinding scratch plan).2) := by
  have searches := search_steady primitives ⟨source, target, sourceBinding, targetBinding, limits.maxExhaustivePaths,
    limits.maxEnumerationSteps⟩ limits plan
  have allowed : (state.withBudget budget).nodeAllowed = state.nodeAllowed := rfl
  have reach : Reachability.bfsMinHops (state.withBudget budget) = Reachability.bfsMinHops state := rfl
  by_cases barred : state.nodeAllowed source = false ∨ state.nodeAllowed target = false
  · simp only [analyseEndpoints, allowed, if_pos barred]
    exact steady_return (unworded _)
  · simp only [analyseEndpoints, allowed, reach, if_neg barred]
    constructor
    · intro scratch within
      cases found : Reachability.bfsMinHops state scratch.blocks sourceBinding targetBinding source target with
      | none =>
          rw [found] at within
          exact within
      | some hops =>
          rw [found] at within
          dsimp only at within
          by_cases far : hops > state.policy.maxHops
          · rw [if_pos far] at within
            exact within
          · rw [if_neg far] at within
            exact searches.within scratch within
    · intro left right abreast within
      rw [bfs_min_hops_alike state (primitives.blocks left right abreast)]
      cases found : Reachability.bfsMinHops state right.blocks sourceBinding targetBinding source target with
      | none => exact ⟨rfl, abreast⟩
      | some hops =>
          rw [found] at within
          dsimp only at within ⊢
          by_cases far : hops > state.policy.maxHops
          · have farther : hops > (state.withBudget budget).policy.maxHops := far
            simp only [if_pos far, if_pos farther]
            exact ⟨rfl, abreast⟩
          · have nearer : ¬ hops > (state.withBudget budget).policy.maxHops := far
            rw [if_neg far] at within
            simp only [if_neg far, if_neg nearer]
            exact searches.abreast left right abreast within

end Analyse

open Analyse

theorem analyse_logical_edge_steady (limits : PlannerLimits) (index : Nat) :
    Steady view (view.pair EdgePlan) (fun scratch =>
      (unworded (analyseLogicalEdge (state.withBudget budget) limits scratch index).1,
        (analyseLogicalEdge (state.withBudget budget) limits scratch index).2))
      fun scratch => (unworded (analyseLogicalEdge state limits scratch index).1, (analyseLogicalEdge state limits scratch index).2) := by
  have request : (state.withBudget budget).request = state.request := rfl
  have fabric : (state.withBudget budget).fabric = state.fabric := rfl
  unfold analyseLogicalEdge
  dsimp only
  rw [request, fabric]
  split
  · split
    · exact analyse_endpoints_steady primitives limits _ _ _ _ _
    · exact steady_return (unworded _)
  · exact steady_return (unworded _)
  · exact steady_return (unworded _)

end PathPlanner

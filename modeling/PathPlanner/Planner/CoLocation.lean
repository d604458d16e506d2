import PathPlanner.Planner.FindPath
import PathPlanner.Planner.Independence
import PathPlanner.Planner.PlanContract
import PathPlanner.Planner.SweepSteps

set_option autoImplicit false

namespace PathPlanner

open Mapping Walk EnumerateSets BuildPool

namespace PlanCollective

section InTurn

variable (state : PlannerState) (limits : PlannerLimits)

-- The record of a logical edge when those before it are analysed in turn.
def analysedAt (index : Nat) (scratch : SearchScratch) (position : Nat) : EdgePlan :=
  (analyseLogicalEdge state limits (analysedInTurn state limits (List.range' index position) scratch) (index + position)).1

theorem analysed_at_later (index : Nat) (scratch : SearchScratch) (position : Nat) :
    analysedAt state limits (index + 1) (analyseLogicalEdge state limits scratch index).2 position =
      analysedAt state limits index scratch (position + 1) := by
  unfold analysedAt
  rw [List.range'_succ, Nat.add_assoc, Nat.add_comm 1 position]
  rfl

-- No earlier denial stops the analysis before it comes to a position.
def Reached (index : Nat) (scratch : SearchScratch) (position : Nat) : Prop :=
  limits.collectAllDenials = true ∨ ∀ earlier < position, (analysedAt state limits index scratch earlier).failed = false

theorem reached_later (index : Nat) (scratch : SearchScratch) (position : Nat)
    (passes : (analyseLogicalEdge state limits scratch index).1.failed = false ∨ limits.collectAllDenials = true) :
    Reached state limits (index + 1) (analyseLogicalEdge state limits scratch index).2 position ↔
      Reached state limits index scratch (position + 1) := by
  unfold Reached
  by_cases all : limits.collectAllDenials = true
  · simp [all]
  · have first : (analysedAt state limits index scratch 0).failed = false := passes.resolve_right all
    simp only [all, Bool.false_eq_true, false_or, analysed_at_later]
    refine ⟨fun later earlier below => ?_, fun all earlier below => all (earlier + 1) (by omega)⟩
    cases earlier with
    | zero => exact first
    | succ earlier => exact later earlier (by omega)

theorem analyse_all_at (left index : Nat) (scratch : SearchScratch) (position : Nat) (plan : EdgePlan) :
    (analyseAll state limits left index scratch).1[position]? = some plan ↔
      position < left ∧ Reached state limits index scratch position ∧ plan = analysedAt state limits index scratch position := by
  induction left generalizing index scratch position with
  | zero => simp [analyseAll]
  | succ left ih =>
      have here : analysedAt state limits index scratch 0 = (analyseLogicalEdge state limits scratch index).1 := rfl
      have later := @ih (index + 1) (analyseLogicalEdge state limits scratch index).2
      simp only [analysed_at_later] at later
      have first : ∀ found : Option EdgePlan, found = some (analyseLogicalEdge state limits scratch index).1 → (found = some plan ↔
          0 < left + 1 ∧ Reached state limits index scratch 0 ∧ plan = analysedAt state limits index scratch 0) := by
        rintro _ rfl
        rw [Option.some.injEq, here]
        exact ⟨fun same => ⟨Nat.succ_pos _, Or.inr fun _ below => absurd below (Nat.not_lt_zero _), same.symm⟩,
          fun facts => facts.2.2.symm⟩
      rw [analyseAll]
      dsimp only
      by_cases stops : ((analyseLogicalEdge state limits scratch index).1.failed && !limits.collectAllDenials) = true
      · rw [if_pos stops]
        simp only [Bool.and_eq_true, Bool.not_eq_true'] at stops
        cases position with
        | zero => exact first _ rfl
        | succ position =>
            refine ⟨fun never => by simp at never, fun facts => ?_⟩
            rcases facts.2.1 with all | none
            · exact absurd (stops.2.symm.trans all) Bool.false_ne_true
            · have passes := none 0 (Nat.succ_pos _)
              rw [here, stops.1] at passes
              exact Bool.noConfusion passes
      · rw [if_neg stops]
        cases position with
        | zero => exact first _ rfl
        | succ position =>
            have passes : (analyseLogicalEdge state limits scratch index).1.failed = false ∨ limits.collectAllDenials = true := by
              cases failed : (analyseLogicalEdge state limits scratch index).1.failed with
              | false => exact Or.inl rfl
              | true => exact Or.inr (by simpa [failed] using stops)
            rw [List.getElem?_cons_succ, later position, reached_later state limits index scratch position passes,
              Nat.succ_lt_succ_iff]

end InTurn

end PlanCollective

namespace Enumerate

variable (state : PlannerState) {left right : BlockSet} (alike : left.Alike right)

include alike

theorem depth_steps_alike (task : EnumerationTask) (remaining : Nat) :
    depthSteps state left task remaining = depthSteps state right task remaining := by
  induction remaining with
  | zero => rfl
  | succ remaining ih =>
      funext node visited cost
      rw [depthSteps, depthSteps]
      refine congrArg List.sum (List.map_congr_left fun index _ => ?_)
      unfold edgeSteps
      rw [extend_alike state alike, ih]

theorem sweep_steps_alike (task : EnumerationTask) (count limit : Nat) :
    sweepSteps state left task count limit = sweepSteps state right task count limit := by
  induction count generalizing limit with
  | zero => rfl
  | succ count ih => rw [sweepSteps, sweepSteps, ih, depth_steps_alike state alike]

end Enumerate

namespace EnumerateSets

-- A pool of one route that always fits gives its one set when the limits leave room for it.
theorem enumerate_single (state : PlannerState) (candidate : Candidate) (cap budget : Nat)
    (fits : fitsSpare state (setOf state [candidate]) = true) :
    (enumerateSets state [candidate] 1 cap budget).best =
      if 0 < cap ∧ 0 < budget then [setOf state [candidate]] else [] := by
  have offered : fitsSpare state (buildPathSet state [candidate] state.perPathDemand) = true := fits
  cases budget with
  | zero => simp [enumerateSets, enterSets]
  | succ budget =>
      cases cap with
      | zero => simp [enumerateSets, enterSets, setsLoop, firstReject, consider, offerSet, Ranked.insert, offered]
      | succ cap => simp [enumerateSets, enterSets, setsLoop, firstReject, consider, offerSet, Ranked.insert, offered, setOf]

end EnumerateSets

namespace Analyse

variable {state : PlannerState} {limits : PlannerLimits} {task : EnumerationTask}

-- The step bounds cut the enumeration short.
def CutShort (state : PlannerState) (limits : PlannerLimits) (spent : Nat) (task : EnumerationTask) : Prop :=
  limits.maxEnumerationSteps ≤ Enumerate.sweepSteps state {} task (sweepDepth state) 1 ∨
    state.enumerationBudget ≤ spent + Enumerate.sweepSteps state {} task (sweepDepth state) 1

theorem co_located_enumerated (stateSound : PlannerState.Sound state) (taskSound : EnumerationTask.Sound state task)
    (same : task.sourceBinding.node = task.targetBinding.node) (bounds : task.maxSteps = limits.maxEnumerationSteps)
    (scratch : SearchScratch) (bounded : scratch.blocks.Bounded) :
    (enumerated state task scratch).out.paths = [] ∧
      ((enumerated state task scratch).out.exhaustive = false ↔ CutShort state limits scratch.enumerationSteps task) := by
  have clear := BlockSet.reset_clear _ bounded
  have run := enumerated_sound stateSound taskSound scratch bounded
  have none : (Enumerate.sweepPaths state scratch.blocks.reset task (sweepDepth state) 1).length = 0 := by
    rw [List.length_eq_zero_iff, List.eq_nil_iff_forall_not_mem]
    intro route member
    obtain ⟨nonempty, compliant⟩ := (Enumerate.sweep_paths_mem stateSound taskSound _ clear route).mp member
    exact compliant_apart _ _ _ route nonempty compliant same
  have deep : 0 < sweepDepth state := by
    have hops := stateSound.request.policy.hops.1
    have known := (stateSound.request.fabric.node_index_some _ _ taskSound.source).1
    exact lt_min hops (Nat.zero_lt_of_lt known)
  have steps := Enumerate.sweep_steps_alike state (BlockSet.clear_alike _ _ clear BlockSet.initial_clear) task (sweepDepth state) 1
  refine ⟨?_, ?_⟩
  · rw [List.eq_nil_iff_forall_not_mem]
    intro route member
    obtain ⟨nonempty, compliant⟩ := run.compliant route member
    exact compliant_apart _ _ _ route nonempty compliant same
  · rw [← Bool.not_eq_true, enumerated_exhaustive_iff scratch deep]
    unfold Enumerate.RoomFor CutShort
    rw [none, steps, bounds]
    dsimp only [List.length_nil]
    omega

theorem co_located_pool (here : task.source = task.target) (one : state.policy.pathsPerLogicalEdge = 1) (enumeration : Enumeration)
    (empty : enumeration.paths = []) (scratch : SearchScratch) : (buildPool state task enumeration limits scratch).1 =
      if enumeration.exhaustive then [] else [state.candidateOf []] := by
  have found : ∀ scratch : SearchScratch, (searchBlocked state task scratch [] []).1 = { found := true } := by
    intro scratch
    simp only [searchBlocked, shortestPath, if_pos here]
  have made : state.makeCandidate [] task.source = some (state.candidateOf []) := by
    simp [PlannerState.makeCandidate, edgesFormSimplePath, formsSimplePath]
  have nothing : enumeratedCandidates state task.source enumeration.paths = [] := by
    simp [empty, enumeratedCandidates, uniqueCandidates, Sequence.uniqueBy, sortCandidates]
  have edges : (state.candidateOf []).edges = [] := rfl
  unfold buildPool
  by_cases exhaustive : enumeration.exhaustive = true
  · simp [exhaustive, nothing]
  · simp [exhaustive, nothing, cheapestFirst, found, made, diversePool, one, diversify, edges, alternatives, fillPool, sortCandidates,
      interiorPositions]

theorem co_located_verdict (stateSound : PlannerState.Sound state) (taskSound : EnumerationTask.Sound state task)
    (same : task.sourceBinding.node = task.targetBinding.node) (here : task.source = task.target)
    (bounds : task.maxSteps = limits.maxEnumerationSteps) (one : state.policy.pathsPerLogicalEdge = 1) (scratch : SearchScratch)
    (bounded : scratch.blocks.Bounded) (plan : EdgePlan) (fresh : plan.failed = false) :
    (search state limits task scratch plan).1.failed = false ↔
      CutShort state limits scratch.enumerationSteps task ∧ 0 < limits.maxSetAlternatives ∧ 0 < limits.maxCombinationSteps := by
  obtain ⟨empty, cut⟩ := co_located_enumerated stateSound taskSound same bounds scratch bounded
  have pool := @co_located_pool state limits task here one _ empty (enumerated state task scratch).scratch
  have usage : (EnumerateSets.setOf state [state.candidateOf []]).usage = [] := rfl
  have fits : fitsSpare state (EnumerateSets.setOf state [state.candidateOf []]) = true := by rw [fitsSpare, usage, List.all_nil]
  have sets := enumerate_single state (state.candidateOf []) limits.maxSetAlternatives limits.maxCombinationSteps fits
  have single : wanted state = 1 := by rw [wanted, one, max_self]
  rw [← cut]
  unfold search
  dsimp only
  cases exhaustive : (enumerated state task scratch).out.exhaustive with
  | true =>
      rw [exhaustive, if_pos rfl] at pool
      rw [pool, if_pos rfl, if_neg (by simp)]
      simp [diagnosed, fail]
  | false =>
      rw [exhaustive, if_neg Bool.false_ne_true] at pool
      rw [pool, if_neg (List.cons_ne_nil _ _), chooseSets, single]
      dsimp only
      rw [sets]
      by_cases room : 0 < limits.maxSetAlternatives ∧ 0 < limits.maxCombinationSteps
      · rw [if_pos room, if_neg (List.cons_ne_nil _ _)]
        simp [fresh, room]
      · rw [if_neg room, if_pos rfl, deny_sets_failed]
        simp [room]

end Analyse

namespace PlanCollective

variable {request : PlanningRequest} {limits : PlannerLimits}

-- Both participants of a logical edge are bound to the same node, which the policy allows.
structure SharedNode (request : PlanningRequest) (position : Nat) (source target : EndpointBinding) : Prop where
  edge : position < request.collective.logicalEdges.length
  src : BoundTo request (request.collective.logicalEdges.getD position {}).src source
  dst : BoundTo request (request.collective.logicalEdges.getD position {}).dst target
  same : source.node = target.node
  allowed : NodeUsable request source.node

def sharedTask (request : PlanningRequest) (limits : PlannerLimits) (source target : EndpointBinding) : EnumerationTask where
  source := (request.fabric.nodeIndex source.node).getD 0
  target := (request.fabric.nodeIndex source.node).getD 0
  sourceBinding := source
  targetBinding := target
  maxPaths := limits.maxExhaustivePaths
  maxSteps := limits.maxEnumerationSteps

-- The enumeration steps charged before the analysis comes to a logical edge.
def spentBefore (request : PlanningRequest) (limits : PlannerLimits) (position : Nat) : Nat :=
  (analysedInTurn (initialState request limits) limits (List.range' 0 position) {}).enumerationSteps

theorem shared_verdict (sound : PlanningRequest.Sound request) (position : Nat) (source target : EndpointBinding)
    (shared : SharedNode request position source target) (one : request.policy.pathsPerLogicalEdge = 1) :
    (analysedAt (initialState request limits) limits 0 {} position).failed = false ↔
      Analyse.CutShort (initialState request limits) limits (spentBefore request limits position)
          (sharedTask request limits source target) ∧
        0 < limits.maxSetAlternatives ∧ 0 < limits.maxCombinationSteps := by
  have stateSound : PlannerState.Sound (initialState request limits) := initial_sound sound
  have ready := analysed_ready (initialState request limits) stateSound limits (List.range' 0 position) {} initial_ready
  have find := PlanningRequest.find_binding_bound request sound
  obtain ⟨index, found⟩ := (sound.bindings _ shared.src.listed).known
  have targetFound := found
  rw [shared.same] at targetFound
  have task : sharedTask request limits source target =
      ⟨index, index, source, target, limits.maxExhaustivePaths, limits.maxEnumerationSteps⟩ := by
    rw [sharedTask, found, Option.getD_some]
  have allowed : (initialState request limits).nodeAllowed index = true :=
    (stateSound.node_allowed_iff _ _ found).mpr shared.allowed
  have edgeTask : EdgeTask (initialState request limits) (request.collective.logicalEdges.getD position {})
      (sharedTask request limits source target) := by
    rw [task]
    exact ⟨shared.src, shared.dst, found, targetFound⟩
  have taskSound := edgeTask.sound stateSound (by rw [task]; exact allowed)
  unfold spentBefore analysedAt
  generalize analysedInTurn (initialState request limits) limits (List.range' 0 position) {} = scratch at ready ⊢
  have sourceIs : (initialState request limits).request.findBinding
      ((initialState request limits).request.collective.logicalEdges.getD position {}).src = some source :=
    (find _ _).mpr shared.src
  have targetIs : (initialState request limits).request.findBinding
      ((initialState request limits).request.collective.logicalEdges.getD position {}).dst = some target :=
    (find _ _).mpr shared.dst
  have sourceAt : (initialState request limits).fabric.nodeIndex source.node = some index := found
  have targetAt : (initialState request limits).fabric.nodeIndex target.node = some index := targetFound
  rw [Nat.zero_add]
  simp only [analyseLogicalEdge, sourceIs, targetIs, sourceAt, targetAt, Analyse.analyseEndpoints, allowed,
    Reachability.bfsMinHops, if_true, gt_iff_lt, Nat.not_lt_zero, if_false, Bool.true_eq_false, or_self]
  rw [← task]
  refine Analyse.co_located_verdict stateSound taskSound shared.same ?_ rfl one scratch ready.bounded _ rfl
  rw [task]

theorem recorded_at (position : Nat) (plan : EdgePlan) : (recorded request limits)[position]? = some plan ↔
    position < request.collective.logicalEdges.length ∧ Reached (initialState request limits) limits 0 {} position ∧
      plan = analysedAt (initialState request limits) limits 0 {} position :=
  analyse_all_at _ _ _ _ _ _ _

theorem label_word (position : Nat) (small : position < kMaxLogicalEdges) :
    (UInt64.ofNat (position + 1)).toNat = position + 1 := by
  have word : kMaxLogicalEdges < UInt64.size := by decide
  rw [UInt64.toNat_ofNat_of_lt' (by omega)]

-- A logical edge is denied exactly when its own record is.
theorem denied_at_iff (sound : PlanningRequest.Sound request) (position : Nat)
    (inside : position < request.collective.logicalEdges.length) :
    (∃ denial ∈ (planCollective request limits).denials, denial.logicalEdge = ⟨UInt64.ofNat (position + 1)⟩) ↔
      ∃ plan, (recorded request limits)[position]? = some plan ∧ plan.failed = true := by
  have few := sound.collective.bounded
  have word := label_word position (by omega)
  have named : ∀ other plan, (recorded request limits)[other]? = some plan →
      plan.id = ⟨UInt64.ofNat (other + 1)⟩ ∧ other < kMaxLogicalEdges := by
    intro other plan stored
    exact ⟨(recorded_verdict sound other plan stored).labelled.id, ((recorded_at other plan).mp stored).1.trans_le few⟩
  have whole : ((⟨0⟩ : LogicalEdgeId) = ⟨UInt64.ofNat (position + 1)⟩) → False := by
    intro same
    have zero := congrArg (fun id : LogicalEdgeId => id.value.toNat) same
    dsimp only at zero
    rw [word] at zero
    exact absurd zero (by simp)
  by_cases passed : Passed request limits
  · have kept : ¬ ∃ plan, (recorded request limits)[position]? = some plan ∧ plan.failed = true := by
      rintro ⟨plan, stored, failed⟩
      exact Bool.noConfusion ((passed plan (List.mem_of_getElem? stored)).symm.trans failed)
    refine iff_of_false ?_ kept
    rintro ⟨denial, listed, label⟩
    rcases outcome_concluded sound passed with ⟨_, _, _, denials⟩ | ⟨_, _, _, _, _, _, denials⟩ | ⟨_, _, _, _, _, denials⟩
    · rw [denials, List.mem_singleton] at listed
      subst listed
      refine whole (Eq.trans ?_ label)
      unfold globalDenial
      split_ifs <;> rfl
    · rw [denials, List.mem_singleton] at listed
      subst listed
      exact whole label
    · rw [denials] at listed
      exact absurd listed List.not_mem_nil
  · rw [(outcome_failed sound passed).1]
    constructor
    · rintro ⟨denial, listed, label⟩
      obtain ⟨plan, kept, rfl⟩ := List.mem_map.mp listed
      obtain ⟨member, failed⟩ := List.mem_filter.mp kept
      obtain ⟨other, stored⟩ := List.mem_iff_getElem?.mp member
      obtain ⟨id, small⟩ := named other plan stored
      have same := congrArg (fun id : LogicalEdgeId => id.value.toNat) (id.symm.trans label)
      dsimp only at same
      rw [word, label_word other small] at same
      have here : other = position := by omega
      exact ⟨plan, here ▸ stored, failed⟩
    · rintro ⟨plan, stored, failed⟩
      refine ⟨denialOf plan, List.mem_map_of_mem (List.mem_filter.mpr ⟨List.mem_of_getElem? stored, failed⟩), ?_⟩
      exact (named position plan stored).1

-- The planner keeps the logical edge and sends it along the zero-hop path, as the validator and the path finder do.
structure Handled (request : PlanningRequest) (limits : PlannerLimits) (position : Nat) (source target : EndpointBinding) : Prop where
  kept : ∀ denial ∈ (planCollective request limits).denials, denial.logicalEdge ≠ ⟨UInt64.ofNat (position + 1)⟩
  mapped : ∀ plan, (planCollective request limits).plan = some plan →
    ∃ path, ValidatePlan.siblingsOf plan.paths (position + 1) = [path] ∧ path.hops = []
  accepted : ValidatePlan.checkRoute request 1 (pathFor request 1 position []) source target = .ok ()
  found : findPath request source.node target.node limits = .ok []

-- The analysis stopped before it came to the logical edge, or it could not finish the enumeration and kept the shortest path.
def HandledWhen (request : PlanningRequest) (limits : PlannerLimits) (position : Nat) (source target : EndpointBinding) : Prop :=
  ¬ Reached (initialState request limits) limits 0 {} position ∨
    Analyse.CutShort (initialState request limits) limits (spentBefore request limits position)
        (sharedTask request limits source target) ∧
      0 < limits.maxSetAlternatives ∧ 0 < limits.maxCombinationSteps

theorem zero_hop_accepted (sound : PlanningRequest.Sound request) (position : Nat) (source target : EndpointBinding)
    (same : source.node = target.node) :
    ValidatePlan.checkRoute request 1 (pathFor request 1 position []) source target = .ok () := by
  have none : ∀ index ∈ ([] : Route), index < request.fabric.edges.length := by simp
  refine (ValidatePlan.check_route_ok 1 _ source target).mpr ⟨Nat.zero_le _, ?_, rfl, same, by simp [pathFor], ?_,
    hops_signature sound none, fun _ many => absurd many (lt_irrefl 1)⟩
  · change (UInt64.ofNat (routeCost request [])).toNat ≤ _
    rw [route_cost_word]
    exact Nat.zero_le _
  · exact hops_contiguous source.node target.node same

theorem zero_hop_found (sound : PlanningRequest.Sound request) (node : NodeId) (index : NodeIndex)
    (found : request.fabric.nodeIndex node = some index) : findPath request node node limits = .ok [] := by
  have here : (FindPath.search request index index).1 = { found := true } := by
    simp only [FindPath.search, shortestPath, if_true]
  rw [findPath, sound.validated, found]
  dsimp only
  unfold FindPath.answer
  generalize FindPath.search request index index = result at here ⊢
  obtain ⟨outcome, scratch⟩ := result
  dsimp only at here
  subst here
  rfl

-- A simple path that returns to where it starts has no hop.
theorem closed_path_empty (source target : EndpointBinding) (same : source.node = target.node) (hops : List Hop)
    (simple : hopsAreSimple hops = true) (ends : ValidatePlan.Ends source target hops) : hops = [] := by
  cases hops with
  | nil => rfl
  | cons first rest =>
      simp only [hopsAreSimple, Bool.and_eq_true, List.all_eq_true, decide_eq_true_eq] at simple
      have last := simple.2 _ (List.getLast_mem (List.cons_ne_nil first rest))
      obtain ⟨starts, finishes⟩ := ends
      exact absurd (finishes.trans (same.symm.trans starts.symm)) last

theorem shared_path (sound : PlanningRequest.Sound request) (position : Nat) (source target : EndpointBinding)
    (shared : SharedNode request position source target) (one : request.policy.pathsPerLogicalEdge = 1) (plan : Plan)
    (valid : ValidatePlan.Valid plan request) :
    ∃ path, ValidatePlan.siblingsOf plan.paths (position + 1) = [path] ∧ path.hops = [] := by
  have find := PlanningRequest.find_binding_bound request sound
  have count := (valid.siblings position shared.edge).count
  rw [one] at count
  obtain ⟨path, only⟩ := List.length_eq_one_iff.mp count
  refine ⟨path, only, ?_⟩
  have listed : path ∈ ValidatePlan.siblingsOf plan.paths (position + 1) := by simp [only]
  obtain ⟨member, label⟩ := List.mem_filter.mp listed
  obtain ⟨before, after, split⟩ := List.append_of_mem member
  obtain ⟨first, second, left, right, route⟩ := (valid.paths before path after split).route
  have logical : ValidatePlan.logicalEdgeOf request path = request.collective.logicalEdges.getD position {} := by
    rw [ValidatePlan.logicalEdgeOf, of_decide_eq_true label, Nat.add_sub_cancel]
  rw [logical, (find _ _).mpr shared.src, Option.some.injEq] at left
  rw [logical, (find _ _).mpr shared.dst, Option.some.injEq] at right
  subst left right
  exact closed_path_empty source target shared.same path.hops route.simple route.ends

theorem shared_node_handled_iff (input : BuiltRequest) (limits : PlannerLimits) (position : Nat) (source target : EndpointBinding)
    (shared : SharedNode input.request position source target) (one : input.request.policy.pathsPerLogicalEdge = 1) :
    Handled input.request limits position source target ↔ HandledWhen input.request limits position source target := by
  have sound := input.sound
  have denied := @denied_at_iff input.request limits sound position shared.edge
  have verdict := @shared_verdict input.request limits sound position source target shared one
  constructor
  · intro handled
    by_cases reached : Reached (initialState input.request limits) limits 0 {} position
    · right
      rw [← verdict]
      by_contra failed
      obtain ⟨denial, listed, label⟩ := denied.mpr ⟨_, (recorded_at position _).mpr ⟨shared.edge, reached, rfl⟩, by simpa using failed⟩
      exact handled.kept denial listed label
    · exact Or.inl reached
  · intro when
    obtain ⟨index, found⟩ := (sound.bindings _ shared.src.listed).known
    refine ⟨fun denial listed label => ?_, fun plan planned => ?_, zero_hop_accepted sound position source target shared.same, ?_⟩
    · obtain ⟨plan, stored, failed⟩ := denied.mp ⟨denial, listed, label⟩
      obtain ⟨_, reached, rfl⟩ := (recorded_at position plan).mp stored
      rcases when with early | late
      · exact early reached
      · rw [verdict.mpr late] at failed
        exact Bool.noConfusion failed
    · exact shared_path sound position source target shared one plan (ValidatePlan.validate_plan_ok.mp (planned_valid input planned))
    · rw [← shared.same]
      exact zero_hop_found sound source.node index found

-- Two participants on one node of a fabric with a single edge.
def neighboursRequest : BuiltRequest :=
  .of (Sample.request .tree (Sample.star ["p", "q"]) 0 (Sample.fabric ["a", "b"] [Sample.edge "e1" "a" "b" 10 5])
    [Sample.binding "p" "a", Sample.binding "q" "a"]) (draft_accepted _ (by decide +kernel))

theorem neighbours_shared : SharedNode neighboursRequest.request 0 (Sample.binding "p" "a") (Sample.binding "q" "a") := by
  rw [BuiltRequest.drafted]
  exact ⟨by decide +kernel, ⟨by decide +kernel, by decide +kernel⟩, ⟨by decide +kernel, by decide +kernel⟩, rfl,
    ⟨by decide +kernel, by decide +kernel⟩⟩

-- The enumeration of the paths from a node to itself is complete and empty, and is taken for a proof.
theorem neighbours_denied : (∃ denial ∈ (planCollective neighboursRequest.request {}).denials,
      denial.logicalEdge = ⟨UInt64.ofNat (0 + 1)⟩ ∧ denial.kind = .provenInfeasible) ∧
    ¬ ∀ (input : BuiltRequest) (limits : PlannerLimits) (position : Nat) (source target : EndpointBinding),
      SharedNode input.request position source target → input.request.policy.pathsPerLogicalEdge = 1 →
      input.request.collective.demandMbps = 0 → Handled input.request limits position source target := by
  have proven : ∃ denial ∈ (planCollective neighboursRequest.request {}).denials,
      denial.logicalEdge = ⟨UInt64.ofNat (0 + 1)⟩ ∧ denial.kind = .provenInfeasible := by
    rw [BuiltRequest.drafted]
    decide +kernel
  have idle : neighboursRequest.request.policy.pathsPerLogicalEdge = 1 ∧ neighboursRequest.request.collective.demandMbps = 0 := by
    rw [BuiltRequest.drafted]
    decide +kernel
  refine ⟨proven, fun every => ?_⟩
  obtain ⟨denial, listed, label, _⟩ := proven
  exact (every neighboursRequest {} 0 _ _ neighbours_shared idle.1 idle.2).kept denial listed label

-- One step is not enough for the enumeration, so the shortest path is kept.
theorem neighbours_handled : Handled neighboursRequest.request { maxEnumerationSteps := 1 } 0
    (Sample.binding "p" "a") (Sample.binding "q" "a") := by
  refine (shared_node_handled_iff neighboursRequest { maxEnumerationSteps := 1 } 0 _ _ neighbours_shared ?_).mpr
    (Or.inr ⟨Or.inl ?_, by decide, by decide⟩)
  all_goals
    rw [BuiltRequest.drafted]
    decide +kernel

end PlanCollective

end PathPlanner

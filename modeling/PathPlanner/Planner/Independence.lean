import PathPlanner.Planner.SideBySide

set_option autoImplicit false

namespace PathPlanner

open TwoRuns

namespace ShortestPath

-- A search that did not run out does the same with more expansions left.
theorem search_loop_more (state : PlannerState) (blocks : BlockSet) (sourceBinding targetBinding : EndpointBinding)
    (source target : NodeIndex) (extra count : Nat) (tables : SearchTables)
    (calm : (searchLoop state blocks sourceBinding targetBinding source target count tables).1.budgetExceeded = false) :
    searchLoop state blocks sourceBinding targetBinding source target (count + extra) tables =
      ((searchLoop state blocks sourceBinding targetBinding source target count tables).1,
        (searchLoop state blocks sourceBinding targetBinding source target count tables).2.1,
        (searchLoop state blocks sourceBinding targetBinding source target count tables).2.2 + extra) := by
  induction count generalizing tables with
  | zero =>
      unfold searchLoop at calm ⊢
      cases settled : settle tables.dist tables.frontier with
      | nil => simp
      | cons label rest =>
          by_cases arrived : label.node = target
          · simp [arrived]
          · simp [settled, arrived] at calm
  | succ count ih =>
      rw [Nat.add_right_comm]
      unfold searchLoop at calm ⊢
      cases settled : settle tables.dist tables.frontier with
      | nil => simp [Nat.add_right_comm]
      | cons label rest =>
          by_cases arrived : label.node = target
          · simp [arrived, Nat.add_right_comm]
          · by_cases deep : label.hops ≥ state.hopLimit
            · simp only [settled, if_neg arrived, if_pos deep] at calm ⊢
              exact ih _ calm
            · simp only [settled, if_neg arrived, if_neg deep] at calm ⊢
              exact ih _ calm

end ShortestPath

-- Neither budget has run out.
structure SearchScratch.Within (state : PlannerState) (scratch : SearchScratch) : Prop where
  expansions : scratch.budgetExceeded = false
  steps : scratch.enumerationSteps < state.enumerationBudget

-- The first state has spent no more than the second, and the same is blocked in both.
structure SearchScratch.Abreast (left right : SearchScratch) : Prop where
  blocks : left.blocks.Alike right.blocks
  bounded : left.blocks.Bounded ∧ right.blocks.Bounded
  expansions : left.expansions ≤ right.expansions
  steps : left.enumerationSteps ≤ right.enumerationSteps

def scratchView (state : PlannerState) : View SearchScratch := ⟨SearchScratch.Within state, SearchScratch.Abreast⟩

def runView (state : PlannerState) : View EnumerationRun where
  within run := run.scratch.Within state
  abreast left right := left.out = right.out ∧ left.scratch.Abreast right.scratch

variable (state : PlannerState) (task : EnumerationTask)

namespace Enumerate

theorem charge_abreast (left right : EnumerationRun) (abreast : (runView state).abreast left right) :
    (runView state).abreast left.charge right.charge := by
  obtain ⟨same, scratch⟩ := abreast
  refine ⟨?_, scratch.blocks, scratch.bounded, scratch.expansions, Nat.succ_le_succ scratch.steps⟩
  simp only [EnumerationRun.charge, same]

theorem found_abreast (path : List EdgeIndex) (left right : EnumerationRun) (abreast : (runView state).abreast left right) :
    (runView state).abreast (left.found path) (right.found path) := by
  obtain ⟨same, scratch⟩ := abreast
  exact ⟨by simp only [EnumerationRun.found, same], scratch⟩

-- What the loop does with one edge that its bounds let it try.
def tryEdge (blocks : BlockSet) (descend : NodeIndex → List EdgeIndex → Nat → EnumerationRun → EnumerationRun) (last : Bool)
    (node : NodeIndex) (visited : List NodeIndex) (current : List EdgeIndex) (cost : Nat) (index : EdgeIndex)
    (run : EnumerationRun) : EnumerationRun :=
  match extend state blocks task node visited cost index with
  | none => run.charge
  | some (next, nextCost) =>
      if next = task.target then if last then run.charge.found (current ++ [index]) else run.charge
      else if last then run.charge else descend next (current ++ [index]) nextCost run.charge

theorem enumerate_edges_steady (blocks : BlockSet) (descend : NodeIndex → List EdgeIndex → Nat → EnumerationRun → EnumerationRun)
    (last : Bool) (node : NodeIndex) (visited : List NodeIndex) (current : List EdgeIndex) (cost : Nat)
    (deeper : ∀ next path nextCost, Steady (runView state) (runView state) (descend next path nextCost) (descend next path nextCost))
    (outgoing : List EdgeIndex) :
    Steady (runView state) (runView state) (enumerateEdges state blocks task descend last node visited current cost outgoing)
      (enumerateEdges state blocks task descend last node visited current cost outgoing) := by
  induction outgoing with
  | nil => exact steady_id
  | cons index rest ih =>
      have step : Steady (runView state) (runView state)
          (tryEdge state task blocks descend last node visited current cost index)
          (tryEdge state task blocks descend last node visited current cost index) := by
        have charged : Steady (runView state) (runView state) EnumerationRun.charge EnumerationRun.charge :=
          ⟨fun run within => ⟨within.expansions, (Nat.lt_succ_self _).trans within.steps⟩,
            fun left right abreast _ => charge_abreast state left right abreast⟩
        have found : Steady (runView state) (runView state) (fun run => run.found (current ++ [index]))
            fun run => run.found (current ++ [index]) :=
          ⟨fun run within => within, fun left right abreast _ => found_abreast state _ left right abreast⟩
        unfold tryEdge
        cases extend state blocks task node visited cost index with
        | none => exact charged
        | some target =>
            dsimp only
            split_ifs
            · exact steady_comp _ _ _ _ charged found
            · exact charged
            · exact charged
            · exact steady_comp _ _ _ _ charged (deeper target.1 (current ++ [index]) target.2)
      have after := steady_comp _ _ _ _ step ih
      constructor
      · intro run within
        rw [enumerateEdges] at within
        by_cases halted : run.out.steps ≥ task.maxSteps ∨ run.out.paths.length > task.maxPaths
        · rw [if_pos halted] at within
          exact within
        · rw [if_neg halted] at within
          by_cases spent : run.scratch.enumerationSteps ≥ state.enumerationBudget
          · rw [if_pos spent] at within
            exact ⟨within.expansions, within.steps⟩
          · rw [if_neg spent] at within
            exact after.within run within
      · intro left right abreast within
        rw [enumerateEdges] at within ⊢
        rw [enumerateEdges]
        obtain ⟨same, scratch⟩ := abreast
        rw [same]
        by_cases halted : right.out.steps ≥ task.maxSteps ∨ right.out.paths.length > task.maxPaths
        · rw [if_pos halted, if_pos halted]
          exact ⟨same, scratch⟩
        · rw [if_neg halted] at within
          rw [if_neg halted, if_neg halted]
          by_cases spent : right.scratch.enumerationSteps ≥ state.enumerationBudget
          · rw [if_pos spent] at within
            exact absurd within.steps (not_lt.mpr spent)
          · have early : ¬ left.scratch.enumerationSteps ≥ state.enumerationBudget :=
              fun over' => spent (over'.trans scratch.steps)
            rw [if_neg spent] at within
            rw [if_neg spent, if_neg early]
            exact after.abreast left right ⟨same, scratch⟩ within

theorem enumerate_depth_steady (blocks : BlockSet) (remaining : Nat) (node : NodeIndex) (visited : List NodeIndex)
    (current : List EdgeIndex) (cost : Nat) :
    Steady (runView state) (runView state) (enumerateDepth state blocks task remaining node visited current cost)
      (enumerateDepth state blocks task remaining node visited current cost) := by
  induction remaining generalizing node visited current cost with
  | zero => exact steady_id
  | succ remaining ih =>
      exact enumerate_edges_steady state task blocks _ _ node visited current cost
        (fun next path nextCost => ih next (next :: visited) path nextCost) _

theorem deepen_steady (blocks : BlockSet) (left limit : Nat) :
    Steady (runView state) (runView state) (deepen state blocks task left limit) (deepen state blocks task left limit) := by
  induction left generalizing limit with
  | zero => exact ⟨fun _ within => within, fun _ _ abreast _ => ⟨by simp only [deepen, abreast.1], abreast.2⟩⟩
  | succ left ih =>
      have swept := enumerate_depth_steady state task blocks limit task.source [task.source] [] 0
      have after := steady_comp _ _ _ _ swept (ih (limit + 1))
      constructor
      · intro run within
        rw [deepen] at within
        dsimp only at within
        split_ifs at within
        · exact swept.within run within
        · exact after.within run within
      · intro first second abreast within
        rw [deepen] at within ⊢
        rw [deepen]
        dsimp only at within ⊢
        by_cases halted : stopped state task (enumerateDepth state blocks task limit task.source [task.source] [] 0 second)
        · rw [if_pos halted] at within ⊢
          obtain ⟨same, scratch⟩ := swept.abreast first second abreast within
          have behind : stopped state task (enumerateDepth state blocks task limit task.source [task.source] [] 0 first) := by
            unfold stopped at halted ⊢
            rw [same]
            exact halted.imp id (Or.imp id fun spent => absurd within.steps (not_lt.mpr spent))
          have unspent := not_le.mpr within.steps
          have fewer := not_le.mpr (lt_of_le_of_lt scratch.steps within.steps)
          rw [if_pos behind]
          refine ⟨?_, scratch⟩
          dsimp only at unspent fewer ⊢
          rw [same]
          simp only [ge_iff_le, unspent, fewer]
        · rw [if_neg halted] at within ⊢
          obtain ⟨same, scratch⟩ := swept.abreast first second abreast ((ih (limit + 1)).within _ within)
          have running : ¬ stopped state task (enumerateDepth state blocks task limit task.source [task.source] [] 0 first) := by
            unfold stopped at halted ⊢
            rw [same]
            have later := scratch.steps
            omega
          rw [if_neg running]
          exact after.abreast first second abreast within

end Enumerate

theorem shortest_path_steady (source target : NodeIndex) (sourceBinding targetBinding : EndpointBinding) :
    Steady (scratchView state) ((scratchView state).pair SearchOutcome)
      (fun scratch => shortestPath state scratch source target sourceBinding targetBinding)
      fun scratch => shortestPath state scratch source target sourceBinding targetBinding := by
  constructor
  · intro scratch within
    unfold shortestPath at within
    split_ifs at within
    · exact within
    · exact within
    · exact ⟨(Bool.or_eq_false_iff.mp within.expansions).1, within.steps⟩
  · intro left right abreast within
    unfold shortestPath at within ⊢
    by_cases here : source = target
    · simp only [if_pos here]
      exact ⟨rfl, abreast⟩
    · by_cases closed : state.nodeAllowed source = false ∨ state.nodeAllowed target = false
      · simp only [if_neg here, if_pos closed]
        exact ⟨rfl, abreast⟩
      · simp only [if_neg here, if_neg closed] at within ⊢
        obtain ⟨extra, room⟩ := Nat.exists_eq_add_of_le (Nat.sub_le_sub_left abreast.expansions state.maxExpansions)
        have calm := (Bool.or_eq_false_iff.mp within.expansions).2
        have fewer := abreast.expansions
        rw [ShortestPath.start_tables_fresh right.tables] at calm ⊢
        rw [search_loop_alike state abreast.blocks, ShortestPath.start_tables_fresh left.tables, room,
          ShortestPath.search_loop_more state right.blocks sourceBinding targetBinding source target extra _ _ calm]
        generalize ShortestPath.searchLoop state right.blocks sourceBinding targetBinding source target
          (state.maxExpansions - right.expansions) (ShortestPath.startTables {} source) = result
        obtain ⟨outcome, tables, unused⟩ := result
        refine ⟨rfl, abreast.blocks, abreast.bounded, ?_, abreast.steps⟩
        change left.expansions + (state.maxExpansions - right.expansions + extra - (unused + extra)) ≤
          right.expansions + (state.maxExpansions - right.expansions - unused)
        omega

theorem enumerated_steady : Steady (scratchView state) ((scratchView state).pair Enumeration)
    (fun scratch => ((Analyse.enumerated state task scratch).out, (Analyse.enumerated state task scratch).scratch))
    fun scratch => ((Analyse.enumerated state task scratch).out, (Analyse.enumerated state task scratch).scratch) := by
  have swept := fun blocks => Enumerate.deepen_steady state task blocks (min state.hopLimit state.fabric.nodes.length) 1
  constructor
  · intro scratch within
    have before := (swept scratch.blocks.reset).within ⟨{ scratch with blocks := scratch.blocks.reset }, {}⟩ within
    exact ⟨before.expansions, before.steps⟩
  · intro left right abreast within
    have alike := BlockSet.clear_alike _ _ (BlockSet.reset_clear _ abreast.bounded.1) (BlockSet.reset_clear _ abreast.bounded.2)
    have started : (runView state).abreast ⟨{ left with blocks := left.blocks.reset }, {}⟩
        ⟨{ right with blocks := right.blocks.reset }, {}⟩ :=
      ⟨rfl, alike, ⟨BlockSet.reset_bounded _ abreast.bounded.1, BlockSet.reset_bounded _ abreast.bounded.2⟩, abreast.expansions,
        abreast.steps⟩
    obtain ⟨same, scratch⟩ := (swept right.blocks.reset).abreast _ _ started within
    unfold Analyse.enumerated enumeratePaths
    dsimp only
    rw [deepen_alike state alike, same]
    exact ⟨rfl, scratch⟩

theorem scratch_primitives : Primitives (scratchView state) state state.maxExpansions where
  blocks _ _ abreast := abreast.blocks
  change _ bounded alike := ⟨fun _ within => ⟨within.expansions, within.steps⟩, fun _ _ abreast _ =>
    ⟨alike _ _ abreast.bounded.1 abreast.bounded.2 abreast.blocks,
      ⟨bounded _ abreast.bounded.1, bounded _ abreast.bounded.2⟩, abreast.expansions, abreast.steps⟩⟩
  enumeration := enumerated_steady state
  search := shortest_path_steady state

namespace PlanCollective

-- The scratch state after the given logical edges were analysed in turn.
def analysedInTurn (limits : PlannerLimits) (positions : List Nat) (scratch : SearchScratch) : SearchScratch :=
  positions.foldl (fun scratch position => (analyseLogicalEdge state limits scratch position).2) scratch

theorem analysed_ready (sound : PlannerState.Sound state) (limits : PlannerLimits) (positions : List Nat) (scratch : SearchScratch)
    (ready : scratch.Ready) : (analysedInTurn state limits positions scratch).Ready := by
  induction positions generalizing scratch with
  | nil => exact ready
  | cons position rest ih => exact ih _ (analyse_logical_edge_verdict state sound limits scratch ready position).2

theorem fresh_abreast (scratch : SearchScratch) (ready : scratch.Ready) : SearchScratch.Abreast {} scratch :=
  ⟨BlockSet.clear_alike _ _ BlockSet.initial_clear ready.clear, ⟨BlockSet.initial_bounded, ready.bounded⟩,
    Nat.zero_le _, Nat.zero_le _⟩

structure SameAnalysis (first second : EdgePlan) : Prop where
  alternatives : first.alternatives = second.alternatives
  failed : first.failed = second.failed
  kind : first.kind = second.kind
  code : first.code = second.code

-- What was analysed before a logical edge has no influence while the budgets last.
theorem analysis_independent (input : BuiltRequest) (limits : PlannerLimits) (earlier : List Nat) (position : Nat)
    (within : (analyseLogicalEdge (initialState input.request limits) limits
      (analysedInTurn (initialState input.request limits) limits earlier {}) position).2.Within (initialState input.request limits)) :
    SameAnalysis (analyseLogicalEdge (initialState input.request limits) limits
        (analysedInTurn (initialState input.request limits) limits earlier {}) position).1
      (analyseLogicalEdge (initialState input.request limits) limits {} position).1 := by
  have ready := analysed_ready (initialState input.request limits) (initial_sound input.sound) limits earlier {} initial_ready
  obtain ⟨same, _⟩ := (analyse_logical_edge_steady (scratch_primitives (initialState input.request limits)) limits position).abreast
    {} _ (fresh_abreast _ ready) within
  exact ⟨(congrArg EdgePlan.alternatives same).symm, (congrArg EdgePlan.failed same).symm, (congrArg EdgePlan.kind same).symm,
    (congrArg EdgePlan.code same).symm⟩

-- Enumerations cut short, so that both logical edges are searched around blocked resources.
def triangleRequest : BuiltRequest :=
  .of (Sample.request .tree (Sample.star ["p", "q", "r"]) 1
    (Sample.fabric ["a", "b", "c"] [Sample.edge "e1" "a" "b" 10 5, Sample.edge "e2" "a" "c" 10 20, Sample.edge "e3" "b" "c" 10 5])
    [Sample.binding "p" "a", Sample.binding "q" "b", Sample.binding "r" "c"]) (draft_accepted _ (by decide +kernel))

def triangleLimits : PlannerLimits := { maxEnumerationSteps := 1 }

theorem triangle_independent :
    SameAnalysis (analyseLogicalEdge (initialState triangleRequest.request triangleLimits) triangleLimits
        (analysedInTurn (initialState triangleRequest.request triangleLimits) triangleLimits [0] {}) 1).1
      (analyseLogicalEdge (initialState triangleRequest.request triangleLimits) triangleLimits {} 1).1 := by
  refine analysis_independent triangleRequest triangleLimits [0] 1 ?_
  rw [BuiltRequest.drafted]
  exact ⟨by decide +kernel, by decide +kernel⟩

end PlanCollective

end PathPlanner

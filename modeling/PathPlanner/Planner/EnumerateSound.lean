import PathPlanner.Planner.SearchSound
import PathPlanner.Lib.Budget

set_option autoImplicit false

namespace PathPlanner

open Sequence Mapping Walk Budget

namespace Enumerate

variable (state : PlannerState) (blocks : BlockSet) (task : EnumerationTask)

-- What one edge contributes to a sweep, and the sweep without its budgets.
def edgePaths (descend : NodeIndex → List EdgeIndex → Nat → List (List EdgeIndex)) (last : Bool) (node : NodeIndex)
    (visited : List NodeIndex) (current : List EdgeIndex) (cost : Nat) (index : EdgeIndex) : List (List EdgeIndex) :=
  match extend state blocks task node visited cost index with
  | none => []
  | some (next, nextCost) =>
      if next = task.target then if last then [current ++ [index]] else []
      else if last then [] else descend next (current ++ [index]) nextCost

def depthPaths : Nat → NodeIndex → List NodeIndex → List EdgeIndex → Nat → List (List EdgeIndex)
  | 0, _, _, _, _ => []
  | remaining + 1, node, visited, current, cost =>
      (state.fabric.outEdges node).flatMap (edgePaths state blocks task
        (fun next deeper nextCost => depthPaths remaining next (next :: visited) deeper nextCost)
        (decide (remaining = 0)) node visited current cost)

-- The sweeps at consecutive depths, the first at the given limit.
def sweepPaths : Nat → Nat → List (List EdgeIndex)
  | 0, _ => []
  | left + 1, limit => depthPaths state blocks task limit task.source [task.source] [] 0 ++ sweepPaths left (limit + 1)

abbrev Swept (full : List (List EdgeIndex)) (before after : EnumerationRun) : Prop :=
  Covers (stopped state task) (fun run => run.out.paths) (fun paths path => paths ++ [path]) full before after

theorem charge_swept (run : EnumerationRun) : Swept state task [] run run.charge := by
  refine covers_nothing run run.charge rfl ?_
  rintro (steps | paths | budget)
  · exact Or.inl (Nat.le_succ_of_le steps)
  · exact Or.inr (Or.inl paths)
  · exact Or.inr (Or.inr (Nat.le_succ_of_le budget))

theorem found_swept (run : EnumerationRun) (path : List EdgeIndex) : Swept state task [path] run (run.charge.found path) := by
  refine covers_one run (run.charge.found path) path rfl ?_
  rintro (steps | paths | budget)
  · exact Or.inl (Nat.le_succ_of_le steps)
  · refine Or.inr (Or.inl ?_)
    simpa [EnumerationRun.found, EnumerationRun.charge] using Nat.lt_succ_of_lt paths
  · exact Or.inr (Or.inr (Nat.le_succ_of_le budget))

theorem enumerate_edges_swept (descend : NodeIndex → List EdgeIndex → Nat → EnumerationRun → EnumerationRun)
    (full : NodeIndex → List EdgeIndex → Nat → List (List EdgeIndex)) (last : Bool) (node : NodeIndex)
    (visited : List NodeIndex) (current : List EdgeIndex) (cost : Nat)
    (deeper : ∀ next path nextCost run, Swept state task (full next path nextCost) run (descend next path nextCost run))
    (outgoing : List EdgeIndex) (run : EnumerationRun) :
    Swept state task (outgoing.flatMap (edgePaths state blocks task full last node visited current cost)) run
      (enumerateEdges state blocks task descend last node visited current cost outgoing run) := by
  induction outgoing generalizing run with
  | nil => exact covers_nothing run run rfl id
  | cons index rest ih =>
      rw [enumerateEdges, List.flatMap_cons]
      by_cases halted : run.out.steps ≥ task.maxSteps ∨ run.out.paths.length > task.maxPaths
      · rw [if_pos halted]
        exact covers_stopped _ run run rfl (halted.imp id Or.inl)
      · rw [if_neg halted]
        by_cases spent : run.scratch.enumerationSteps ≥ state.enumerationBudget
        · rw [if_pos spent]
          exact covers_stopped _ run run.exhaust rfl (Or.inr (Or.inr spent))
        · rw [if_neg spent]
          refine covers_trans _ _ run _ _ ?_ (ih _)
          unfold edgePaths
          cases extend state blocks task node visited cost index with
          | none => exact charge_swept state task run
          | some target =>
              obtain ⟨next, nextCost⟩ := target
              dsimp only
              split_ifs
              · exact found_swept state task run _
              · exact charge_swept state task run
              · exact charge_swept state task run
              · simpa using covers_trans [] _ run run.charge _ (charge_swept state task run)
                  (deeper next (current ++ [index]) nextCost run.charge)

theorem enumerate_depth_swept (remaining : Nat) (node : NodeIndex) (visited : List NodeIndex) (current : List EdgeIndex)
    (cost : Nat) (run : EnumerationRun) :
    Swept state task (depthPaths state blocks task remaining node visited current cost) run
      (enumerateDepth state blocks task remaining node visited current cost run) := by
  induction remaining generalizing node visited current cost run with
  | zero => exact covers_nothing run run rfl id
  | succ remaining ih =>
      exact enumerate_edges_swept state blocks task _ _ _ node visited current cost
        (fun next path nextCost run => ih next (next :: visited) path nextCost run) _ run

-- A sweep touches neither the blocks nor the verdict.
def Framed (before after : EnumerationRun) : Prop :=
  after.scratch.blocks = before.scratch.blocks ∧ after.out.exhaustive = before.out.exhaustive

theorem enumerate_edges_framed (descend : NodeIndex → List EdgeIndex → Nat → EnumerationRun → EnumerationRun)
    (last : Bool) (node : NodeIndex) (visited : List NodeIndex) (current : List EdgeIndex) (cost : Nat)
    (deeper : ∀ next path nextCost run, Framed run (descend next path nextCost run)) (outgoing : List EdgeIndex)
    (run : EnumerationRun) :
    Framed run (enumerateEdges state blocks task descend last node visited current cost outgoing run) := by
  induction outgoing generalizing run with
  | nil => exact ⟨rfl, rfl⟩
  | cons index rest ih =>
      rw [enumerateEdges]
      by_cases halted : run.out.steps ≥ task.maxSteps ∨ run.out.paths.length > task.maxPaths
      · rw [if_pos halted]
        exact ⟨rfl, rfl⟩
      · rw [if_neg halted]
        by_cases spent : run.scratch.enumerationSteps ≥ state.enumerationBudget
        · rw [if_pos spent]
          exact ⟨rfl, rfl⟩
        · rw [if_neg spent]
          cases extend state blocks task node visited cost index with
          | none => exact ih run.charge
          | some target =>
              obtain ⟨next, nextCost⟩ := target
              dsimp only
              split_ifs
              · exact ih (run.charge.found (current ++ [index]))
              · exact ih run.charge
              · exact ih run.charge
              · have inner := deeper next (current ++ [index]) nextCost run.charge
                have later := ih (descend next (current ++ [index]) nextCost run.charge)
                exact ⟨later.1.trans inner.1, later.2.trans inner.2⟩

theorem enumerate_depth_framed (remaining : Nat) (node : NodeIndex) (visited : List NodeIndex) (current : List EdgeIndex)
    (cost : Nat) (run : EnumerationRun) :
    Framed run (enumerateDepth state blocks task remaining node visited current cost run) := by
  induction remaining generalizing node visited current cost run with
  | zero => exact ⟨rfl, rfl⟩
  | succ remaining ih =>
      exact enumerate_edges_framed state blocks task _ _ node visited current cost
        (fun next path nextCost run => ih next (next :: visited) path nextCost run) _ run

theorem snoc_fold (paths taken : List (List EdgeIndex)) :
    taken.foldl (fun paths path => paths ++ [path]) paths = paths ++ taken := by
  induction taken generalizing paths with
  | nil => simp
  | cons head tail ih => simp [ih]

-- Exhaustive means that every sweep ran to its end.
theorem deepen_swept (left limit : Nat) (run : EnumerationRun) (unproven : run.out.exhaustive = false) :
    (deepen state blocks task left limit run).scratch.blocks = run.scratch.blocks ∧
      ∃ taken, taken.Sublist (sweepPaths state blocks task left limit) ∧
        (deepen state blocks task left limit run).out.paths = run.out.paths ++ taken ∧
        ((deepen state blocks task left limit run).out.exhaustive = true →
          taken = sweepPaths state blocks task left limit) := by
  induction left generalizing limit run with
  | zero => exact ⟨rfl, [], by simp, by simp [deepen], fun _ => rfl⟩
  | succ left ih =>
      rw [deepen]
      obtain ⟨⟨first, part, view, all⟩, _⟩ := enumerate_depth_swept state blocks task limit task.source [task.source] [] 0 run
      obtain ⟨sameBlocks, sameVerdict⟩ := enumerate_depth_framed state blocks task limit task.source [task.source] [] 0 run
      generalize enumerateDepth state blocks task limit task.source [task.source] [] 0 run = swept at *
      rw [snoc_fold] at view
      dsimp only
      by_cases halted : stopped state task swept
      · rw [if_pos halted]
        refine ⟨sameBlocks, first, ?_, view, fun exhaustive => ?_⟩
        · exact part.trans (List.sublist_append_left _ _)
        · rw [sameVerdict, unproven] at exhaustive
          simp at exhaustive
      · rw [if_neg halted]
        obtain ⟨blocksKept, taken, restPart, restView, restAll⟩ := ih (limit + 1) swept (sameVerdict.trans unproven)
        refine ⟨blocksKept.trans sameBlocks, first ++ taken, part.append restPart, ?_, fun exhaustive => ?_⟩
        · rw [restView, view, List.append_assoc]
        · rw [all halted, restAll exhaustive, sweepPaths]

end Enumerate

theorem saturating_fold (start : Nat) (values : List Nat) :
    values.foldl (fun total value => saturatingAdd total value kCostCeiling) start =
      values.foldl (Clamped.clampAdd kCostCeiling) start := by
  congr 1
  funext total value
  exact saturating_add_clamps total value kCostCeiling

theorem saturating_add_le (a b : Nat) : saturatingAdd a b kCostCeiling ≤ kCostCeiling := by
  rw [saturating_add_clamps]
  exact Clamped.clamp_add_le _ _ _

namespace Enumerate

section Paths

variable {state : PlannerState} {task : EnumerationTask}

-- The rest of a simple path from a node, given the nodes already met and the cost so far.
structure Trail (state : PlannerState) (task : EnumerationTask) (a : NodeId) (ids : List NodeId) (cost : Nat) (rest : Route) :
    Prop where
  walk : IsWalk (tailOf state.request) (headOf state.request) a rest task.targetBinding.node
  permitted : ∀ index ∈ rest, HopPermitted state.request task.sourceBinding task.targetBinding index
  fresh : ∀ index ∈ rest, headOf state.request index ∉ ids
  distinct : (rest.map (headOf state.request)).Nodup
  cheap : (rest.map state.edgeCost).foldl (fun total value => saturatingAdd total value kCostCeiling) cost ≤
    state.policy.maxPathCost

theorem extend_some (stateSound : PlannerState.Sound state) (taskSound : EnumerationTask.Sound state task)
    (blocks : BlockSet) (clear : blocks.Clear) (a : NodeId) (ids : List NodeId) (node : NodeIndex) (visited : List NodeIndex)
    (cost : Nat) (index : EdgeIndex) (next : NodeIndex) (nextCost : Nat) (same : PlannerState.Sound.Matches state.fabric visited ids)
    (here : a ∈ ids) (found : state.fabric.nodeIndex a = some node) (outgoing : index ∈ state.fabric.outEdges node) :
    extend state blocks task node visited cost index = some (next, nextCost) ↔
      state.fabric.nodeIndex (headOf state.request index) = some next ∧
      HopPermitted state.request task.sourceBinding task.targetBinding index ∧ headOf state.request index ∉ ids ∧
      saturatingAdd cost (state.edgeCost index) kCostCeiling = nextCost ∧ nextCost ≤ state.policy.maxPathCost := by
  obtain ⟨stored, _⟩ := (stateSound.request.fabric.mem_out_edges node index).mp outgoing
  obtain ⟨target, known⟩ := stateSound.head_index index stored
  have reached : state.fabric.nodeIndex (state.edge index).target = some target := known
  unfold extend
  rw [reached]
  dsimp only
  have visitedIff := same _ target known
  constructor
  · intro extended
    split_ifs at extended with loop unusable seen costly
    rw [Option.some.injEq, Prod.mk.injEq] at extended
    obtain ⟨rfl, rfl⟩ := extended
    exact ⟨known, stateSound.hop_permitted blocks _ _ taskSound.sourceBinding taskSound.targetBinding index stored target
      reached (by simpa using unusable), fun member => seen (visitedIff.mpr member), rfl, not_lt.mp costly⟩
  · rintro ⟨arrives, permitted, fresh, rfl, cheap⟩
    have targetIs : target = next := Option.some.inj (known.symm.trans arrives)
    subst targetIs
    have usable := stateSound.hop_usable blocks clear _ _ taskSound.sourceBinding taskSound.targetBinding index target
      reached permitted
    have unseen : target ∉ visited := fun member => fresh (visitedIff.mp member)
    have noLoop : target ≠ node := by
      rintro rfl
      exact unseen ((same a target found).mpr here)
    rw [if_neg noLoop, if_neg (by simp [usable]), if_neg unseen, if_neg (not_lt.mpr cheap)]

theorem depth_paths_mem (stateSound : PlannerState.Sound state) (taskSound : EnumerationTask.Sound state task)
    (blocks : BlockSet) (clear : blocks.Clear) (remaining : Nat) (a : NodeId) (ids : List NodeId) (node : NodeIndex)
    (visited : List NodeIndex) (current : List EdgeIndex) (cost : Nat) (route : Route)
    (same : PlannerState.Sound.Matches state.fabric visited ids) (here : a ∈ ids)
    (found : state.fabric.nodeIndex a = some node) :
    route ∈ depthPaths state blocks task remaining node visited current cost ↔
      remaining ≠ 0 ∧ ∃ rest, route = current ++ rest ∧ rest.length = remaining ∧ Trail state task a ids cost rest := by
  induction remaining generalizing a ids node visited current cost with
  | zero => simp [depthPaths]
  | succ remaining ih =>
      have fabricSound := stateSound.request.fabric
      rw [depthPaths, List.mem_flatMap]
      constructor
      · rintro ⟨index, outgoing, inside⟩
        obtain ⟨stored, leaves⟩ := (fabricSound.mem_out_edges node index).mp outgoing
        have tail : tailOf state.request index = a := fabricSound.node_index_injective _ a node leaves found
        refine ⟨Nat.succ_ne_zero _, ?_⟩
        unfold edgePaths at inside
        cases extended : extend state blocks task node visited cost index with
        | none => simp [extended] at inside
        | some target =>
            obtain ⟨next, nextCost⟩ := target
            obtain ⟨arrives, permitted, fresh, costIs, cheap⟩ := (extend_some stateSound taskSound blocks clear a ids node
              visited cost index next nextCost same here found outgoing).mp extended
            rw [extended] at inside
            dsimp only at inside
            split_ifs at inside with atTarget last last
            · have goal : headOf state.request index = task.targetBinding.node :=
                fabricSound.node_index_injective _ _ next arrives (atTarget ▸ taskSound.target)
              refine ⟨[index], by simpa using inside, by simpa using last.symm, ⟨tail, goal⟩, by simpa using permitted,
                by simpa using fresh, by simp, ?_⟩
              simpa [costIs] using cheap
            · simp at inside
            · simp at inside
            · obtain ⟨_, rest, eq, length, trail⟩ := (ih (headOf state.request index) (headOf state.request index :: ids) next
                (next :: visited) (current ++ [index]) nextCost (stateSound.matches_cons visited ids _ next arrives same)
                (by simp) arrives).mp inside
              refine ⟨index :: rest, by simp [eq], by simp [length], ⟨tail, trail.walk⟩, ?_, ?_, ?_, ?_⟩
              · intro other member
                rcases List.mem_cons.mp member with rfl | later
                · exact permitted
                · exact trail.permitted other later
              · intro other member
                rcases List.mem_cons.mp member with rfl | later
                · exact fresh
                · exact fun listed => trail.fresh other later (List.mem_cons_of_mem _ listed)
              · rw [List.map_cons, List.nodup_cons]
                refine ⟨fun listed => ?_, trail.distinct⟩
                obtain ⟨other, later, eqHead⟩ := List.mem_map.mp listed
                exact trail.fresh other later (by simp [eqHead])
              · simpa [costIs] using trail.cheap
      · rintro ⟨_, rest, eq, length, trail⟩
        cases rest with
        | nil => simp at length
        | cons index rest =>
            have permitted := trail.permitted index (by simp)
            obtain ⟨next, arrives⟩ := stateSound.head_index index permitted.stored
            have leaves : state.fabric.nodeIndex (tailOf state.request index) = some node := trail.walk.1 ▸ found
            have outgoing : index ∈ state.fabric.outEdges node :=
              (fabricSound.mem_out_edges node index).mpr ⟨permitted.stored, leaves⟩
            have cheap : saturatingAdd cost (state.edgeCost index) kCostCeiling ≤ state.policy.maxPathCost := by
              have total := trail.cheap
              rw [List.map_cons, List.foldl_cons, saturating_fold] at total
              exact (Clamped.clamp_fold_start _ _ _ (saturating_add_le _ _)).trans total
            have extended := (extend_some stateSound taskSound blocks clear a ids node visited cost index next
              (saturatingAdd cost (state.edgeCost index) kCostCeiling) same here found outgoing).mpr
                ⟨arrives, permitted, trail.fresh index (by simp), rfl, cheap⟩
            refine ⟨index, outgoing, ?_⟩
            unfold edgePaths
            rw [extended]
            dsimp only
            have distinct := trail.distinct
            rw [List.map_cons, List.nodup_cons] at distinct
            by_cases last : remaining = 0
            · subst last
              have nothing : rest = [] := List.length_eq_zero_iff.mp (by simpa using length)
              subst nothing
              have goal : headOf state.request index = task.targetBinding.node := trail.walk.2
              have atTarget : next = task.target := Option.some.inj ((goal ▸ arrives).symm.trans taskSound.target)
              simp [if_pos atTarget, eq]
            · have size : rest.length = remaining := by simpa using length
              have nonempty : rest ≠ [] := by
                rintro rfl
                exact last (by simpa using size.symm)
              -- The destination is the last head, so no earlier hop can lead to it.
              have notTarget : next ≠ task.target := by
                intro atTarget
                have goal : headOf state.request index = task.targetBinding.node :=
                  fabricSound.node_index_injective _ _ next arrives (atTarget ▸ taskSound.target)
                have ending := finish_last (tailOf state.request) (headOf state.request) _ _ rest nonempty trail.walk.2
                exact distinct.1 (List.mem_map.mpr ⟨rest.getLast nonempty, List.getLast_mem nonempty, ending.trans goal.symm⟩)
              rw [if_neg notTarget, if_neg (by simpa using last)]
              refine (ih (headOf state.request index) (headOf state.request index :: ids) next (next :: visited)
                (current ++ [index]) _ (stateSound.matches_cons visited ids _ next arrives same) (by simp) arrives).mpr
                  ⟨last, rest, by simp [eq], size, trail.walk.2, fun other member => trail.permitted other
                    (List.mem_cons_of_mem _ member), ?_, distinct.2, by simpa using trail.cheap⟩
              intro other member listed
              rcases List.mem_cons.mp listed with eqHead | old
              · exact distinct.1 (List.mem_map.mpr ⟨other, member, eqHead⟩)
              · exact trail.fresh other (List.mem_cons_of_mem _ member) old

theorem sweep_paths_depth (blocks : BlockSet) (left limit : Nat) (route : Route) :
    route ∈ sweepPaths state blocks task left limit ↔ ∃ depth, limit ≤ depth ∧ depth < limit + left ∧
      route ∈ depthPaths state blocks task depth task.source [task.source] [] 0 := by
  induction left generalizing limit with
  | zero =>
      simp only [sweepPaths, List.not_mem_nil, add_zero, false_iff, not_exists, not_and]
      intro depth above below
      omega
  | succ left ih =>
      rw [sweepPaths, List.mem_append, ih]
      constructor
      · rintro (now | ⟨depth, above, below, member⟩)
        · exact ⟨limit, le_refl _, by omega, now⟩
        · exact ⟨depth, by omega, by omega, member⟩
      · rintro ⟨depth, above, below, member⟩
        by_cases now : depth = limit
        · exact Or.inl (now ▸ member)
        · exact Or.inr ⟨depth, by omega, by omega, member⟩

-- The complete enumeration is the set of compliant routes that leave their source.
theorem sweep_paths_mem (stateSound : PlannerState.Sound state) (taskSound : EnumerationTask.Sound state task)
    (blocks : BlockSet) (clear : blocks.Clear) (route : Route) :
    route ∈ sweepPaths state blocks task (min state.hopLimit state.fabric.nodes.length) 1 ↔
      route ≠ [] ∧ CompliantRoute state.request task.sourceBinding task.targetBinding route := by
  have trails : ∀ depth, route ∈ depthPaths state blocks task depth task.source [task.source] [] 0 ↔
      depth ≠ 0 ∧ route.length = depth ∧
        Trail state task task.sourceBinding.node [task.sourceBinding.node] 0 route := by
    intro depth
    rw [depth_paths_mem stateSound taskSound blocks clear depth task.sourceBinding.node [task.sourceBinding.node] task.source
      [task.source] [] 0 route (stateSound.matches_one _ _ taskSound.source) (by simp) taskSound.source]
    simp
  have simple : (visited (headOf state.request) task.sourceBinding.node route).Nodup ↔
      (∀ index ∈ route, headOf state.request index ∉ [task.sourceBinding.node]) ∧
        (route.map (headOf state.request)).Nodup := by
    simp [visited, List.nodup_cons]
  rw [sweep_paths_depth, compliant_iff, simple]
  constructor
  · rintro ⟨depth, _, below, member⟩
    obtain ⟨positive, length, trail⟩ := (trails depth).mp member
    refine ⟨?_, trail.walk, ⟨trail.fresh, trail.distinct⟩, ?_, taskSound.sourceUsable, trail.permitted, trail.cheap⟩
    · rintro rfl
      exact positive (by simpa using length.symm)
    · have : depth ≤ state.hopLimit := by omega
      rw [length]
      exact this
  · rintro ⟨nonempty, walk, ⟨fresh, distinct⟩, hops, start, permitted, cost⟩
    have positive : route.length ≠ 0 := fun none => nonempty (List.length_eq_zero_iff.mp none)
    have short : route.length + 1 ≤ state.fabric.nodes.length := by
      have inside : ∀ node ∈ visited (headOf state.request) task.sourceBinding.node route,
          node ∈ state.fabric.nodes.map Node.id := by
        intro node member
        simp only [visited, List.mem_cons, List.mem_map] at member
        have usable : NodeUsable state.request node := by
          rcases member with rfl | ⟨index, inRoute, rfl⟩
          · exact start
          · exact (permitted index inRoute).node
        obtain ⟨record, listed, named, _⟩ := usable.known
        exact List.mem_map.mpr ⟨record, listed, named⟩
      simpa using simple_length (headOf state.request) task.sourceBinding.node route _ (simple.mpr ⟨fresh, distinct⟩) inside
    have within : route.length ≤ state.hopLimit := hops
    exact ⟨route.length, by omega, by omega, (trails route.length).mpr ⟨positive, rfl, walk, permitted, fresh, distinct, cost⟩⟩

end Paths

end Enumerate

end PathPlanner

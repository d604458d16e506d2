import PathPlanner.Planner.LabelSearch
import PathPlanner.Planner.Enumerate

set_option autoImplicit false

namespace PathPlanner

open Sequence Mapping Walk

namespace Mapping

-- What a search guarantees of a route before its simplicity is checked.
structure PermittedWalk (request : PlanningRequest) (source target : EndpointBinding) (route : Route) : Prop where
  walk : IsWalk (tailOf request) (headOf request) source.node route target.node
  permitted : ∀ index ∈ route, HopPermitted request source target index
  cost : routeCost request route ≤ request.policy.maxPathCost

end Mapping

-- The endpoints of a task are the nodes its two bindings name, and both may be used.
structure EnumerationTask.Sound (state : PlannerState) (task : EnumerationTask) : Prop where
  sourceBinding : EndpointBinding.Sound state.fabric task.sourceBinding
  targetBinding : EndpointBinding.Sound state.fabric task.targetBinding
  source : state.fabric.nodeIndex task.sourceBinding.node = some task.source
  target : state.fabric.nodeIndex task.targetBinding.node = some task.target
  sourceUsable : NodeUsable state.request task.sourceBinding.node

namespace ShortestPath

variable {state : PlannerState} {task : EnumerationTask}

def queryOf (task : EnumerationTask) (blocks : BlockSet) : Query :=
  ⟨blocks, task.sourceBinding, task.targetBinding, task.source, task.target⟩

theorem task_search_exact (stateSound : PlannerState.Sound state) (taskSound : EnumerationTask.Sound state task)
    (scratch : SearchScratch) : Exact state (queryOf task scratch.blocks) task.sourceBinding.node task.targetBinding.node
      (shortestPath state scratch task.source task.target task.sourceBinding task.targetBinding).1 :=
  shortest_path_exact state stateSound.request.fabric (queryOf task scratch.blocks) scratch rfl _ _ taskSound.source taskSound.target
    ((stateSound.node_allowed_iff _ _ taskSound.source).mpr taskSound.sourceUsable)

theorem usable_permitted (stateSound : PlannerState.Sound state) (taskSound : EnumerationTask.Sound state task)
    (blocks : BlockSet) (index : EdgeIndex) (usable : Usable state (queryOf task blocks) index) :
    HopPermitted state.request task.sourceBinding task.targetBinding index := by
  obtain ⟨next, arrives, passes⟩ := usable.passes
  exact stateSound.hop_permitted blocks _ _ taskSound.sourceBinding taskSound.targetBinding index usable.stored next arrives passes

theorem permitted_usable (stateSound : PlannerState.Sound state) (taskSound : EnumerationTask.Sound state task)
    (blocks : BlockSet) (clear : blocks.Clear) (index : EdgeIndex)
    (permitted : HopPermitted state.request task.sourceBinding task.targetBinding index) :
    Usable state (queryOf task blocks) index := by
  obtain ⟨next, arrives⟩ := stateSound.head_index index permitted.stored
  exact ⟨permitted.stored, next, arrives, stateSound.hop_usable blocks clear _ _ taskSound.sourceBinding taskSound.targetBinding
    index next arrives permitted⟩

end ShortestPath

theorem shortest_path_sound (state : PlannerState) (stateSound : PlannerState.Sound state) (task : EnumerationTask)
    (taskSound : EnumerationTask.Sound state task) (scratch : SearchScratch)
    (found : (shortestPath state scratch task.source task.target task.sourceBinding task.targetBinding).1.found = true) :
    PermittedWalk state.request task.sourceBinding task.targetBinding
      (shortestPath state scratch task.source task.target task.sourceBinding task.targetBinding).1.edges := by
  obtain ⟨opens, _, _⟩ := (ShortestPath.task_search_exact stateSound taskSound scratch).reached found
  exact ⟨opens.walk, fun index member =>
    ShortestPath.usable_permitted stateSound taskSound scratch.blocks index (opens.usable index member), opens.cost⟩

end PathPlanner

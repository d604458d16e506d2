import PathPlanner.Planner.Analyse
import PathPlanner.Planner.PoolSound
import PathPlanner.Planner.EnumerateSound

set_option autoImplicit false

namespace PathPlanner

open Mapping Walk

namespace PlanningRequest

theorem find_binding_bound (request : PlanningRequest) (sound : Sound request) (participant : ParticipantId)
    (binding : EndpointBinding) : request.findBinding participant = some binding ↔ BoundTo request participant binding := by
  constructor
  · intro found
    obtain ⟨listed, names⟩ := find_binding_some request participant binding found
    exact ⟨listed, names⟩
  · rintro ⟨listed, names⟩
    have ordered := List.pairwise_map.mp sound.ordered
    obtain ⟨before, after, split⟩ := List.append_of_mem listed
    unfold findBinding
    rw [split] at ordered ⊢
    obtain ⟨_, tailOrdered, apart⟩ := List.pairwise_append.mp ordered
    have passed : ∀ other ∈ before, decide (other.participant < participant) = true := by
      intro other member
      have less := apart other member binding (by simp)
      exact decide_eq_true (names ▸ less)
    have stays : decide (binding.participant < participant) = false := by
      rw [names]
      exact decide_eq_false (lt_irrefl participant)
    rw [List.dropWhile_append_of_pos passed, List.dropWhile_cons_of_neg (by simp [stays])]
    simp [names]

end PlanningRequest

-- The task the analysis of one logical edge works on.
structure EdgeTask (state : PlannerState) (logical : LogicalEdge) (task : EnumerationTask) : Prop where
  source : BoundTo state.request logical.src task.sourceBinding
  target : BoundTo state.request logical.dst task.targetBinding
  sourceNode : state.fabric.nodeIndex task.sourceBinding.node = some task.source
  targetNode : state.fabric.nodeIndex task.targetBinding.node = some task.target

namespace EdgeTask

variable {state : PlannerState} {logical : LogicalEdge} {task : EnumerationTask}

theorem sound (stateSound : PlannerState.Sound state) (edgeTask : EdgeTask state logical task)
    (usable : state.nodeAllowed task.source = true) : EnumerationTask.Sound state task where
  sourceBinding := stateSound.request.bindings _ edgeTask.source.listed
  targetBinding := stateSound.request.bindings _ edgeTask.target.listed
  source := edgeTask.sourceNode
  target := edgeTask.targetNode
  sourceUsable := (stateSound.node_allowed_iff _ _ edgeTask.sourceNode).mp usable

-- The bindings of an admissible mapping are the ones the task uses.
theorem bindings_unique (stateSound : PlannerState.Sound state) (edgeTask : EdgeTask state logical task)
    (source target : EndpointBinding) (left : BoundTo state.request logical.src source)
    (right : BoundTo state.request logical.dst target) : source = task.sourceBinding ∧ target = task.targetBinding := by
  have find := PlanningRequest.find_binding_bound state.request stateSound.request
  have same : ∀ participant first second, BoundTo state.request participant first → BoundTo state.request participant second →
      first = second := by
    intro participant first second one two
    exact Option.some.inj (((find participant first).mpr one).symm.trans ((find participant second).mpr two))
  exact ⟨same _ _ _ left edgeTask.source, same _ _ _ right edgeTask.target⟩

end EdgeTask

namespace Reachability

variable {state : PlannerState} {task : EnumerationTask}

theorem usable_targets_mem (sound : PlannerState.Sound state) (taskSound : EnumerationTask.Sound state task) (blocks : BlockSet)
    (clear : blocks.Clear) (index : EdgeIndex) (node next : NodeIndex)
    (leaves : state.fabric.nodeIndex (tailOf state.request index) = some node)
    (arrives : state.fabric.nodeIndex (headOf state.request index) = some next)
    (permitted : HopPermitted state.request task.sourceBinding task.targetBinding index) :
    next ∈ usableTargets state blocks task.sourceBinding task.targetBinding node := by
  have usable := sound.hop_usable blocks clear _ _ taskSound.sourceBinding taskSound.targetBinding index next arrives permitted
  refine List.mem_filterMap.mpr ⟨index, (sound.request.fabric.mem_out_edges node index).mpr ⟨permitted.stored, leaves⟩, ?_⟩
  rw [show state.fabric.nodeIndex (state.edge index).target = some next from arrives]
  simp [usable]

theorem usable_targets_inside (sound : PlannerState.Sound state) (blocks : BlockSet) (source target : EndpointBinding)
    (node next : NodeIndex) (member : next ∈ usableTargets state blocks source target node) :
    next ∈ List.range state.fabric.nodes.length := by
  obtain ⟨index, _, found⟩ := List.mem_filterMap.mp member
  obtain ⟨position, _⟩ := Option.filter_eq_some_iff.mp found
  exact List.mem_range.mpr (sound.request.fabric.node_index_some _ next position).1

-- Every permitted walk is a walk of the hop-counting search.
theorem walk_reaches (sound : PlannerState.Sound state) (taskSound : EnumerationTask.Sound state task) (blocks : BlockSet)
    (clear : blocks.Clear) (route : Route) (id : NodeId) (node : NodeIndex)
    (walk : IsWalk (tailOf state.request) (headOf state.request) task.sourceBinding.node route id)
    (found : state.fabric.nodeIndex id = some node)
    (permitted : ∀ index ∈ route, HopPermitted state.request task.sourceBinding task.targetBinding index) :
    Breadth.Reaches (usableTargets state blocks task.sourceBinding task.targetBinding) route.length task.source node := by
  induction route using List.reverseRecOn generalizing id node with
  | nil =>
      have same : task.sourceBinding.node = id := walk
      have source := taskSound.source
      rw [same, found, Option.some.injEq] at source
      exact source.symm
  | append_singleton route index ih =>
      obtain ⟨before, arrives⟩ := (walk_snoc _ _ _ _ _ _).mp walk
      have allowed := permitted index (by simp)
      obtain ⟨middle, leaves⟩ := sound.request.fabric.sources _ (FabricGraph.edge_member _ index allowed.stored)
      have reached := ih (tailOf state.request index) middle before leaves fun other member => permitted other (by simp [member])
      rw [List.length_append, List.length_singleton]
      exact ⟨middle, reached, usable_targets_mem sound taskSound blocks clear index middle node leaves (arrives ▸ found) allowed⟩

-- No compliant route is shorter than the hop count found, and none exists when nothing was found.
theorem bfs_min_hops_bound (sound : PlannerState.Sound state) (taskSound : EnumerationTask.Sound state task) (blocks : BlockSet)
    (clear : blocks.Clear) (apart : task.source ≠ task.target) (route : Route)
    (compliant : CompliantRoute state.request task.sourceBinding task.targetBinding route) :
    ∃ hops, bfsMinHops state blocks task.sourceBinding task.targetBinding task.source task.target = some hops ∧
      hops ≤ route.length := by
  have reached := walk_reaches sound taskSound blocks clear route _ _ compliant.walk taskSound.target
    ((compliant_iff _ _ _ _).mp compliant).2.2.2.2.1
  have member : task.source ∈ List.range state.fabric.nodes.length :=
    List.mem_range.mpr (sound.request.fabric.node_index_some _ _ taskSound.source).1
  have inside : ∀ a ∈ List.range state.fabric.nodes.length,
      ∀ b ∈ usableTargets state blocks task.sourceBinding task.targetBinding a, b ∈ List.range state.fabric.nodes.length :=
    fun a _ b next => usable_targets_inside sound blocks _ _ a b next
  unfold bfsMinHops
  rw [if_neg apart]
  cases searched : Breadth.search (usableTargets state blocks task.sourceBinding task.targetBinding)
      (fun node => decide (node = task.target)) state.fabric.nodes.length task.source with
  | ok sweep =>
      have missed := (Breadth.search_ok _ _ task.source _ _ sweep member inside (by simp) searched).2.2 task.target route.length
        apart.symm reached
      simp at missed
  | error hops =>
      exact ⟨hops, rfl, (Breadth.search_goal _ _ task.source _ _ hops member inside (by simp) searched).2 task.target apart.symm
        (by simp) route.length reached⟩

end Reachability

end PathPlanner

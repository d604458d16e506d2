import PathPlanner.Planner.FlowValue
import PathPlanner.Planner.SearchSound

set_option autoImplicit false

namespace PathPlanner

open Mapping Walk

namespace MaxFlow

theorem cut_append (inside : Nat → Bool) (graph : FlowGraph) (node : Nat) (arc : Arc) (bound : node < graph.length) :
    cutWeight inside (graph.modify node (· ++ [arc])) = cutWeight inside graph + arcCut inside node arc := by
  have member : node ∈ Finset.range graph.length := Finset.mem_range.mpr bound
  have others : ∑ other ∈ (Finset.range graph.length).erase node,
        nodeCut inside other (arcs (graph.modify node (· ++ [arc])) other) =
      ∑ other ∈ (Finset.range graph.length).erase node, nodeCut inside other (arcs graph other) := by
    refine Finset.sum_congr rfl fun other listed => ?_
    rw [arcs_modify graph node other _ bound, if_neg (Finset.ne_of_mem_erase listed)]
  unfold cutWeight
  rw [List.length_modify, ← Finset.add_sum_erase _ _ member, ← Finset.add_sum_erase _ _ member, others,
    arcs_modify graph node node _ bound, if_pos rfl]
  simp only [nodeCut, List.map_append, List.sum_append, List.map_cons, List.map_nil, List.sum_cons, List.sum_nil]
  omega

variable (graph : FlowGraph) (tail head capacity : Nat)

theorem add_arc_length : (addArc graph tail head capacity).length = graph.length := by simp [addArc]

theorem add_arc_arcs (tailBound : tail < graph.length) (headBound : head < graph.length) (differ : tail ≠ head) (node : Nat) :
    arcs (addArc graph tail head capacity) node =
      if node = head then arcs graph head ++ [⟨tail, 0, (arcs graph tail).length⟩]
      else if node = tail then arcs graph tail ++ [⟨head, capacity, (arcs graph head).length⟩]
      else arcs graph node := by
  unfold addArc
  dsimp only
  rw [arcs_modify _ head node _ (by rw [List.length_modify]; exact headBound)]
  simp only [arcs_modify _ tail _ _ tailBound, if_neg differ.symm, if_true, List.length_append, List.length_cons,
    List.length_nil, Nat.zero_add, Nat.add_sub_cancel]

theorem add_arc_cut (inside : Nat → Bool) (tailBound : tail < graph.length) (headBound : head < graph.length) :
    cutWeight inside (addArc graph tail head capacity) =
      cutWeight inside graph + if inside tail && !inside head then capacity else 0 := by
  unfold addArc
  dsimp only
  rw [cut_append _ _ _ _ (by rw [List.length_modify]; exact headBound), cut_append _ _ _ _ tailBound]
  simp [arcCut]

theorem add_arc_paired (tailBound : tail < graph.length) (headBound : head < graph.length) (differ : tail ≠ head)
    (paired : Paired graph) : Paired (addArc graph tail head capacity) := by
  have shape := add_arc_arcs graph tail head capacity tailBound headBound differ
  have kept : ∀ (node position : Nat) (arc : Arc), (arcs graph node)[position]? = some arc →
      (arcs (addArc graph tail head capacity) node)[position]? = some arc := by
    intro node position arc stored
    obtain ⟨bound, _⟩ := List.getElem?_eq_some_iff.mp stored
    rw [shape]
    split_ifs with atHead atTail
    · subst atHead
      rw [List.getElem?_append_left bound, stored]
    · subst atTail
      rw [List.getElem?_append_left bound, stored]
    · exact stored
  have old : ∀ (node position : Nat) (arc : Arc), (arcs graph node)[position]? = some arc →
      arc.target < (addArc graph tail head capacity).length ∧
        ∃ back, (arcs (addArc graph tail head capacity) arc.target)[arc.reverse]? = some back ∧ back.target = node := by
    intro node position arc stored
    obtain ⟨bound, back, found, returns⟩ := paired node position arc stored
    exact ⟨by rwa [add_arc_length], back, kept _ _ _ found, returns⟩
  intro node position arc stored
  rw [shape] at stored
  split_ifs at stored with atHead atTail
  · rcases Nat.lt_or_ge position (arcs graph head).length with early | late
    · rw [List.getElem?_append_left early] at stored
      exact old node position arc (atHead ▸ stored)
    · rw [List.getElem?_append_right late, List.getElem?_singleton] at stored
      split_ifs at stored with last
      rw [Option.some.injEq] at stored
      subst stored
      refine ⟨by rwa [add_arc_length], ⟨head, capacity, (arcs graph head).length⟩, ?_, atHead.symm⟩
      rw [shape, if_neg differ, if_pos rfl]
      simp
  · rcases Nat.lt_or_ge position (arcs graph tail).length with early | late
    · rw [List.getElem?_append_left early] at stored
      exact old node position arc (atTail ▸ stored)
    · rw [List.getElem?_append_right late, List.getElem?_singleton] at stored
      split_ifs at stored with last
      rw [Option.some.injEq] at stored
      subst stored
      refine ⟨by rwa [add_arc_length], ⟨tail, 0, (arcs graph tail).length⟩, ?_, atTail.symm⟩
      rw [shape, if_pos rfl]
      simp
  · exact old node position arc stored

structure Built (size : Nat) (graph : FlowGraph) : Prop where
  size : graph.length = size
  paired : Paired graph

-- A fold whose steps never lower a cut and raise it at every marked item.
theorem fold_built (inside : Nat → Bool) (size : Nat) (add : FlowGraph → Nat → FlowGraph) (marked items : List Nat)
    (each : ∀ item ∈ items, ∀ graph, Built size graph → Built size (add graph item) ∧
      cutWeight inside graph + (if item ∈ marked then 1 else 0) ≤ cutWeight inside (add graph item))
    (graph : FlowGraph) (built : Built size graph) :
    Built size (items.foldl add graph) ∧
      cutWeight inside graph + items.countP (fun item => decide (item ∈ marked)) ≤ cutWeight inside (items.foldl add graph) := by
  induction items generalizing graph with
  | nil => exact ⟨built, by simp⟩
  | cons item rest ih =>
      obtain ⟨stepBuilt, stepCut⟩ := each item (by simp) graph built
      obtain ⟨restBuilt, restCut⟩ := ih (fun other member => each other (List.mem_cons_of_mem _ member)) _ stepBuilt
      refine ⟨restBuilt, ?_⟩
      rw [List.countP_cons, List.foldl_cons]
      simp only [decide_eq_true_eq]
      omega

theorem marked_count (marked items : List Nat) (distinct : marked.Nodup) (inside : ∀ item ∈ marked, item ∈ items) :
    marked.length ≤ items.countP fun item => decide (item ∈ marked) := by
  rw [List.countP_eq_length_filter]
  refine (distinct.subperm fun item member => ?_).length_le
  exact List.mem_filter.mpr ⟨inside item member, decide_eq_true member⟩

end MaxFlow

namespace MaxDisjointPaths

open MaxFlow

variable {state : PlannerState} {task : EnumerationTask} (nodeDisjoint : Bool) (limit : Nat) (inside : Nat → Bool)

-- A node is entered where its incoming edges arrive and left where its outgoing edges start.
def Entered (state : PlannerState) (id : NodeId) : Prop :=
  ∃ node, state.fabric.nodeIndex id = some node ∧ inside (headOf nodeDisjoint node) = true

def Left (state : PlannerState) (id : NodeId) : Prop :=
  ∃ node, state.fabric.nodeIndex id = some node ∧ inside (tailOf nodeDisjoint node) = true

def sizeOf (state : PlannerState) : Nat := state.fabric.nodes.length * if nodeDisjoint then 2 else 1

theorem places_inside (stateSound : PlannerState.Sound state) (id : NodeId) (node : Nat)
    (found : state.fabric.nodeIndex id = some node) :
    tailOf nodeDisjoint node < sizeOf nodeDisjoint state ∧ headOf nodeDisjoint node < sizeOf nodeDisjoint state := by
  obtain ⟨bound, _⟩ := stateSound.request.fabric.node_index_some id node found
  change node < state.fabric.nodes.length at bound
  unfold tailOf headOf sizeOf
  cases nodeDisjoint <;> simp <;> omega

theorem add_node_built (stateSound : PlannerState.Sound state) (positive : 0 < limit) (marked : List NodeIndex)
    (crosses : ∀ node ∈ marked, ∃ id, state.fabric.nodeIndex id = some node ∧ NodeUsable state.request id ∧
      Entered true inside state id ∧ ¬ Left true inside state id)
    (node : Nat) (stored : node < state.fabric.nodes.length) (graph : FlowGraph)
    (built : Built (sizeOf true state) graph) :
    Built (sizeOf true state) (addNode state task.source task.target limit graph node) ∧
      cutWeight inside graph + (if node ∈ marked then 1 else 0) ≤
        cutWeight inside (addNode state task.source task.target limit graph node) := by
  have size := built.size
  have total : sizeOf true state = state.fabric.nodes.length * 2 := rfl
  have low : 2 * node < graph.length := by omega
  have high : 2 * node + 1 < graph.length := by omega
  unfold addNode
  by_cases allowed : state.nodeAllowed node = false
  · have unmarked : node ∉ marked := by
      intro member
      obtain ⟨id, found, usable, _⟩ := crosses node member
      rw [(stateSound.node_allowed_iff id node found).mpr usable] at allowed
      exact Bool.noConfusion allowed
    rw [if_pos allowed, if_neg unmarked]
    exact ⟨built, le_refl _⟩
  · rw [if_neg allowed]
    refine ⟨⟨by rw [add_arc_length]; exact size, add_arc_paired _ _ _ _ low high (by omega) built.paired⟩, ?_⟩
    rw [add_arc_cut _ _ _ _ inside low high]
    by_cases member : node ∈ marked
    · obtain ⟨id, found, _, ⟨entry, entryFound, enters⟩, stays⟩ := crosses node member
      have same : entry = node := Option.some.inj (entryFound.symm.trans found)
      have leaves : inside (2 * node + 1) = false := by
        by_contra leaving
        exact stays ⟨node, found, by simpa [tailOf] using leaving⟩
      have arrives : inside (2 * node) = true := by simpa [headOf, same] using enters
      rw [if_pos member, leaves, arrives]
      split_ifs <;> simp_all
      omega
    · rw [if_neg member]
      omega

theorem add_edge_built (stateSound : PlannerState.Sound state) (taskSound : EnumerationTask.Sound state task)
    (marked : List EdgeIndex)
    (crosses : ∀ index ∈ marked, HopPermitted state.request task.sourceBinding task.targetBinding index ∧
      NodeUsable state.request (Mapping.tailOf state.request index) ∧ Left nodeDisjoint inside state (Mapping.tailOf state.request index) ∧
      ¬ Entered nodeDisjoint inside state (Mapping.headOf state.request index))
    (index : EdgeIndex) (stored : index < state.fabric.edges.length) (graph : FlowGraph)
    (built : Built (sizeOf nodeDisjoint state) graph) :
    Built (sizeOf nodeDisjoint state) (addEdge state nodeDisjoint task.sourceBinding task.targetBinding graph index) ∧
      cutWeight inside graph + (if index ∈ marked then 1 else 0) ≤
        cutWeight inside (addEdge state nodeDisjoint task.sourceBinding task.targetBinding graph index) := by
  have member := FabricGraph.edge_member state.fabric index stored
  obtain ⟨tail, tailFound⟩ := stateSound.request.fabric.sources _ member
  obtain ⟨head, headFound⟩ := stateSound.request.fabric.targets _ member
  have loopFree := stateSound.request.fabric.loopFree _ member
  change state.fabric.nodeIndex (state.edge index).source = some tail at tailFound
  change state.fabric.nodeIndex (state.edge index).target = some head at headFound
  have differ : tailOf nodeDisjoint tail ≠ headOf nodeDisjoint head := by
    intro same
    have apart : tail ≠ head := by
      rintro rfl
      exact loopFree (stateSound.request.fabric.node_index_injective _ _ tail tailFound headFound)
    cases nodeDisjoint
    · exact apart (by simpa [tailOf, headOf] using same)
    · simp only [tailOf, headOf, if_true] at same
      omega
  have tailBound := built.size ▸ (places_inside nodeDisjoint stateSound _ tail tailFound).1
  have headBound := built.size ▸ (places_inside nodeDisjoint stateSound _ head headFound).2
  unfold addEdge
  by_cases listed : index ∈ marked
  · obtain ⟨permitted, tailUsable, leaves, stays⟩ := crosses index listed
    have usable := (stateSound.edge_usable_iff index).mpr permitted.edge
    have carries := (stateSound.carries_iff index).mpr permitted.share
    have sourceOk : bindingAllowsEdge state.fabric task.sourceBinding (state.edge index) = true :=
      (binding_allows_iff _ _ taskSound.sourceBinding _).mpr permitted.sourcePermits
    have targetOk : bindingAllowsEdge state.fabric task.targetBinding (state.edge index) = true :=
      (binding_allows_iff _ _ taskSound.targetBinding _).mpr permitted.targetPermits
    have tailOk := (stateSound.node_allowed_iff _ tail tailFound).mpr tailUsable
    have headOk := (stateSound.node_allowed_iff _ head headFound).mpr permitted.node
    rw [if_neg (by simp [usable, carries]), if_neg (by simp [sourceOk, targetOk])]
    simp only [tailFound, headFound]
    rw [if_neg (by simp [tailOk, headOk])]
    refine ⟨⟨by rw [add_arc_length]; exact built.size, add_arc_paired _ _ _ _ tailBound headBound differ built.paired⟩, ?_⟩
    obtain ⟨start, startFound, starts⟩ := leaves
    have same : start = tail := Option.some.inj (startFound.symm.trans tailFound)
    have outside : inside (headOf nodeDisjoint head) = false := by
      by_contra entering
      exact stays ⟨head, headFound, by simpa using entering⟩
    rw [add_arc_cut _ _ _ _ inside tailBound headBound, if_pos listed, ← same, starts, outside]
    simp
  · rw [if_neg listed]
    split_ifs
    · exact ⟨built, le_refl _⟩
    · exact ⟨built, le_refl _⟩
    · simp only [tailFound, headFound]
      split_ifs
      · exact ⟨built, le_refl _⟩
      · refine ⟨⟨by rw [add_arc_length]; exact built.size,
          add_arc_paired _ _ _ _ tailBound headBound differ built.paired⟩, ?_⟩
        rw [add_arc_cut _ _ _ _ inside tailBound headBound]
        omega

theorem empty_built (size : Nat) : Built size (List.replicate size []) := by
  refine ⟨List.length_replicate, fun node position arc stored => ?_⟩
  simp [arcs, List.getD_eq_getElem?_getD, List.getElem?_replicate] at stored
  split_ifs at stored <;> simp at stored

-- A cut of the flow graph weighs at least as much as any crossing edges and nodes.
theorem flow_graph_cut (stateSound : PlannerState.Sound state) (taskSound : EnumerationTask.Sound state task)
    (positive : 0 < limit) (markedNodes : List NodeIndex) (markedEdges : List EdgeIndex)
    (nodesDistinct : markedNodes.Nodup) (edgesDistinct : markedEdges.Nodup)
    (onlySplit : nodeDisjoint = false → markedNodes = [])
    (nodesCross : ∀ node ∈ markedNodes, ∃ id, state.fabric.nodeIndex id = some node ∧ NodeUsable state.request id ∧
      Entered nodeDisjoint inside state id ∧ ¬ Left nodeDisjoint inside state id)
    (edgesCross : ∀ index ∈ markedEdges, HopPermitted state.request task.sourceBinding task.targetBinding index ∧
      NodeUsable state.request (Mapping.tailOf state.request index) ∧ Left nodeDisjoint inside state (Mapping.tailOf state.request index) ∧
      ¬ Entered nodeDisjoint inside state (Mapping.headOf state.request index)) :
    Built (sizeOf nodeDisjoint state)
        (flowGraph state task.source task.target nodeDisjoint task.sourceBinding task.targetBinding limit) ∧
      markedNodes.length + markedEdges.length ≤ cutWeight inside
        (flowGraph state task.source task.target nodeDisjoint task.sourceBinding task.targetBinding limit) := by
  have start := empty_built (sizeOf nodeDisjoint state)
  have split : ∃ graph, Built (sizeOf nodeDisjoint state) graph ∧ markedNodes.length ≤ cutWeight inside graph ∧
      flowGraph state task.source task.target nodeDisjoint task.sourceBinding task.targetBinding limit =
        (List.range state.fabric.edges.length).foldl
          (addEdge state nodeDisjoint task.sourceBinding task.targetBinding) graph := by
    cases nodeDisjoint with
    | false => exact ⟨_, start, by simp [onlySplit rfl], rfl⟩
    | true =>
        obtain ⟨built, cut⟩ := fold_built inside (sizeOf true state) (addNode state task.source task.target limit) markedNodes
          (List.range state.fabric.nodes.length) (fun node listed graph built =>
            @add_node_built _ task limit inside stateSound positive markedNodes nodesCross node (List.mem_range.mp listed)
              graph built) _ start
        refine ⟨_, built, ?_, rfl⟩
        refine le_trans (marked_count markedNodes _ nodesDistinct fun node member => ?_) (le_trans (Nat.le_add_left _ _) cut)
        obtain ⟨id, found, _⟩ := nodesCross node member
        exact List.mem_range.mpr (stateSound.request.fabric.node_index_some id node found).1
  obtain ⟨graph, built, cut, eq⟩ := split
  obtain ⟨builtAll, cutAll⟩ := fold_built inside (sizeOf nodeDisjoint state)
    (addEdge state nodeDisjoint task.sourceBinding task.targetBinding) markedEdges (List.range state.fabric.edges.length)
    (fun index listed graph built => add_edge_built nodeDisjoint inside stateSound taskSound markedEdges edgesCross index
      (List.mem_range.mp listed) graph built) graph built
  have counted := marked_count markedEdges (List.range state.fabric.edges.length) edgesDistinct fun index member =>
    List.mem_range.mpr (edgesCross index member).1.stored
  rw [eq]
  exact ⟨builtAll, by omega⟩

-- Where a route crosses a cut: an edge of its own, or a node it passes when nodes are split.
structure Crossings (routes : List Route) (markedNodes : List NodeIndex) (markedEdges : List EdgeIndex) : Prop where
  count : markedNodes.length + markedEdges.length = routes.length
  nodesDistinct : markedNodes.Nodup
  edgesDistinct : markedEdges.Nodup
  onlySplit : nodeDisjoint = false → markedNodes = []
  nodes : ∀ node ∈ markedNodes, ∃ id, state.fabric.nodeIndex id = some node ∧
    (∃ route ∈ routes, id ∈ interior state.request route) ∧ Entered nodeDisjoint inside state id ∧ ¬ Left nodeDisjoint inside state id
  edges : ∀ index ∈ markedEdges, (∃ route ∈ routes, index ∈ route) ∧
    Left nodeDisjoint inside state (Mapping.tailOf state.request index) ∧
    ¬ Entered nodeDisjoint inside state (Mapping.headOf state.request index)

theorem crossings_exist (stateSound : PlannerState.Sound state) (source target : NodeId)
    (routes : List Route)
    (walks : ∀ route ∈ routes, route ≠ [] ∧ IsWalk (Mapping.tailOf state.request) (Mapping.headOf state.request) source route target)
    (edgesApart : routes.Pairwise fun lhs rhs => ∀ index ∈ lhs, index ∉ rhs)
    (nodesApart : nodeDisjoint = true →
      routes.Pairwise fun lhs rhs => ∀ node ∈ interior state.request lhs, node ∉ interior state.request rhs)
    (starts : Left nodeDisjoint inside state source) (ends : ¬ Entered nodeDisjoint inside state target) :
    ∃ markedNodes markedEdges, @Crossings state nodeDisjoint inside routes markedNodes markedEdges := by
  induction routes with
  | nil => exact ⟨[], [], rfl, List.nodup_nil, List.nodup_nil, fun _ => rfl, by simp, by simp⟩
  | cons route rest ih =>
      obtain ⟨edgesHead, edgesRest⟩ := List.pairwise_cons.mp edgesApart
      obtain ⟨markedNodes, markedEdges, crossings⟩ := ih (fun other member => walks other (List.mem_cons_of_mem _ member))
        edgesRest fun split => (List.pairwise_cons.mp (nodesApart split)).2
      obtain ⟨nonempty, walk⟩ := walks route (by simp)
      have laterNodes : ∀ node ∈ markedNodes, ∃ id, state.fabric.nodeIndex id = some node ∧
          (∃ other ∈ route :: rest, id ∈ interior state.request other) ∧ Entered nodeDisjoint inside state id ∧
          ¬ Left nodeDisjoint inside state id := by
        intro node member
        obtain ⟨id, found, ⟨other, listed, here⟩, facts⟩ := crossings.nodes node member
        exact ⟨id, found, ⟨other, List.mem_cons_of_mem _ listed, here⟩, facts⟩
      have laterEdges : ∀ index ∈ markedEdges, (∃ other ∈ route :: rest, index ∈ other) ∧
          Left nodeDisjoint inside state (Mapping.tailOf state.request index) ∧
          ¬ Entered nodeDisjoint inside state (Mapping.headOf state.request index) := by
        intro index member
        obtain ⟨⟨other, listed, here⟩, facts⟩ := crossings.edges index member
        exact ⟨⟨other, List.mem_cons_of_mem _ listed, here⟩, facts⟩
      have count := crossings.count
      rcases crossing _ _ (Entered nodeDisjoint inside state) (Left nodeDisjoint inside state) source target route nonempty walk
        starts ends with ⟨index, member, leaves, stays⟩ | ⟨id, member, enters, stays⟩
      · refine ⟨markedNodes, index :: markedEdges, ?_, crossings.nodesDistinct, ?_, crossings.onlySplit, laterNodes, ?_⟩
        · simp only [List.length_cons]
          omega
        · refine List.nodup_cons.mpr ⟨fun again => ?_, crossings.edgesDistinct⟩
          obtain ⟨⟨other, listed, here⟩, _⟩ := crossings.edges index again
          exact edgesHead other listed index member here
        · intro other listed
          rcases List.mem_cons.mp listed with rfl | later
          · exact ⟨⟨route, by simp, member⟩, leaves, stays⟩
          · exact laterEdges other later
      · have split : nodeDisjoint = true := by
          by_contra whole
          have plain : nodeDisjoint = false := by simpa using whole
          subst plain
          exact stays enters
        obtain ⟨node, found, arrives⟩ := enters
        refine ⟨node :: markedNodes, markedEdges, ?_, ?_, crossings.edgesDistinct, by simp [split], ?_, laterEdges⟩
        · simp only [List.length_cons]
          omega
        · refine List.nodup_cons.mpr ⟨fun again => ?_, crossings.nodesDistinct⟩
          obtain ⟨same, sameFound, ⟨other, listed, here⟩, _⟩ := crossings.nodes node again
          have eq := stateSound.request.fabric.node_index_injective id same node found sameFound
          exact (List.pairwise_cons.mp (nodesApart split)).1 other listed id member (eq ▸ here)
        · intro other listed
          rcases List.mem_cons.mp listed with rfl | later
          · exact ⟨id, found, ⟨route, by simp, member⟩, ⟨_, found, arrives⟩, stays⟩
          · exact laterNodes other later

theorem interior_visited (request : PlanningRequest) (start : NodeId) (route : Route) (id : NodeId)
    (member : id ∈ interior request route) : id ∈ visited (Mapping.headOf request) start route := by
  obtain ⟨index, inside, rfl⟩ := List.mem_map.mp member
  exact List.mem_cons_of_mem _ (List.mem_map_of_mem (List.mem_of_mem_dropLast inside))

-- The flow value is never below the number of disjoint compliant routes.
theorem max_disjoint_paths_bound (stateSound : PlannerState.Sound state) (taskSound : EnumerationTask.Sound state task)
    (apart : task.source ≠ task.target) (routes : List Route)
    (compliant : ∀ route ∈ routes, CompliantRoute state.request task.sourceBinding task.targetBinding route)
    (edgesApart : routes.Pairwise fun lhs rhs => ∀ index ∈ lhs, index ∉ rhs)
    (nodesApart : nodeDisjoint = true →
      routes.Pairwise fun lhs rhs => ∀ node ∈ interior state.request lhs, node ∉ interior state.request rhs) :
    routes.length ≤ maxDisjointPaths state task.source task.target nodeDisjoint task.sourceBinding task.targetBinding
      routes.length := by
  by_contra low
  rw [not_le] at low
  have bounds := places_inside nodeDisjoint stateSound _ _ taskSound.source
  have unmarked := (flow_graph_cut nodeDisjoint routes.length (fun _ => false) stateSound taskSound (by omega) [] []
    List.nodup_nil List.nodup_nil (fun _ => rfl) (by simp) (by simp)).1
  unfold maxDisjointPaths at low
  obtain ⟨inside, within, without, weight⟩ := run_certificate _ _ _ _ unmarked.paired (unmarked.size ▸ bounds.1) low
  have starts : Left nodeDisjoint inside state task.sourceBinding.node := ⟨task.source, taskSound.source, within⟩
  have ends : ¬ Entered nodeDisjoint inside state task.targetBinding.node := by
    rintro ⟨node, found, enters⟩
    have same : node = task.target := Option.some.inj (found.symm.trans taskSound.target)
    rw [same, without] at enters
    exact Bool.noConfusion enters
  have walks : ∀ route ∈ routes, route ≠ [] ∧ IsWalk (Mapping.tailOf state.request) (Mapping.headOf state.request)
      task.sourceBinding.node route task.targetBinding.node := by
    refine fun route member => ⟨?_, (compliant route member).walk⟩
    rintro rfl
    have same : task.sourceBinding.node = task.targetBinding.node := (compliant [] member).walk
    have source := taskSound.source
    rw [same] at source
    exact apart (Option.some.inj (source.symm.trans taskSound.target))
  obtain ⟨markedNodes, markedEdges, crossings⟩ := crossings_exist nodeDisjoint inside stateSound _ _ routes walks edgesApart
    nodesApart starts ends
  have cut := (flow_graph_cut nodeDisjoint routes.length inside stateSound taskSound (by omega) markedNodes markedEdges
    crossings.nodesDistinct crossings.edgesDistinct crossings.onlySplit (fun node member => ?_) fun index member => ?_).2
  · have count := crossings.count
    omega
  · obtain ⟨id, found, ⟨route, listed, here⟩, facts⟩ := crossings.nodes node member
    exact ⟨id, found, (compliant route listed).nodes id (interior_visited _ _ _ _ here), facts⟩
  · obtain ⟨⟨route, listed, here⟩, facts⟩ := crossings.edges index member
    have good := compliant route listed
    exact ⟨((compliant_iff _ _ _ _).mp good).2.2.2.2.1 index here,
      good.nodes _ (tails_visited _ _ _ _ _ good.walk index here), facts⟩

end MaxDisjointPaths

end PathPlanner

import PathPlanner.Request

set_option autoImplicit false

namespace PathPlanner

open Checks Sequence

namespace IdMap

variable {Id : Type} [DecidableEq Id]

theorem find_emplace (map : IdMap Id) (id probe : Id) (position : Nat) :
    (map.emplace id position).find probe =
      (map.find probe).or (if probe = id then some position else none) := by
  cases present : map.find id with
  | some old =>
      have unchanged : map.emplace id position = map := by simp [emplace, present]
      rw [unchanged]
      by_cases same : probe = id
      · subst same
        simp [present]
      · simp [same]
  | none =>
      have appended : map.emplace id position = ⟨map.entries ++ [(id, position)]⟩ := by
        simp [emplace, present]
      rw [appended]
      unfold find
      rw [List.find?_append]
      cases found : map.entries.find? (fun entry => decide (entry.1 = probe)) with
      | some entry => simp
      | none =>
          by_cases same : probe = id
          · simp [same]
          · simp [same, Ne.symm same]

theorem find_emplace_all (map : IdMap Id) (start : Nat) (ids : List Id) (probe : Id) :
    (emplaceAll map start ids).find probe =
      (map.find probe).or ((ids.findIdx? (· = probe)).map (· + start)) := by
  induction ids generalizing map start with
  | nil => simp [emplaceAll]
  | cons id rest ih =>
      rw [emplaceAll, ih, find_emplace, List.findIdx?_cons]
      by_cases same : probe = id
      · subst same
        cases map.find probe <;> simp
      · have reversed : ¬ id = probe := fun eq => same eq.symm
        cases map.find probe with
        | some old => simp
        | none =>
            simp only [same, reversed, if_false, decide_false, Option.or_none, Option.none_or, Bool.false_eq_true]
            cases rest.findIdx? (fun entry => decide (entry = probe)) with
            | none => rfl
            | some later =>
                simp only [Option.map_some, Option.some.injEq]
                omega

theorem find_indexed (ids : List Id) (probe : Id) (position : Nat) (distinct : ids.Nodup) :
    (emplaceAll {} 0 ids).find probe = some position ↔ ids[position]? = some probe := by
  rw [find_emplace_all]
  have empty : (({} : IdMap Id).find probe) = none := rfl
  rw [empty]
  simp only [Option.none_or, add_zero, Option.map_id']
  constructor
  · intro found
    obtain ⟨bound, matched, _⟩ := List.findIdx?_eq_some_iff_getElem.mp found
    rw [List.getElem?_eq_getElem bound]
    simpa using matched
  · intro stored
    obtain ⟨bound, eq⟩ := List.getElem?_eq_some_iff.mp stored
    rw [List.findIdx?_eq_some_iff_getElem]
    refine ⟨bound, by simpa using eq, ?_⟩
    intro earlier before
    have other : ids[earlier] ≠ ids[position] := by
      intro same
      exact (Nat.ne_of_lt before) ((distinct.getElem_inj_iff).mp same)
    simpa [eq] using other

end IdMap

namespace FabricGraph

-- Every bucket collects, in ascending order, the edges whose source has its position.
theorem append_out_edges_bucket (positions : IdMap NodeId) (lists : List (List EdgeIndex)) (start : EdgeIndex)
    (edges : List Edge) (bucket : NodeIndex) (bound : bucket < lists.length) :
    (appendOutEdges positions lists start edges).getD bucket [] =
      lists.getD bucket [] ++ ((List.range edges.length).filter fun k =>
        decide (positions.find (edges.getD k {}).source = some bucket)).map (start + ·) := by
  induction edges generalizing lists start with
  | nil => simp [appendOutEdges]
  | cons head tail ih =>
      have shifted : ((List.range (head :: tail).length).filter fun k =>
            decide (positions.find ((head :: tail).getD k {}).source = some bucket)).map (start + ·) =
          (if positions.find head.source = some bucket then [start] else []) ++
            ((List.range tail.length).filter fun k =>
              decide (positions.find (tail.getD k {}).source = some bucket)).map (start + 1 + ·) := by
        rw [List.length_cons, List.range_succ_eq_map, List.filter_cons, List.filter_map]
        have rest : (fun k => decide (positions.find ((head :: tail).getD k {}).source = some bucket)) ∘ Nat.succ =
            fun k => decide (positions.find (tail.getD k {}).source = some bucket) := by
          funext k
          simp
        rw [rest]
        by_cases here : positions.find head.source = some bucket <;>
          simp [here, Function.comp_def, Nat.add_assoc, Nat.add_comm 1]
      rw [shifted]
      cases found : positions.find head.source with
      | none =>
          rw [appendOutEdges, found]
          simpa using ih lists (start + 1) bound
      | some target =>
          rw [appendOutEdges, found]
          simp only
          rw [ih _ (start + 1) (by simpa using bound)]
          by_cases same : target = bucket
          · subst same
            simp [List.getD_eq_getElem?_getD, bound]
          · simp [List.getD_eq_getElem?_getD, same, List.getElem?_modify_ne]

theorem append_out_edges_length (positions : IdMap NodeId) (lists : List (List EdgeIndex)) (start : EdgeIndex)
    (edges : List Edge) : (appendOutEdges positions lists start edges).length = lists.length := by
  induction edges generalizing lists start with
  | nil => rfl
  | cons head tail ih =>
      unfold appendOutEdges
      split <;> simp [ih]

-- What an accepted fabric guarantees about its lists and its indexes.
structure Sound (fabric : FabricGraph) : Prop where
  nodeCount : fabric.nodes.length ≤ kMaxNodes
  edgeCount : fabric.edges.length ≤ kMaxEdges
  nodesSorted : (fabric.nodes.map Node.id).Pairwise (· < ·)
  edgesSorted : fabric.edges.IsChain edgeBefore
  edgeIds : (fabric.edges.map Edge.id).Nodup
  nodeAt : ∀ id position, fabric.nodeIndex id = some position ↔ (fabric.nodes.map Node.id)[position]? = some id
  edgeAt : ∀ id position, fabric.edgePositions.find id = some position ↔
    (fabric.edges.map Edge.id)[position]? = some id
  outgoing : ∀ node, fabric.outEdges node = (List.range fabric.edges.length).filter fun index =>
    decide (fabric.nodeIndex (fabric.edge index).source = some node)
  sources : ∀ edge ∈ fabric.edges, ∃ position, fabric.nodeIndex edge.source = some position
  targets : ∀ edge ∈ fabric.edges, ∃ position, fabric.nodeIndex edge.target = some position
  loopFree : ∀ edge ∈ fabric.edges, edge.source ≠ edge.target
  reserved : ∀ edge ∈ fabric.edges, edge.reservedMbps ≤ edge.capacityMbps
  capacity : ∀ edge ∈ fabric.edges, edge.capacityMbps ≤ kMaxCapacityMbps
  latency : ∀ edge ∈ fabric.edges, edge.latencyMicros ≤ kMaxLatencyMicros
  chains : ∀ id, ∀ entry ∈ fabric.domainChain id, entry.valid = true

theorem find_node_some (fabric : FabricGraph) (id : NodeId) (node : Node) (found : fabric.findNode id = some node) :
    ∃ position, fabric.nodeIndex id = some position := by
  unfold findNode at found
  cases stored : fabric.nodePositions.find id with
  | none => simp [stored] at found
  | some position => exact ⟨position, stored⟩

theorem containment_chain_valid (fabric : FabricGraph) (levels : Nat) (cursor : FailureDomainId)
    (chain : List FailureDomainId) (built : fabric.containmentChain levels cursor = .ok chain) :
    ∀ entry ∈ chain, entry.valid = true := by
  induction levels generalizing cursor chain with
  | zero =>
      unfold containmentChain at built
      by_cases ended : cursor.valid = false
      · rw [if_pos ended, Except.ok.injEq] at built
        simp [← built]
      · simp [if_neg ended] at built
  | succ levels ih =>
      unfold containmentChain at built
      by_cases ended : cursor.valid = false
      · rw [if_pos ended, Except.ok.injEq] at built
        simp [← built]
      · rw [if_neg ended] at built
        have here : cursor.valid = true := by simpa using ended
        simp only at built
        cases found : fabric.findFailureDomain cursor with
        | none =>
            rw [found, Except.ok.injEq] at built
            simp [← built, here]
        | some domain =>
            rw [found] at built
            obtain ⟨rest, restBuilt, eq⟩ := (bind_ok _ _ _).mp built
            rw [Except.ok.injEq] at eq
            intro entry member
            rw [← eq, List.mem_cons] at member
            rcases member with rfl | inRest
            · exact here
            · exact ih domain.parent rest restBuilt entry inRest

theorem containment_chains_valid (fabric : FabricGraph) (domains : List FailureDomain)
    (chains : List (List FailureDomainId)) (built : fabric.containmentChains domains = .ok chains) :
    ∀ chain ∈ chains, ∀ entry ∈ chain, entry.valid = true := by
  induction domains generalizing chains with
  | nil =>
      simp only [containmentChains, Except.ok.injEq] at built
      simp [← built]
  | cons domain rest ih =>
      obtain ⟨chain, first, later⟩ := (bind_ok _ _ _).mp built
      obtain ⟨others, restBuilt, eq⟩ := (bind_ok _ _ _).mp later
      rw [Except.ok.injEq] at eq
      intro listed member
      rw [← eq, List.mem_cons] at member
      rcases member with rfl | inRest
      · exact containment_chain_valid fabric _ _ _ first
      · exact ih others restBuilt listed inRest

theorem out_edges_indexed (fabric : FabricGraph) (node : NodeIndex) :
    (rebuildIndex fabric).outEdges node = (List.range fabric.edges.length).filter fun index =>
      decide ((rebuildIndex fabric).nodeIndex (fabric.edge index).source = some node) := by
  by_cases bound : node < fabric.nodes.length
  · have bucket := append_out_edges_bucket (IdMap.emplaceAll {} 0 (fabric.nodes.map Node.id))
      (List.replicate fabric.nodes.length []) 0 fabric.edges node (by simpa using bound)
    have empty : (List.replicate fabric.nodes.length ([] : List EdgeIndex)).getD node [] = [] := by
      simp [List.getD_eq_getElem?_getD, bound]
    rw [empty, List.nil_append] at bucket
    simpa [outEdges, rebuildIndex, nodeIndex, edge] using bucket
  · have outside : (rebuildIndex fabric).outEdges node = [] := by
      have short : (rebuildIndex fabric).outEdgeLists.length ≤ node := by
        simpa [rebuildIndex, append_out_edges_length] using bound
      simp [outEdges, List.getD_eq_getElem?_getD, List.getElem?_eq_none short]
    rw [outside, eq_comm, List.filter_eq_nil_iff]
    intro index _ found
    have stored : (IdMap.emplaceAll {} 0 (fabric.nodes.map Node.id)).find (fabric.edge index).source = some node := by
      simpa [nodeIndex, rebuildIndex] using of_decide_eq_true found
    rw [IdMap.find_emplace_all] at stored
    have empty : (({} : IdMap NodeId).find (fabric.edge index).source) = none := rfl
    rw [empty] at stored
    simp only [Option.none_or, add_zero, Option.map_id'] at stored
    obtain ⟨inside, _⟩ := List.findIdx?_eq_some_iff_getElem.mp stored
    rw [List.length_map] at inside
    exact bound inside

theorem build_sound (spec : FabricSpec) (fabric : FabricGraph) (built : build spec = .ok fabric) :
    Sound fabric := by
  unfold build at built
  simp only [then_ok, deny_ok, for_each_ok, not_lt, gt_iff_lt] at built
  obtain ⟨_, _, _, _, _, _, built⟩ := built
  obtain ⟨chains, chained, built⟩ := (bind_ok _ _ _).mp built
  simp only [then_ok, for_each_ok, Except.ok.injEq] at built
  obtain ⟨_, _, edgeChecks, _, validated, rfl⟩ := built
  simp only [validate, then_ok, deny_ok, for_each_ok, not_lt, gt_iff_lt, Bool.not_eq_false, not_not,
    Bool.not_eq_true, ascending_iff, sorted_duplicates_free] at validated
  obtain ⟨nodeCount, edgeCount, _, _, nodesSorted, edgesSorted, _, edgeIds, _, edgeFacts, _, _, _⟩ := validated
  have distinctNodes : ((spec.nodes.insertionSort fun lhs rhs => lhs.id ≤ rhs.id).map Node.id).Nodup :=
    nodesSorted.imp (fun less => ne_of_lt less)
  have original : ∀ edge ∈ spec.edges.insertionSort edgeNotAfter, edge ∈ spec.edges := fun edge member =>
    (List.perm_insertionSort edgeNotAfter spec.edges).mem_iff.mp member
  simp only [validateEdge, then_ok, deny_ok, not_and, not_lt, gt_iff_lt] at edgeFacts
  simp only [checkEdge, then_ok, deny_ok, not_lt, gt_iff_lt] at edgeChecks
  refine {
    nodeCount := nodeCount
    edgeCount := edgeCount
    nodesSorted := nodesSorted
    edgesSorted := edgesSorted
    edgeIds := edgeIds
    nodeAt := fun id position => IdMap.find_indexed _ id position distinctNodes
    edgeAt := fun id position => IdMap.find_indexed _ id position edgeIds
    outgoing := fun node => out_edges_indexed _ node
    sources := ?_
    targets := ?_
    loopFree := fun edge member => (edgeFacts edge member).2.2.1
    reserved := fun edge member => (edgeFacts edge member).2.2.2.1
    capacity := fun edge member => (edgeChecks edge (original edge member)).2.2.2.2.1
    latency := fun edge member => (edgeChecks edge (original edge member)).2.2.2.2.2.1
    chains := ?_ }
  · intro edge member
    obtain ⟨node, found⟩ := Option.ne_none_iff_exists'.mp (edgeFacts edge member).1
    exact find_node_some _ _ node found
  · intro edge member
    obtain ⟨node, found⟩ := Option.ne_none_iff_exists'.mp (edgeFacts edge member).2.1
    exact find_node_some _ _ node found
  · intro id entry member
    unfold domainChain at member
    split at member
    · simp at member
    · rename_i position _
      simp only [rebuildIndex, List.getD_eq_getElem?_getD] at member
      cases stored : chains[position]? with
      | none => simp [stored] at member
      | some chain =>
          rw [stored, Option.getD_some] at member
          exact containment_chains_valid _ _ chains chained chain (List.mem_of_getElem? stored) entry member

end FabricGraph

end PathPlanner

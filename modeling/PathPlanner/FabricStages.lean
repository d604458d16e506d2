import PathPlanner.Accepted

set_option autoImplicit false

namespace PathPlanner

open Checks Sequence

namespace FabricGraph

-- The stages of build before its closing validate.
def domainStage (spec : FabricSpec) : Result FabricGraph := do
  let failureDomains := spec.failureDomains.insertionSort fun lhs rhs => lhs.id ≤ rhs.id
  neighbourDuplicates "duplicate failure domain id " FailureDomain.id failureDomains
  let graph : FabricGraph := rebuildIndex {
    topologyGeneration := spec.topologyGeneration
    failureDomainGeneration := spec.failureDomainGeneration
    capacityEvidenceGeneration := spec.capacityEvidenceGeneration
    failureDomains }
  forEach graph.checkParent failureDomains
  let domainChains ← graph.containmentChains failureDomains
  .ok { graph with domainChains }

def nodeStage (spec : FabricSpec) (graph : FabricGraph) : Result FabricGraph := do
  forEach checkNodeNames spec.nodes
  let nodes := spec.nodes.insertionSort fun lhs rhs => lhs.id ≤ rhs.id
  neighbourDuplicates "duplicate node id " Node.id nodes
  .ok (rebuildIndex { graph with nodes })

def edgeStage (spec : FabricSpec) (graph : FabricGraph) : Result FabricGraph := do
  forEach graph.checkEdge spec.edges
  let edges := spec.edges.insertionSort edgeNotAfter
  checkEdgeIdentities edges
  .ok (rebuildIndex { graph with edges })

def beforeValidate (spec : FabricSpec) : Result FabricGraph := do
  deny (spec.failureDomains.length > kMaxFailureDomains)
    (failure .tooManyItems "failure domain count exceeds limit")
  deny (spec.nodes.length > kMaxNodes) (failure .tooManyItems "node count exceeds limit")
  deny (spec.edges.length > kMaxEdges) (failure .tooManyItems "edge count exceeds limit")
  forEach checkDomainNames spec.failureDomains
  let graph ← domainStage spec
  let graph ← nodeStage spec graph
  edgeStage spec graph

theorem build_stages (spec : FabricSpec) :
    build spec = (beforeValidate spec >>= fun graph => validate graph >>= fun _ => .ok graph) := by
  simp only [build, beforeValidate, domainStage, nodeStage, edgeStage, bind_assoc]
  rfl

theorem neighbour_duplicates_ok {α : Type} {tag : IdTag} (lead : String) (id : α → StrongId tag Bytes) (items : List α) :
    neighbourDuplicates lead id items = .ok () ↔ adjacentEqual (items.map id) = false := by
  induction items with
  | nil => simp [neighbourDuplicates, adjacentEqual]
  | cons previous rest ih =>
      cases rest with
      | nil => simp [neighbourDuplicates, adjacentEqual]
      | cons current rest =>
          simp only [List.map_cons] at ih ⊢
          rw [neighbourDuplicates, then_ok, deny_ok, ih, adjacentEqual, Bool.or_eq_false_iff, decide_eq_false_iff_not]
          exact and_congr_left' ne_comm

-- After the sort by identity the neighbours are all there is to compare.
theorem sorted_by_id {α : Type} {tag : IdTag} (lead : String) (id : α → StrongId tag Bytes) (items : List α)
    (distinct : neighbourDuplicates lead id (items.insertionSort fun lhs rhs => id lhs ≤ id rhs) = .ok ()) :
    ((items.insertionSort fun lhs rhs => id lhs ≤ id rhs).map id).Pairwise (· < ·) := by
  have sorted : ((items.insertionSort fun lhs rhs => id lhs ≤ id rhs).map id).Pairwise (· ≤ ·) := by
    rw [List.pairwise_map]
    have : Std.Total fun lhs rhs : α => id lhs ≤ id rhs := ⟨fun lhs rhs => le_total (id lhs) (id rhs)⟩
    have : IsTrans α fun lhs rhs => id lhs ≤ id rhs := ⟨fun _ _ _ => le_trans⟩
    exact List.pairwise_insertionSort _ items
  exact (adjacent_equal_sorted _ sorted).mp ((neighbour_duplicates_ok lead id _).mp distinct)

theorem first_adjacent_none {α : Type} [DecidableEq α] (values : List α) :
    firstAdjacentEqual values = none ↔ values.IsChain (· ≠ ·) := by
  induction values with
  | nil => simp [firstAdjacentEqual]
  | cons head tail ih =>
      cases tail with
      | nil => simp [firstAdjacentEqual]
      | cons next rest =>
          rw [firstAdjacentEqual, List.isChain_cons_cons]
          by_cases same : head = next <;> simp [same, ih]

theorem edge_identities_ok (edges : List Edge) : checkEdgeIdentities edges = .ok () ↔ (edges.map Edge.id).Nodup := by
  have same : firstAdjacentEqual (sortValues (edges.map Edge.id)) = none ↔
      adjacentEqual (sortValues (edges.map Edge.id)) = false := by
    rw [first_adjacent_none]
    generalize sortValues (edges.map Edge.id) = values
    induction values with
    | nil => simp [adjacentEqual]
    | cons head tail ih =>
        cases tail with
        | nil => simp [adjacentEqual]
        | cons next rest =>
            rw [List.isChain_cons_cons, ih, adjacentEqual, Bool.or_eq_false_iff, decide_eq_false_iff_not]
  rw [← sorted_duplicates_free, ← same, checkEdgeIdentities]
  cases firstAdjacentEqual (sortValues (edges.map Edge.id)) <;> simp

-- Chains follow the declared domains only.
theorem containment_chain_congr (left right : FabricGraph)
    (same : ∀ id, left.findFailureDomain id = right.findFailureDomain id) (levels : Nat) (cursor : FailureDomainId) :
    left.containmentChain levels cursor = right.containmentChain levels cursor := by
  induction levels generalizing cursor with
  | zero =>
      unfold containmentChain
      rfl
  | succ levels ih =>
      unfold containmentChain
      simp only [same, ih]

theorem containment_chains_congr (left right : FabricGraph)
    (same : ∀ id, left.findFailureDomain id = right.findFailureDomain id) (domains : List FailureDomain) :
    left.containmentChains domains = right.containmentChains domains := by
  induction domains with
  | nil => rfl
  | cons domain rest ih => rw [containmentChains, containmentChains, ih, containment_chain_congr left right same]

-- What holds of the graph when the closing validate is reached.
structure Staged (spec : FabricSpec) (graph : FabricGraph) : Prop where
  domainCount : spec.failureDomains.length ≤ kMaxFailureDomains
  nodeCount : spec.nodes.length ≤ kMaxNodes
  edgeCount : spec.edges.length ≤ kMaxEdges
  domainNames : ∀ domain ∈ spec.failureDomains, checkDomainNames domain = .ok ()
  domains : graph.failureDomains = spec.failureDomains.insertionSort fun lhs rhs => lhs.id ≤ rhs.id
  nodes : graph.nodes = spec.nodes.insertionSort fun lhs rhs => lhs.id ≤ rhs.id
  edges : graph.edges = spec.edges.insertionSort edgeNotAfter
  indexed : rebuildIndex graph = graph
  domainsSorted : (graph.failureDomains.map FailureDomain.id).Pairwise (· < ·)
  nodesSorted : (graph.nodes.map Node.id).Pairwise (· < ·)
  edgeIds : (graph.edges.map Edge.id).Nodup
  parents : ∀ domain ∈ graph.failureDomains, graph.checkParent domain = .ok ()
  chains : graph.containmentChains graph.failureDomains = .ok graph.domainChains
  checked : ∀ edge ∈ graph.edges, graph.checkEdge edge = .ok ()

theorem before_validate_staged (spec : FabricSpec) (graph : FabricGraph) (staged : beforeValidate spec = .ok graph) :
    Staged spec graph := by
  unfold beforeValidate at staged
  simp only [then_ok, deny_ok, for_each_ok, not_lt, gt_iff_lt] at staged
  obtain ⟨domainCount, nodeCount, edgeCount, domainNames, staged⟩ := staged
  obtain ⟨withDomains, domainsStaged, staged⟩ := (bind_ok _ _ _).mp staged
  obtain ⟨withNodes, nodesStaged, edgesStaged⟩ := (bind_ok _ _ _).mp staged
  simp only [domainStage, then_ok, for_each_ok] at domainsStaged
  obtain ⟨domainIds, parents, domainsStaged⟩ := domainsStaged
  obtain ⟨domainChains, chains, domainsStaged⟩ := (bind_ok _ _ _).mp domainsStaged
  obtain rfl := Except.ok.inj domainsStaged
  simp only [nodeStage, then_ok, Except.ok.injEq] at nodesStaged
  obtain ⟨_, nodeIds, rfl⟩ := nodesStaged
  simp only [edgeStage, then_ok, for_each_ok, edge_identities_ok, Except.ok.injEq] at edgesStaged
  obtain ⟨checked, edgeIds, rfl⟩ := edgesStaged
  refine {
    domainCount, nodeCount, edgeCount, domainNames
    domains := rfl
    nodes := rfl
    edges := rfl
    indexed := rfl
    domainsSorted := sorted_by_id _ FailureDomain.id spec.failureDomains domainIds
    nodesSorted := sorted_by_id _ Node.id spec.nodes nodeIds
    edgeIds := edgeIds
    parents := parents
    chains := ?_
    checked := ?_ }
  · refine Eq.trans ?_ chains
    apply containment_chains_congr
    exact fun _ => rfl
  · intro edge member
    exact checked edge ((List.perm_insertionSort edgeNotAfter spec.edges).mem_iff.mp member)

-- A lookup through an exact index finds the element with the identity, and only that one.
theorem indexed_lookup {α : Type} {tag : IdTag} (items : List α) (idOf : α → StrongId tag Bytes)
    (positions : IdMap (StrongId tag Bytes))
    (exact : ∀ id position, positions.find id = some position ↔ (items.map idOf)[position]? = some id)
    (id : StrongId tag Bytes) (record : α) :
    ((positions.find id).bind fun position => items[position]?) = some record ↔ record ∈ items ∧ idOf record = id := by
  rw [Option.bind_eq_some_iff]
  constructor
  · rintro ⟨position, stored, taken⟩
    have named := (exact id position).mp stored
    rw [List.getElem?_map, taken] at named
    exact ⟨List.mem_of_getElem? taken, Option.some.inj named⟩
  · rintro ⟨member, rfl⟩
    obtain ⟨position, taken⟩ := List.getElem?_of_mem member
    refine ⟨position, (exact _ position).mpr ?_, taken⟩
    rw [List.getElem?_map, taken]
    rfl

namespace Staged

variable {spec : FabricSpec} {graph : FabricGraph}

theorem node_at (staged : Staged spec graph) (id : NodeId) (position : NodeIndex) :
    graph.nodePositions.find id = some position ↔ (graph.nodes.map Node.id)[position]? = some id := by
  rw [← staged.indexed]
  exact IdMap.find_indexed _ id position (staged.nodesSorted.imp fun less => ne_of_lt less)

theorem edge_at (staged : Staged spec graph) (id : EdgeId) (position : EdgeIndex) :
    graph.edgePositions.find id = some position ↔ (graph.edges.map Edge.id)[position]? = some id := by
  rw [← staged.indexed]
  exact IdMap.find_indexed _ id position staged.edgeIds

theorem domain_at (staged : Staged spec graph) (id : FailureDomainId) (position : Nat) :
    graph.domainPositions.find id = some position ↔ (graph.failureDomains.map FailureDomain.id)[position]? = some id := by
  rw [← staged.indexed]
  exact IdMap.find_indexed _ id position (staged.domainsSorted.imp fun less => ne_of_lt less)

theorem find_node_iff (staged : Staged spec graph) (id : NodeId) (record : Node) :
    graph.findNode id = some record ↔ record ∈ graph.nodes ∧ record.id = id :=
  indexed_lookup graph.nodes Node.id _ staged.node_at id record

theorem find_edge_iff (staged : Staged spec graph) (id : EdgeId) (record : Edge) :
    graph.findEdge id = some record ↔ record ∈ graph.edges ∧ record.id = id :=
  indexed_lookup graph.edges Edge.id _ staged.edge_at id record

theorem find_domain_iff (staged : Staged spec graph) (id : FailureDomainId) (record : FailureDomain) :
    graph.findFailureDomain id = some record ↔ record ∈ graph.failureDomains ∧ record.id = id :=
  indexed_lookup graph.failureDomains FailureDomain.id _ staged.domain_at id record

end Staged

def edgeKey (edge : Edge) : NodeId ×ₗ NodeId ×ₗ EdgeId := toLex (edge.source, toLex (edge.target, edge.id))

theorem edge_not_after_key (lhs rhs : Edge) : edgeNotAfter lhs rhs ↔ edgeKey lhs ≤ edgeKey rhs := by
  simp [edgeNotAfter, edgeKey, Prod.Lex.le_iff]

theorem edge_before_key (lhs rhs : Edge) : edgeBefore lhs rhs ↔ edgeKey lhs < edgeKey rhs := by
  simp [edgeBefore, edgeKey, Prod.Lex.lt_iff]

theorem edge_key_id (lhs rhs : Edge) (same : edgeKey lhs = edgeKey rhs) : lhs.id = rhs.id := by
  have parts := congrArg (fun key => (ofLex (ofLex key).2).2) same
  exact parts

theorem sorted_edges (edges : List Edge) (distinct : ((edges.insertionSort edgeNotAfter).map Edge.id).Nodup) :
    (edges.insertionSort edgeNotAfter).Pairwise edgeBefore := by
  have : Std.Total edgeNotAfter :=
    ⟨fun lhs rhs => by simpa only [edge_not_after_key] using le_total (edgeKey lhs) (edgeKey rhs)⟩
  have : IsTrans Edge edgeNotAfter :=
    ⟨fun _ _ _ => by simpa only [edge_not_after_key] using le_trans⟩
  refine (List.pairwise_insertionSort edgeNotAfter edges).imp₂ ?_ (List.pairwise_map.mp distinct)
  intro lhs rhs notAfter differ
  rw [edge_not_after_key] at notAfter
  rw [edge_before_key]
  exact lt_of_le_of_ne notAfter fun same => differ (edge_key_id lhs rhs same)

theorem containment_chains_each (fabric : FabricGraph) (domains : List FailureDomain) (chains : List (List FailureDomainId))
    (built : fabric.containmentChains domains = .ok chains) :
    List.Forall₂ (fun domain chain => fabric.containmentChain kMaxHierarchyLevels domain.id = .ok chain) domains chains := by
  induction domains generalizing chains with
  | nil =>
      obtain rfl := Except.ok.inj built
      exact .nil
  | cons domain rest ih =>
      obtain ⟨chain, first, later⟩ := (bind_ok _ _ _).mp built
      obtain ⟨others, restBuilt, eq⟩ := (bind_ok _ _ _).mp later
      obtain rfl := Except.ok.inj eq
      exact .cons first (ih others restBuilt)

theorem emplace_all_entries {Id : Type} [DecidableEq Id] (map : IdMap Id) (start : Nat) (ids : List Id) (entry : Id × Nat)
    (member : entry ∈ (IdMap.emplaceAll map start ids).entries) :
    entry ∈ map.entries ∨ ∃ offset, entry.2 = start + offset ∧ ids[offset]? = some entry.1 := by
  induction ids generalizing map start with
  | nil => exact Or.inl member
  | cons id rest ih =>
      rcases ih _ _ member with before | ⟨offset, position, stored⟩
      · unfold IdMap.emplace at before
        split at before
        · exact Or.inl before
        · rcases List.mem_append.mp before with old | fresh
          · exact Or.inl old
          · obtain rfl := List.mem_singleton.mp fresh
            exact Or.inr ⟨0, rfl, rfl⟩
      · exact Or.inr ⟨offset + 1, by rw [position]; omega, stored⟩

theorem emplaced_entries {Id : Type} [DecidableEq Id] (ids : List Id) (entry : Id × Nat)
    (member : entry ∈ (IdMap.emplaceAll {} 0 ids).entries) : ids[entry.2]? = some entry.1 := by
  rcases emplace_all_entries {} 0 ids entry member with none | ⟨offset, position, stored⟩
  · cases none
  · rwa [position, Nat.zero_add]

namespace Staged

variable {spec : FabricSpec} {graph : FabricGraph}

theorem edge_valid (staged : Staged spec graph) (edge : Edge) (member : edge ∈ graph.edges) :
    graph.validateEdge edge = .ok () := by
  have checked := staged.checked edge member
  simp only [checkEdge, then_ok, deny_ok] at checked
  obtain ⟨_, _, _, _, _, _, loopFree, reserved, source, target, domain⟩ := checked
  have known (id : NodeId) (indexed : ¬ graph.nodePositions.find id = none) : ¬ graph.findNode id = none := by
    obtain ⟨position, stored⟩ := Option.ne_none_iff_exists'.mp indexed
    obtain ⟨record, taken, _⟩ := Option.map_eq_some_iff.mp (List.getElem?_map ▸ (staged.node_at id position).mp stored)
    simp [findNode, stored, taken]
  have declared (id : FailureDomainId) (indexed : ¬ graph.domainPositions.find id = none) :
      ¬ graph.findFailureDomain id = none := by
    obtain ⟨position, stored⟩ := Option.ne_none_iff_exists'.mp indexed
    obtain ⟨record, taken, _⟩ := Option.map_eq_some_iff.mp (List.getElem?_map ▸ (staged.domain_at id position).mp stored)
    simp [findFailureDomain, stored, taken]
  simp only [validateEdge, then_ok, deny_ok]
  refine ⟨known _ source, known _ target, loopFree, reserved, ?_⟩
  rintro ⟨named, missing⟩
  exact domain ⟨named, by_contra fun indexed => declared _ indexed missing⟩

theorem domain_valid (staged : Staged spec graph) (domain : FailureDomain) (member : domain ∈ graph.failureDomains) :
    graph.validateDomain domain = .ok () := by
  have checked := staged.parents domain member
  unfold checkParent at checked
  unfold validateDomain
  by_cases root : domain.parent.valid = false
  · rw [if_pos root]
  · rw [if_neg root] at checked ⊢
    cases found : graph.findFailureDomain domain.parent with
    | none => simp [found] at checked
    | some parent =>
        rw [found] at checked
        simp only [deny_ok] at checked ⊢
        exact checked

-- Every check of the closing validate has been made before.
theorem valid (staged : Staged spec graph) : graph.validate = .ok () := by
  have domainCount : graph.failureDomains.length = spec.failureDomains.length := by
    rw [staged.domains, List.length_insertionSort]
  have nodeCount : graph.nodes.length = spec.nodes.length := by rw [staged.nodes, List.length_insertionSort]
  have edgeCount : graph.edges.length = spec.edges.length := by rw [staged.edges, List.length_insertionSort]
  have edgesSorted : graph.edges.Pairwise edgeBefore := by
    rw [staged.edges]
    exact sorted_edges spec.edges (staged.edges ▸ staged.edgeIds)
  simp only [validate, then_ok, deny_ok, for_each_ok, not_lt, gt_iff_lt, Bool.not_eq_false, not_not, Bool.not_eq_true,
    ascending_iff, sorted_duplicates_free]
  refine ⟨nodeCount ▸ staged.nodeCount, edgeCount ▸ staged.edgeCount, domainCount ▸ staged.domainCount, staged.domainsSorted,
    staged.nodesSorted, edgesSorted.isChain, ?_, staged.edgeIds, staged.nodesSorted.imp fun less => ne_of_lt less,
    staged.edge_valid, staged.domain_valid, ?_, ?_⟩
  · exact (containment_chains_each graph _ _ staged.chains).length_eq.symm
  · intro entry member
    rw [← staged.indexed] at member
    rw [← List.getElem?_map]
    exact emplaced_entries (graph.nodes.map Node.id) entry member
  · intro entry member
    rw [← staged.indexed] at member
    rw [← List.getElem?_map]
    exact emplaced_entries (graph.edges.map Edge.id) entry member

end Staged

-- What the lists and the indexes of a built fabric say about its description.
structure Faithful (spec : FabricSpec) (fabric : FabricGraph) : Prop where
  nodes : fabric.nodes.Perm spec.nodes
  edges : fabric.edges.Perm spec.edges
  domains : fabric.failureDomains.Perm spec.failureDomains
  nodesSorted : (fabric.nodes.map Node.id).Pairwise (· < ·)
  edgesSorted : fabric.edges.Pairwise edgeBefore
  edgeIds : (fabric.edges.map Edge.id).Nodup
  sources : ∀ edge ∈ fabric.edges, ∃ node ∈ fabric.nodes, node.id = edge.source
  targets : ∀ edge ∈ fabric.edges, ∃ node ∈ fabric.nodes, node.id = edge.target
  edgeDomains : ∀ edge ∈ fabric.edges, edge.failureDomain.valid = true →
    ∃ domain ∈ fabric.failureDomains, domain.id = edge.failureDomain
  parents : ∀ domain ∈ fabric.failureDomains, domain.parent.valid = true →
    ∃ parent ∈ fabric.failureDomains, parent.id = domain.parent
  outAscending : ∀ node, (fabric.outEdges node).Pairwise (· < ·)
  outExact : ∀ node index, index ∈ fabric.outEdges node ↔
    index < fabric.edges.length ∧ node < fabric.nodes.length ∧ (fabric.edge index).source = (fabric.node node).id
  findNode : ∀ id record, fabric.findNode id = some record ↔ record ∈ fabric.nodes ∧ record.id = id
  findEdge : ∀ id record, fabric.findEdge id = some record ↔ record ∈ fabric.edges ∧ record.id = id
  findFailureDomain : ∀ id record, fabric.findFailureDomain id = some record ↔
    record ∈ fabric.failureDomains ∧ record.id = id
  nodeIndex : ∀ id position, fabric.nodeIndex id = some position ↔
    position < fabric.nodes.length ∧ (fabric.node position).id = id

theorem Staged.node_index_iff {spec : FabricSpec} {graph : FabricGraph} (staged : Staged spec graph) (id : NodeId)
    (position : NodeIndex) :
    graph.nodeIndex id = some position ↔ position < graph.nodes.length ∧ (graph.node position).id = id := by
  rw [FabricGraph.nodeIndex, staged.node_at, List.getElem?_map, Option.map_eq_some_iff]
  constructor
  · rintro ⟨record, taken, named⟩
    obtain ⟨bound, rfl⟩ := List.getElem?_eq_some_iff.mp taken
    exact ⟨bound, by simpa [node, List.getD_eq_getElem?_getD, bound] using named⟩
  · rintro ⟨bound, named⟩
    exact ⟨graph.nodes[position], List.getElem?_eq_getElem bound, by
      simpa [node, List.getD_eq_getElem?_getD, bound] using named⟩

theorem staged_faithful (spec : FabricSpec) (fabric : FabricGraph) (staged : Staged spec fabric) : Faithful spec fabric where
  nodes := by
    rw [staged.nodes]
    exact List.perm_insertionSort _ _
  edges := by
    rw [staged.edges]
    exact List.perm_insertionSort _ _
  domains := by
    rw [staged.domains]
    exact List.perm_insertionSort _ _
  nodesSorted := staged.nodesSorted
  edgesSorted := by
    rw [staged.edges]
    exact sorted_edges spec.edges (staged.edges ▸ staged.edgeIds)
  edgeIds := staged.edgeIds
  sources edge member := by
    have valid := staged.edge_valid edge member
    simp only [validateEdge, then_ok, deny_ok] at valid
    obtain ⟨node, found⟩ := Option.ne_none_iff_exists'.mp valid.1
    exact ⟨node, (staged.find_node_iff _ node).mp found⟩
  targets edge member := by
    have valid := staged.edge_valid edge member
    simp only [validateEdge, then_ok, deny_ok] at valid
    obtain ⟨node, found⟩ := Option.ne_none_iff_exists'.mp valid.2.1
    exact ⟨node, (staged.find_node_iff _ node).mp found⟩
  edgeDomains edge member named := by
    have valid := staged.edge_valid edge member
    simp only [validateEdge, then_ok, deny_ok, not_and] at valid
    obtain ⟨domain, found⟩ := Option.ne_none_iff_exists'.mp (valid.2.2.2.2 named)
    exact ⟨domain, (staged.find_domain_iff _ domain).mp found⟩
  parents domain member named := by
    have valid := staged.parents domain member
    unfold checkParent at valid
    rw [if_neg (by simp [named])] at valid
    cases found : fabric.findFailureDomain domain.parent with
    | none => simp [found] at valid
    | some parent => exact ⟨parent, (staged.find_domain_iff _ parent).mp found⟩
  outAscending node := by
    rw [← staged.indexed, out_edges_indexed]
    exact List.pairwise_lt_range.filter _
  outExact node index := by
    have exact := out_edges_indexed fabric node
    rw [staged.indexed] at exact
    rw [exact, List.mem_filter, List.mem_range, decide_eq_true_iff, staged.node_index_iff]
    exact and_congr_right fun _ => and_congr_right fun _ => eq_comm
  findNode := staged.find_node_iff
  findEdge := staged.find_edge_iff
  findFailureDomain := staged.find_domain_iff
  nodeIndex := staged.node_index_iff

theorem build_staged (spec : FabricSpec) (fabric : FabricGraph) (built : build spec = .ok fabric) : Staged spec fabric := by
  rw [build_stages] at built
  obtain ⟨graph, staged, closed⟩ := (bind_ok _ _ _).mp built
  rw [then_ok] at closed
  obtain rfl := Except.ok.inj closed.2
  exact before_validate_staged spec graph staged

theorem before_validate_valid (spec : FabricSpec) (graph : FabricGraph) (staged : beforeValidate spec = .ok graph) :
    graph.validate = .ok () :=
  (before_validate_staged spec graph staged).valid

-- The closing check never fails, so the stages before it decide alone.
theorem build_before_validate (spec : FabricSpec) : build spec = beforeValidate spec := by
  rw [build_stages]
  cases reached : beforeValidate spec with
  | error status => rfl
  | ok graph =>
      change (validate graph >>= fun _ => .ok graph) = .ok graph
      rw [before_validate_valid spec graph reached]
      rfl

-- The graph is what its description says, and the closing validate has nothing left to refuse.
theorem built_faithful (spec : FabricSpec) :
    (∀ fabric, build spec = .ok fabric → Faithful spec fabric) ∧
      (∀ graph, beforeValidate spec = .ok graph → graph.validate = .ok ()) ∧ build spec = beforeValidate spec := by
  exact ⟨fun fabric built => staged_faithful spec fabric (build_staged spec fabric built),
    fun graph staged => before_validate_valid spec graph staged, build_before_validate spec⟩

theorem accepted_graph (spec : FabricSpec) (accepted : (build spec).isOk = true) : ∃ fabric, build spec = .ok fabric := by
  cases outcome : build spec with
  | error status => simp [outcome, Except.isOk, Except.toBool] at accepted
  | ok fabric => exact ⟨fabric, rfl⟩

end FabricGraph

namespace Sample

-- Every domain is declared before the one that contains it.
def nested : FabricSpec :=
  { fabric ["b", "a"] [edge "back" "b" "a" 10 1, edge "forth" "a" "b" 10 1] with
    failureDomains := [{ id := ⟨text "host"⟩, parent := ⟨text "rack"⟩, kind := .host },
      { id := ⟨text "rack"⟩, parent := ⟨text "site"⟩, kind := .rack }, { id := ⟨text "site"⟩, kind := .site }] }

theorem nested_accepted : (FabricGraph.build nested).isOk = true := by decide +kernel

end Sample

namespace FabricGraph

theorem nested_faithful : ∃ fabric, build Sample.nested = .ok fabric ∧ Faithful Sample.nested fabric := by
  obtain ⟨fabric, built⟩ := accepted_graph Sample.nested Sample.nested_accepted
  exact ⟨fabric, built, (built_faithful Sample.nested).1 fabric built⟩

end FabricGraph

end PathPlanner

import PathPlanner.Accepted

set_option autoImplicit false

namespace PathPlanner

open Checks Sequence

-- What the builders check of every name and number of an accepted request.
def Named {tag : IdTag} (id : StrongId tag Bytes) : Prop := isValidIdentifier id.value = true

def TierNamed (tier : TierId) : Prop := isValidTierName tier.value = true

-- An optional name is empty or well formed.
def OptionallyNamed {tag : IdTag} (id : StrongId tag Bytes) : Prop := id.valid = true → Named id

def OptionallyTiered (tier : TierId) : Prop := tier.valid = true → TierNamed tier

theorem valid_identifier_widen (name : Bytes) (few many : Nat) (wider : few ≤ many) (valid : validIdentifier name few = true) :
    validIdentifier name many = true := by
  cases name with
  | nil => simp [validIdentifier] at valid
  | cons first rest =>
      simp only [validIdentifier, Bool.and_eq_true, decide_eq_true_eq] at valid ⊢
      exact ⟨⟨valid.1.1.trans wider, valid.1.2⟩, valid.2⟩

theorem TierNamed.named {tier : TierId} (named : TierNamed tier) : Named tier :=
  valid_identifier_widen _ kMaxTierNameBytes kMaxIdentifierBytes (by decide) named

theorem Named.short {tag : IdTag} {id : StrongId tag Bytes} (named : Named id) : id.value.length ≤ kMaxIdentifierBytes :=
  valid_identifier_length _ _ named

theorem Named.nonempty {tag : IdTag} {id : StrongId tag Bytes} (named : Named id) : id.value ≠ [] :=
  valid_identifier_nonempty _ _ named

theorem Named.valid {tag : IdTag} {id : StrongId tag Bytes} (named : Named id) : id.valid = true :=
  (valid_iff_nonempty id).mpr named.nonempty

theorem OptionallyNamed.short {tag : IdTag} {id : StrongId tag Bytes} (named : OptionallyNamed id) :
    id.value.length ≤ kMaxIdentifierBytes := by
  by_cases empty : id.value = []
  · rw [empty]
    exact Nat.zero_le _
  · exact (named ((valid_iff_nonempty id).mpr empty)).short

theorem OptionallyTiered.named {tier : TierId} (tiered : OptionallyTiered tier) : OptionallyNamed tier :=
  fun valid => (tiered valid).named

structure GroupSpec.Named (group : GroupSpec) : Prop where
  id : PathPlanner.Named group.id
  level : group.level < kMaxHierarchyLevels
  nonempty : group.members ≠ []
  few : group.members.length ≤ kMaxGroupMembers
  members : ∀ member ∈ group.members, PathPlanner.Named member
  root : OptionallyNamed group.root
  distinct : group.members.Nodup

structure Collective.Named (collective : Collective) : Prop where
  id : PathPlanner.Named collective.id
  groupCount : collective.groups ≠ [] ∧ collective.groups.length ≤ kMaxGroups
  groups : ∀ group ∈ collective.groups, GroupSpec.Named group
  participantCount : collective.participants.length ≤ kMaxParticipants
  participants : ∀ participant ∈ collective.participants, PathPlanner.Named participant
  edges : ∀ edge ∈ collective.logicalEdges, PathPlanner.Named edge.src ∧ PathPlanner.Named edge.dst
  stages : ∀ stage ∈ collective.logicalEdgeStage, stage < kMaxHierarchyLevels
  stageCount : 1 ≤ collective.stageCount ∧ collective.stageCount ≤ kMaxHierarchyLevels

def Placement.Labelled (placement : Placement) : Prop :=
  ∀ label ∈ [placement.site, placement.pod, placement.rack, placement.host], FabricGraph.validOptionalLabel label = true

structure Node.Named (node : Node) : Prop where
  id : PathPlanner.Named node.id
  placement : Placement.Labelled node.placement
  tier : OptionallyTiered node.tier

structure FailureDomain.Named (domain : FailureDomain) : Prop where
  id : PathPlanner.Named domain.id
  parent : OptionallyNamed domain.parent

structure Edge.Named (edge : Edge) : Prop where
  id : PathPlanner.Named edge.id
  source : PathPlanner.Named edge.source
  target : PathPlanner.Named edge.target
  tier : OptionallyTiered edge.tier
  failureDomain : OptionallyNamed edge.failureDomain
  capacity : edge.capacityMbps ≤ kMaxCapacityMbps
  latency : edge.latencyMicros ≤ kMaxLatencyMicros
  reserved : edge.reservedMbps ≤ edge.capacityMbps

structure FabricGraph.Named (fabric : FabricGraph) : Prop where
  domainCount : fabric.failureDomains.length ≤ kMaxFailureDomains
  nodeCount : fabric.nodes.length ≤ kMaxNodes
  edgeCount : fabric.edges.length ≤ kMaxEdges
  domains : ∀ domain ∈ fabric.failureDomains, FailureDomain.Named domain
  nodes : ∀ node ∈ fabric.nodes, Node.Named node
  edges : ∀ edge ∈ fabric.edges, Edge.Named edge
  domainIds : ∀ id domain, fabric.findFailureDomain id = some domain → domain.id = id

structure Policy.Named (policy : Policy) : Prop where
  expansions : policy.maxSearchExpansions ≤ kMaxSearchExpansions
  few : policy.forbiddenNodes.length ≤ kMaxPolicySetEntries ∧ policy.forbiddenTiers.length ≤ kMaxPolicySetEntries ∧
    policy.forbiddenFailureDomains.length ≤ kMaxPolicySetEntries ∧ policy.allowedPathTiers.length ≤ kMaxPolicySetEntries
  nodes : ∀ node ∈ policy.forbiddenNodes, PathPlanner.Named node
  tiers : ∀ tier ∈ policy.forbiddenTiers, TierNamed tier
  domains : ∀ domain ∈ policy.forbiddenFailureDomains, PathPlanner.Named domain
  allowed : ∀ tier ∈ policy.allowedPathTiers, TierNamed tier

structure EndpointBinding.Named (binding : EndpointBinding) : Prop where
  participant : PathPlanner.Named binding.participant
  node : PathPlanner.Named binding.node
  few : binding.allowedFailureDomains.length ≤ kMaxPolicySetEntries ∧ binding.allowedTiers.length ≤ kMaxPolicySetEntries
  domains : ∀ domain ∈ binding.allowedFailureDomains, PathPlanner.Named domain
  tiers : ∀ tier ∈ binding.allowedTiers, TierNamed tier

structure PlanningRequest.Named (request : PlanningRequest) : Prop where
  collective : Collective.Named request.collective
  fabric : FabricGraph.Named request.fabric
  policy : Policy.Named request.policy
  bindingCount : request.bindings.length ≤ kMaxBindings
  bindings : ∀ binding ∈ request.bindings, EndpointBinding.Named binding

namespace Collective

theorem rotate_ring_perm (members : List ParticipantId) : (rotateRingCanonical members).Perm members := by
  unfold rotateRingCanonical
  split
  · exact List.Perm.refl _
  · exact List.rotate_perm _ _

theorem canonical_members_named (group canonical : GroupSpec) (built : canonicalMembers group = .ok canonical) :
    GroupSpec.Named canonical := by
  have shape : ∃ members : List ParticipantId, members.Perm group.members ∧ canonical = { group with members } ∧
      group.members.Nodup := by
    simp only [canonicalMembers, then_ok] at built
    obtain ⟨_, _, _, _, _, _, built⟩ := built
    split_ifs at built <;> simp only [then_ok, deny_ok, Except.ok.injEq, Bool.not_eq_true, sorted_duplicates_free] at built
    · exact ⟨_, rotate_ring_perm _, built.2.symm, built.1⟩
    · exact ⟨_, sort_values_perm _, built.2.symm, built.1⟩
  obtain ⟨members, perm, rfl, distinct⟩ := shape
  simp only [canonicalMembers, then_ok, deny_ok, for_each_ok, Bool.not_eq_false, not_le, not_lt, not_and, gt_iff_lt,
    ge_iff_le] at built
  obtain ⟨id, level, nonempty, few, named, root, _⟩ := built
  exact {
    id := id
    level := level
    nonempty := fun empty => nonempty (List.perm_nil.mp (perm.symm.trans (List.Perm.of_eq empty)))
    few := perm.length_eq.le.trans few
    members := fun member listed => named member (perm.mem_iff.mp listed)
    root := fun valid => root valid
    distinct := perm.nodup_iff.mpr distinct }

theorem canonical_groups_named (groups canonical : List GroupSpec) (built : canonicalGroups groups = .ok canonical) :
    (∀ group ∈ canonical, GroupSpec.Named group) ∧ canonical.length = groups.length := by
  induction groups generalizing canonical with
  | nil =>
      simp only [canonicalGroups, Except.ok.injEq] at built
      simp [← built]
  | cons head tail ih =>
      obtain ⟨first, firstBuilt, later⟩ := (bind_ok _ _ _).mp built
      obtain ⟨others, restBuilt, eq⟩ := (bind_ok _ _ _).mp later
      rw [Except.ok.injEq] at eq
      subst eq
      obtain ⟨named, same⟩ := ih others restBuilt
      refine ⟨fun group member => ?_, by simp [same]⟩
      rcases List.mem_cons.mp member with rfl | inRest
      · exact canonical_members_named _ _ firstBuilt
      · exact named group inRest

theorem pair_up_members (members : List ParticipantId) : ∀ edge ∈ pairUp members, edge.src ∈ members ∧ edge.dst ∈ members := by
  induction members using pairUp.induct with
  | case1 first second rest ih =>
      intro edge member
      rw [pairUp, List.mem_cons, List.mem_cons] at member
      rcases member with rfl | rfl | inRest
      · simp
      · simp
      · obtain ⟨src, dst⟩ := ih edge inRest
        simp [src, dst]
  | case2 members short =>
      intro edge member
      rw [pairUp] at member
      · simp at member
      · exact short

-- A group derives edges between its own members only.
theorem append_edges_members (group : GroupSpec) (edges : List LogicalEdge) (built : appendGroupEdges group = .ok edges) :
    ∀ edge ∈ edges, edge.src ∈ group.members ∧ edge.dst ∈ group.members := by
  unfold appendGroupEdges at built
  cases pattern : group.pattern with
  | ring =>
      simp only [pattern, then_ok, Except.ok.injEq] at built
      rintro ⟨src, dst⟩ member
      rw [← built.2, ← List.map_uncurry_zip_eq_zipWith, List.mem_map] at member
      obtain ⟨⟨left, right⟩, paired, same⟩ := member
      cases same
      obtain ⟨here, there⟩ := List.of_mem_zip paired
      exact ⟨here, List.mem_rotate.mp there⟩
  | tree =>
      simp only [pattern, then_ok, deny_ok, not_not, Except.ok.injEq] at built
      obtain ⟨_, _, root, rfl⟩ := built
      intro edge member
      obtain ⟨listed, inGroup, derived⟩ := List.mem_flatMap.mp member
      unfold treeEdges at derived
      split_ifs at derived <;> simp at derived
      · rcases derived with rfl | rfl <;> exact ⟨by assumption, by assumption⟩
      · exact derived ▸ ⟨root, inGroup⟩
      · exact derived ▸ ⟨inGroup, root⟩
  | pairwise =>
      simp only [pattern, then_ok, Except.ok.injEq] at built
      rw [← built.2]
      exact pair_up_members _
  | allToAll =>
      simp only [pattern, then_ok, Except.ok.injEq] at built
      intro edge member
      rw [← built.2, List.mem_flatMap] at member
      obtain ⟨src, inGroup, derived⟩ := member
      obtain ⟨dst, kept, rfl⟩ := List.mem_map.mp derived
      exact ⟨inGroup, List.mem_of_mem_filter kept⟩

theorem derive_edges_members (groups : List GroupSpec) (derived : List StagedEdge) (built : deriveEdges groups = .ok derived) :
    ∀ staged ∈ derived, ∃ group ∈ groups, staged.1.src ∈ group.members ∧ staged.1.dst ∈ group.members ∧ staged.2 = group.level := by
  induction groups generalizing derived with
  | nil =>
      simp only [deriveEdges, Except.ok.injEq] at built
      simp [← built]
  | cons head tail ih =>
      obtain ⟨first, firstBuilt, later⟩ := (bind_ok _ _ _).mp built
      obtain ⟨others, restBuilt, eq⟩ := (bind_ok _ _ _).mp later
      rw [Except.ok.injEq] at eq
      subst eq
      intro staged member
      rcases List.mem_append.mp member with here | there
      · obtain ⟨edge, listed, rfl⟩ := List.mem_map.mp here
        obtain ⟨src, dst⟩ := append_edges_members head first firstBuilt edge listed
        exact ⟨head, by simp, src, dst, rfl⟩
      · obtain ⟨group, inTail, facts⟩ := ih others restBuilt staged there
        exact ⟨group, by simp [inTail], facts⟩

theorem stage_count_bounds (stages : List Nat) (start bound : Nat) (low : start ≤ bound) (small : ∀ stage ∈ stages, stage < bound) :
    start ≤ stages.foldl (fun count stage => max count (stage + 1)) start ∧
      stages.foldl (fun count stage => max count (stage + 1)) start ≤ bound := by
  induction stages generalizing start with
  | nil => exact ⟨le_refl _, low⟩
  | cons head tail ih =>
      have here := small head (by simp)
      obtain ⟨above, below⟩ := ih (max start (head + 1)) (by omega) fun stage member => small stage (by simp [member])
      rw [List.foldl_cons]
      exact ⟨le_trans (le_max_left _ _) above, below⟩

theorem build_named (spec : CollectiveSpec) (collective : Collective) (built : build spec = .ok collective) :
    Named collective := by
  unfold build at built
  simp only [then_ok, deny_ok, not_lt, gt_iff_lt, Bool.not_eq_false] at built
  obtain ⟨idValid, someGroups, groupCount, _, built⟩ := built
  obtain ⟨canonical, canonicalBuilt, built⟩ := (bind_ok _ _ _).mp built
  simp only [then_ok] at built
  obtain ⟨_, built⟩ := built
  obtain ⟨derived, derivedBuilt, built⟩ := (bind_ok _ _ _).mp built
  simp only [then_ok, deny_ok, not_lt, Except.ok.injEq] at built
  obtain ⟨_, _, _, participantCount, _, rfl⟩ := built
  obtain ⟨named, same⟩ := canonical_groups_named _ _ canonicalBuilt
  have sorted : (canonical.insertionSort groupNotAfter).Perm canonical := List.perm_insertionSort _ _
  have groups : ∀ group ∈ canonical.insertionSort groupNotAfter, GroupSpec.Named group := fun group member =>
    named group (sorted.mem_iff.mp member)
  have original : ∀ staged ∈ uniqueBy Prod.fst (derived.insertionSort stagedNotAfter), staged ∈ derived := fun staged member =>
    (List.perm_insertionSort stagedNotAfter derived).mem_iff.mp ((unique_sublist _ _).mem member)
  have ends : ∀ staged ∈ derived, PathPlanner.Named staged.1.src ∧ PathPlanner.Named staged.1.dst ∧ staged.2 < kMaxHierarchyLevels := by
    intro staged member
    obtain ⟨group, listed, src, dst, level⟩ := derive_edges_members _ _ derivedBuilt staged member
    have facts := groups group listed
    exact ⟨facts.members _ src, facts.members _ dst, level ▸ facts.level⟩
  have edges : ∀ edge ∈ (uniqueBy Prod.fst (derived.insertionSort stagedNotAfter)).map Prod.fst,
      PathPlanner.Named edge.src ∧ PathPlanner.Named edge.dst := by
    intro edge member
    obtain ⟨staged, kept, rfl⟩ := List.mem_map.mp member
    exact ⟨(ends staged (original staged kept)).1, (ends staged (original staged kept)).2.1⟩
  have stages : ∀ stage ∈ (uniqueBy Prod.fst (derived.insertionSort stagedNotAfter)).map Prod.snd, stage < kMaxHierarchyLevels := by
    intro stage member
    obtain ⟨staged, kept, rfl⟩ := List.mem_map.mp member
    exact (ends staged (original staged kept)).2.2
  refine {
    id := idValid
    groupCount := ⟨fun empty => someGroups ?_, by rw [sorted.length_eq, same]; exact groupCount⟩
    groups := groups
    participantCount := participantCount
    participants := ?_
    edges := edges
    stages := stages
    stageCount := stage_count_bounds _ 1 kMaxHierarchyLevels (by decide) stages }
  · have none : spec.groups.length = 0 := by
      rw [← same, ← sorted.length_eq]
      exact congrArg List.length empty
    exact List.length_eq_zero_iff.mp none
  · intro participant member
    rw [sort_unique_mem, List.mem_flatMap] at member
    obtain ⟨edge, listed, here⟩ := member
    obtain ⟨src, dst⟩ := edges edge listed
    rcases List.mem_pair.mp here with rfl | rfl
    · exact src
    · exact dst

end Collective

namespace FabricGraph

theorem find_indexed_domain (fabric : FabricGraph) (id : FailureDomainId) (domain : FailureDomain)
    (found : (rebuildIndex fabric).findFailureDomain id = some domain) : domain.id = id := by
  obtain ⟨position, indexed, stored⟩ := Option.bind_eq_some_iff.mp found
  have located : (fabric.failureDomains.map FailureDomain.id).findIdx? (· = id) = some position := by
    change (IdMap.emplaceAll {} 0 (fabric.failureDomains.map FailureDomain.id)).find id = some position at indexed
    rw [IdMap.find_emplace_all] at indexed
    simpa [IdMap.find] using indexed
  obtain ⟨bound, matched, _⟩ := List.findIdx?_eq_some_iff_getElem.mp located
  change fabric.failureDomains[position]? = some domain at stored
  obtain ⟨_, rfl⟩ := List.getElem?_eq_some_iff.mp stored
  simpa using matched

theorem build_named (spec : FabricSpec) (fabric : FabricGraph) (built : build spec = .ok fabric) : Named fabric := by
  unfold build at built
  simp only [then_ok, deny_ok, for_each_ok, not_lt, gt_iff_lt] at built
  obtain ⟨domainCount, nodeCount, edgeCount, domainNames, _, _, built⟩ := built
  obtain ⟨chains, _, built⟩ := (bind_ok _ _ _).mp built
  simp only [then_ok, for_each_ok, Except.ok.injEq] at built
  obtain ⟨nodeNames, _, edgeChecks, _, _, rfl⟩ := built
  simp only [checkDomainNames, checkNodeNames, checkEdge, then_ok, deny_ok, not_lt, not_and, not_or, Bool.not_eq_false,
    Bool.and_eq_true, gt_iff_lt] at domainNames nodeNames edgeChecks
  have domains := List.perm_insertionSort (fun lhs rhs : FailureDomain => lhs.id ≤ rhs.id) spec.failureDomains
  have nodes := List.perm_insertionSort (fun lhs rhs : Node => lhs.id ≤ rhs.id) spec.nodes
  have edges := List.perm_insertionSort edgeNotAfter spec.edges
  exact {
    domainCount := domains.length_eq.le.trans domainCount
    nodeCount := nodes.length_eq.le.trans nodeCount
    edgeCount := edges.length_eq.le.trans edgeCount
    domains := fun domain member => by
      obtain ⟨id, parent⟩ := domainNames domain (domains.mem_iff.mp member)
      exact ⟨id, parent⟩
    nodes := fun node member => by
      obtain ⟨id, tier, ⟨⟨site, pod⟩, rack⟩, host⟩ := nodeNames node (nodes.mem_iff.mp member)
      exact ⟨id, by simp [Placement.Labelled, site, pod, rack, host], tier⟩
    edges := fun edge member => by
      obtain ⟨id, ends, tier, domain, capacity, latency, _, reserved, _⟩ := edgeChecks edge (edges.mem_iff.mp member)
      exact ⟨id, ends.1, ends.2, tier, domain, capacity, latency, reserved⟩
    domainIds := fun id domain => find_indexed_domain _ id domain }

end FabricGraph

theorem Policy.validate_named (policy : Policy) (accepted : policy.validate = .ok ()) : Policy.Named policy := by
  simp only [validate, then_ok, deny_ok, for_each_ok, not_or, not_lt, Bool.not_eq_false, gt_iff_lt] at accepted
  obtain ⟨_, _, _, _, _, few, expansions, nodes, tiers, domains, allowed, _⟩ := accepted
  exact ⟨expansions.2, few, nodes, tiers, domains, fun tier member => (allowed tier member).1⟩

namespace PlanningRequest

theorem canonical_bindings_shape (bindings canonical : List EndpointBinding) (built : canonicalBindings bindings = .ok canonical) :
    List.Forall₂ (fun binding kept => canonicalBinding binding = .ok kept) bindings canonical := by
  induction bindings generalizing canonical with
  | nil =>
      simp only [canonicalBindings, Except.ok.injEq] at built
      rw [← built]
      exact List.Forall₂.nil
  | cons head tail ih =>
      obtain ⟨first, firstBuilt, later⟩ := (bind_ok _ _ _).mp built
      obtain ⟨others, restBuilt, eq⟩ := (bind_ok _ _ _).mp later
      rw [Except.ok.injEq] at eq
      subst eq
      exact List.Forall₂.cons firstBuilt (ih others restBuilt)

theorem sort_unique_length {α : Type} [LinearOrder α] (values : List α) : (sortUnique values).length ≤ values.length :=
  (unique_sublist id _).length_le.trans (sort_values_perm values).length_eq.le

theorem canonical_binding_few (binding canonical : EndpointBinding) (built : canonicalBinding binding = .ok canonical) :
    canonical.allowedFailureDomains.length ≤ kMaxPolicySetEntries ∧ canonical.allowedTiers.length ≤ kMaxPolicySetEntries := by
  simp only [canonicalBinding, then_ok, deny_ok, not_or, not_lt, gt_iff_lt, Except.ok.injEq] at built
  obtain ⟨_, few, rfl⟩ := built
  exact ⟨(sort_unique_length _).trans few.1, (sort_unique_length _).trans few.2⟩

theorem find_failure_domain_named {fabric : FabricGraph} (named : FabricGraph.Named fabric) (id : FailureDomainId)
    (found : fabric.findFailureDomain id ≠ none) : PathPlanner.Named id := by
  obtain ⟨domain, found⟩ := Option.ne_none_iff_exists'.mp found
  obtain ⟨position, _, stored⟩ := Option.bind_eq_some_iff.mp found
  rw [← named.domainIds id domain found]
  exact (named.domains domain (List.mem_of_getElem? stored)).id

theorem build_named (spec : RequestSpec) (request : PlanningRequest) (built : buildRequest spec = .ok request) :
    Named request := by
  unfold buildRequest build at built
  obtain ⟨collective, collectiveBuilt, built⟩ := (bind_ok _ _ _).mp built
  obtain ⟨fabric, fabricBuilt, built⟩ := (bind_ok _ _ _).mp built
  simp only [then_ok, deny_ok, not_lt, gt_iff_lt] at built
  obtain ⟨policyValid, _, bindingCount, built⟩ := built
  obtain ⟨canonical, canonicalBuilt, built⟩ := (bind_ok _ _ _).mp built
  simp only [then_ok, Except.ok.injEq] at built
  obtain ⟨_, references, validated, rfl⟩ := built
  have shape := canonical_bindings_shape _ _ canonicalBuilt
  have sorted := List.perm_insertionSort (fun lhs rhs : EndpointBinding => lhs.participant ≤ rhs.participant) canonical
  simp only [validate, then_ok, for_each_ok] at validated
  obtain ⟨_, _, _, _, _, _, checks, _⟩ := validated
  have fabricNamed := FabricGraph.build_named _ _ fabricBuilt
  refine {
    collective := Collective.build_named _ _ collectiveBuilt
    fabric := fabricNamed
    policy := Policy.validate_named _ policyValid
    bindingCount := by
      change (canonical.insertionSort _).length ≤ _
      rw [sorted.length_eq, ← shape.length_eq]
      exact bindingCount
    bindings := fun binding member => ?_ }
  have checked := checks binding member
  simp only [checkBinding, checkBindingNames, checkBindingReferences, then_ok, deny_ok, for_each_ok, Bool.not_eq_false,
    not_not] at checked
  obtain ⟨⟨participant, node⟩, _, _, domains, tiers⟩ := checked
  obtain ⟨position, bound, same⟩ := List.getElem_of_mem (sorted.mem_iff.mp member)
  obtain ⟨length, each⟩ := List.forall₂_iff_get.mp shape
  have few := canonical_binding_few _ _ (each position (by omega) bound)
  rw [List.get_eq_getElem, same] at few
  exact {
    participant := participant
    node := node
    few := few
    domains := fun domain listed => find_failure_domain_named fabricNamed domain (domains domain listed)
    tiers := tiers }

end PlanningRequest

theorem BuiltRequest.named (input : BuiltRequest) : PlanningRequest.Named input.request :=
  PlanningRequest.build_named input.spec input.request input.built

end PathPlanner

import PathPlanner.Planner.Search
import PathPlanner.Mapping

set_option autoImplicit false

namespace PathPlanner

open Sequence Mapping Walk

theorem tier_forbidden_iff (policy : Policy) (sound : Policy.Sound policy) (tier : TierId) :
    tierForbidden policy tier = true ↔ tier ∈ policy.forbiddenTiers := by
  rw [tierForbidden, Bool.and_eq_true,
    binary_search_mem _ _ (sound.tiersSorted.imp fun less => le_of_lt less)]
  constructor
  · exact fun both => both.2
  · intro member
    exact ⟨(valid_iff_nonempty tier).mpr
      (valid_identifier_nonempty _ _ (sound.forbiddenTierNames tier member)), member⟩

theorem tier_outside_iff (policy : Policy) (sound : Policy.Sound policy) (tier : TierId) :
    tierOutside policy tier = false ↔ policy.allowedPathTiers = [] ∨ tier ∈ policy.allowedPathTiers := by
  have listed : (tier.valid = true ∧ binarySearch policy.allowedPathTiers tier = true) ↔
      tier ∈ policy.allowedPathTiers := by
    rw [binary_search_mem _ _ (sound.allowedSorted.imp fun less => le_of_lt less)]
    constructor
    · exact fun both => both.2
    · intro member
      exact ⟨(valid_iff_nonempty tier).mpr
        (valid_identifier_nonempty _ _ (sound.allowedTierNames tier member)), member⟩
  rw [← listed, tierOutside]
  by_cases empty : policy.allowedPathTiers = []
  · simp [empty]
  · have occupied : policy.allowedPathTiers.isEmpty = false := by simpa using empty
    simp [empty, occupied]

theorem node_forbidden_iff (policy : Policy) (sound : Policy.Sound policy) (id : NodeId) :
    nodeForbidden policy id = true ↔ id ∈ policy.forbiddenNodes := by
  rw [nodeForbidden, binary_search_mem _ _ (sound.nodesSorted.imp fun less => le_of_lt less)]

theorem domain_contains_valid (fabric : FabricGraph) (ancestor domain : FailureDomainId)
    (contains : fabric.domainContains ancestor domain = true) : domain.valid = true := by
  simp only [FabricGraph.domainContains, Bool.and_eq_true] at contains
  exact contains.1.2

theorem domain_forbidden_iff (fabric : FabricGraph) (policy : Policy) (domain : FailureDomainId) :
    domainForbidden fabric policy domain = false ↔
      ∀ forbidden ∈ policy.forbiddenFailureDomains, fabric.domainContains forbidden domain = false := by
  rw [domainForbidden, Bool.and_eq_false_iff, List.any_eq_false]
  constructor
  · rintro (invalid | free) forbidden member
    · by_contra inside
      have valid := domain_contains_valid fabric forbidden domain (by simpa using inside)
      simp [invalid] at valid
    · simpa using free forbidden member
  · intro free
    exact Or.inr fun forbidden member => by simp [free forbidden member]

theorem binding_allows_iff (request : PlanningRequest) (binding : EndpointBinding)
    (sound : EndpointBinding.Sound request.fabric binding) (edge : Edge) :
    bindingAllowsEdge request.fabric binding edge = true ↔ BindingPermits request binding edge := by
  have domains : (binding.allowedFailureDomains.isEmpty || (edge.failureDomain.valid &&
      binding.allowedFailureDomains.any fun allowed => request.fabric.domainContains allowed edge.failureDomain)) = true ↔
      binding.allowedFailureDomains = [] ∨
        ∃ allowed ∈ binding.allowedFailureDomains, request.fabric.domainContains allowed edge.failureDomain = true := by
    rw [Bool.or_eq_true, List.isEmpty_iff, Bool.and_eq_true, List.any_eq_true]
    refine or_congr_right ⟨fun both => both.2, fun inside => ⟨?_, inside⟩⟩
    obtain ⟨allowed, _, contains⟩ := inside
    exact domain_contains_valid _ _ _ contains
  have tiers : (binding.allowedTiers.isEmpty || (edge.tier.valid && binarySearch binding.allowedTiers edge.tier)) = true ↔
      binding.allowedTiers = [] ∨ edge.tier ∈ binding.allowedTiers := by
    rw [Bool.or_eq_true, List.isEmpty_iff, Bool.and_eq_true,
      binary_search_mem _ _ (sound.tiersSorted.imp fun less => le_of_lt less)]
    refine or_congr_right ⟨fun both => both.2, fun member => ⟨?_, member⟩⟩
    exact (valid_iff_nonempty _).mpr (valid_identifier_nonempty _ _ (sound.tierNames _ member))
  rw [bindingAllowsEdge, Bool.and_eq_true, domains, tiers]
  exact ⟨fun both => ⟨both.1, both.2⟩, fun permits => ⟨permits.domain, permits.tier⟩⟩

theorem edge_spare_eq (edge : Edge) (verified : edge.capacityMbps ≠ 0) :
    edgeSpare edge = edge.capacityMbps - edge.reservedMbps := by
  unfold edgeSpare
  by_cases saturated : edge.reservedMbps ≥ edge.capacityMbps
  · rw [if_pos (Or.inr saturated)]
    omega
  · rw [if_neg (by simp [verified, not_le.mp saturated])]

namespace Mapping

-- Everything a hop has to satisfy on its own.
structure HopPermitted (request : PlanningRequest) (source target : EndpointBinding) (index : EdgeIndex) : Prop where
  stored : index < request.fabric.edges.length
  edge : EdgeUsable request (request.fabric.edge index)
  node : NodeUsable request (headOf request index)
  sourcePermits : BindingPermits request source (request.fabric.edge index)
  targetPermits : BindingPermits request target (request.fabric.edge index)
  share : CarriesShare request (request.fabric.edge index)

theorem compliant_iff (request : PlanningRequest) (source target : EndpointBinding) (route : Route) :
    CompliantRoute request source target route ↔
      IsWalk (tailOf request) (headOf request) source.node route target.node ∧
      (visited (headOf request) source.node route).Nodup ∧ route.length ≤ request.policy.maxHops ∧
      NodeUsable request source.node ∧ (∀ index ∈ route, HopPermitted request source target index) ∧
      routeCost request route ≤ request.policy.maxPathCost := by
  constructor
  · intro compliant
    refine ⟨compliant.walk, compliant.simple, compliant.hops, compliant.nodes _ (by simp [visited]), ?_, compliant.cost⟩
    intro index member
    exact ⟨compliant.stored index member, compliant.edges index member,
      compliant.nodes _ (by simp only [visited, List.mem_cons, List.mem_map]; exact Or.inr ⟨index, member, rfl⟩),
      compliant.sourcePermits index member, compliant.targetPermits index member, compliant.share index member⟩
  · rintro ⟨walk, simple, hops, start, permitted, cost⟩
    refine ⟨fun index member => (permitted index member).stored, walk, simple, hops, ?_,
      fun index member => (permitted index member).edge, fun index member => (permitted index member).sourcePermits,
      fun index member => (permitted index member).targetPermits, fun index member => (permitted index member).share, cost⟩
    intro node member
    simp only [visited, List.mem_cons, List.mem_map] at member
    rcases member with rfl | ⟨index, inRoute, rfl⟩
    · exact start
    · exact (permitted index inRoute).node

end Mapping

-- A planner state for a request the builder accepted, with the share of its demand.
structure PlannerState.Sound (state : PlannerState) : Prop where
  request : PlanningRequest.Sound state.request
  share : state.perPathDemand = perPathShare state.request

namespace PlannerState.Sound

variable {state : PlannerState}

theorem node_allowed_iff (sound : Sound state) (id : NodeId) (node : NodeIndex)
    (found : state.fabric.nodeIndex id = some node) :
    state.nodeAllowed node = true ↔ NodeUsable state.request id := by
  obtain ⟨_, listed, named⟩ := sound.request.fabric.node_index_some id node found
  have same : ∀ other ∈ state.request.fabric.nodes, other.id = id → other = state.fabric.node node := by
    intro other member eq
    obtain ⟨position, stored, here⟩ := sound.request.fabric.node_index_of other member
    rw [eq] at stored
    have positions : position = node := Option.some.inj (stored.symm.trans found)
    rw [← here, positions]
  rw [nodeAllowed, Bool.and_eq_true, Bool.and_eq_true, Bool.not_eq_true', Bool.not_eq_true',
    ← Bool.not_eq_true, tier_forbidden_iff _ sound.request.policy, ← Bool.not_eq_true,
    node_forbidden_iff _ sound.request.policy]
  have nameEq : (state.fabric.node node).id = id := named
  rw [nameEq]
  constructor
  · rintro ⟨⟨eligible, tier⟩, free⟩
    exact ⟨⟨state.fabric.node node, listed, named, eligible, tier⟩, free⟩
  · rintro ⟨⟨other, member, eq, eligible, tier⟩, free⟩
    rw [← same other member eq]
    exact ⟨⟨eligible, tier⟩, free⟩

theorem edge_usable_iff (sound : Sound state) (index : EdgeIndex) :
    state.edgeStaticallyUsable index = true ↔ EdgeUsable state.request (state.edge index) := by
  have outside : (!tierOutside state.policy (state.edge index).tier) = true ↔
      state.policy.allowedPathTiers = [] ∨ (state.edge index).tier ∈ state.policy.allowedPathTiers := by
    rw [Bool.not_eq_true', tier_outside_iff _ sound.request.policy]
  have free : (!domainForbidden state.fabric state.policy (state.edge index).failureDomain) = true ↔
      ∀ forbidden ∈ state.policy.forbiddenFailureDomains,
        state.fabric.domainContains forbidden (state.edge index).failureDomain = false := by
    rw [Bool.not_eq_true', domain_forbidden_iff]
  have tier : (!tierForbidden state.policy (state.edge index).tier) = true ↔
      (state.edge index).tier ∉ state.policy.forbiddenTiers := by
    rw [Bool.not_eq_true', ← Bool.not_eq_true, tier_forbidden_iff _ sound.request.policy]
  rw [edgeStaticallyUsable, edgeAllowed, Bool.and_eq_true, Bool.and_eq_true, Bool.and_eq_true, Bool.and_eq_true,
    Bool.and_eq_true, tier, outside, free]
  constructor
  · rintro ⟨⟨⟨⟨⟨eligible, tierFree⟩, tierInside⟩, domainFree⟩, evidence⟩, capacity⟩
    refine ⟨eligible, tierFree, tierInside, domainFree, evidence, fun verified => ?_, fun unverified => ?_⟩
    · simpa [if_neg verified] using capacity
    · simpa [if_pos unverified] using capacity
  · rintro ⟨eligible, tierFree, tierInside, domainFree, evidence, verified, unverified⟩
    refine ⟨⟨⟨⟨⟨eligible, tierFree⟩, tierInside⟩, domainFree⟩, evidence⟩, ?_⟩
    by_cases empty : (state.edge index).capacityMbps = 0
    · simpa [if_pos empty] using unverified empty
    · simpa [if_neg empty] using verified empty

theorem carries_iff (sound : Sound state) (index : EdgeIndex) :
    state.edgeCarriesDemand index = true ↔ CarriesShare state.request (state.edge index) := by
  rw [edgeCarriesDemand, Bool.or_eq_true, Bool.or_eq_true, decide_eq_true_iff, decide_eq_true_iff, decide_eq_true_iff,
    CarriesShare, ← sound.share]
  by_cases empty : (state.edge index).capacityMbps = 0
  · simp [empty]
  · rw [spare, edge_spare_eq _ empty]
    constructor
    · rintro ((none | bad) | room) _
      · omega
      · exact absurd bad empty
      · exact room
    · exact fun room => Or.inr (room empty)

end PlannerState.Sound

namespace BlockSet

def Clear (blocks : BlockSet) : Prop := (∀ edge, blocks.edgeBlocked edge = false) ∧ ∀ node, blocks.nodeBlocked node = false

-- No stamp runs ahead of the generation.
structure Bounded (blocks : BlockSet) : Prop where
  edges : ∀ edge, blocks.edgeStamp edge ≤ blocks.generation
  nodes : ∀ node, blocks.nodeStamp node ≤ blocks.generation
  generation : blocks.generation < 2 ^ 32

theorem initial_bounded : Bounded {} := ⟨fun _ => by simp, fun _ => by simp, by decide⟩

theorem initial_clear : Clear {} := ⟨fun _ => rfl, fun _ => rfl⟩

theorem reset_bounded (blocks : BlockSet) (bounded : Bounded blocks) : Bounded blocks.reset := by
  unfold reset
  by_cases wraps : (blocks.generation + 1) % 2 ^ 32 = 0
  · rw [if_pos wraps]
    exact initial_bounded
  · have below := bounded.generation
    have exact : (blocks.generation + 1) % 2 ^ 32 = blocks.generation + 1 := Nat.mod_eq_of_lt (by omega)
    rw [if_neg wraps]
    simp only [exact]
    exact ⟨fun edge => Nat.le_succ_of_le (bounded.edges edge), fun node => Nat.le_succ_of_le (bounded.nodes node),
      by simp only; omega⟩

theorem reset_clear (blocks : BlockSet) (bounded : Bounded blocks) : Clear blocks.reset := by
  unfold reset
  by_cases wraps : (blocks.generation + 1) % 2 ^ 32 = 0
  · rw [if_pos wraps]
    exact initial_clear
  · have below := bounded.generation
    have exact : (blocks.generation + 1) % 2 ^ 32 = blocks.generation + 1 := Nat.mod_eq_of_lt (by omega)
    rw [if_neg wraps]
    simp only [exact]
    constructor
    · intro edge
      have := bounded.edges edge
      simp only [edgeBlocked, beq_eq_false_iff_ne]
      omega
    · intro node
      have := bounded.nodes node
      simp only [nodeBlocked, beq_eq_false_iff_ne]
      omega

theorem block_edge_bounded (blocks : BlockSet) (edge : EdgeIndex) (bounded : Bounded blocks) :
    Bounded (blocks.blockEdge edge) := by
  refine ⟨fun other => ?_, bounded.nodes, bounded.generation⟩
  by_cases same : other = edge
  · subst same
    simp [blockEdge]
  · simpa [blockEdge, Function.update_of_ne same] using bounded.edges other

theorem block_node_bounded (blocks : BlockSet) (node : NodeIndex) (bounded : Bounded blocks) :
    Bounded (blocks.blockNode node) := by
  refine ⟨bounded.edges, fun other => ?_, bounded.generation⟩
  by_cases same : other = node
  · subst same
    simp [blockNode]
  · simpa [blockNode, Function.update_of_ne same] using bounded.nodes other

end BlockSet

namespace PlannerState.Sound

variable {state : PlannerState}

-- Whatever is blocked, a usable hop is a permitted one; with nothing blocked every permitted hop is usable.
theorem hop_permitted (sound : Sound state) (blocks : BlockSet) (source target : EndpointBinding)
    (sourceSound : EndpointBinding.Sound state.fabric source) (targetSound : EndpointBinding.Sound state.fabric target)
    (index : EdgeIndex) (stored : index < state.fabric.edges.length) (next : NodeIndex)
    (found : state.fabric.nodeIndex (state.edge index).target = some next)
    (usable : hopUsable state blocks source target index next = true) :
    HopPermitted state.request source target index := by
  simp only [hopUsable, Bool.and_eq_true] at usable
  obtain ⟨⟨⟨_, node, _⟩, edge, share⟩, sourcePermits, targetPermits⟩ := usable
  exact ⟨stored, (sound.edge_usable_iff index).mp edge, (sound.node_allowed_iff _ next found).mp node,
    (binding_allows_iff _ _ sourceSound _).mp sourcePermits, (binding_allows_iff _ _ targetSound _).mp targetPermits,
    (sound.carries_iff index).mp share⟩

theorem hop_usable (sound : Sound state) (blocks : BlockSet) (clear : blocks.Clear) (source target : EndpointBinding)
    (sourceSound : EndpointBinding.Sound state.fabric source) (targetSound : EndpointBinding.Sound state.fabric target)
    (index : EdgeIndex) (next : NodeIndex) (found : state.fabric.nodeIndex (state.edge index).target = some next)
    (permitted : HopPermitted state.request source target index) :
    hopUsable state blocks source target index next = true := by
  have nodeOk := (sound.node_allowed_iff _ next found).mpr permitted.node
  have edgeOk := (sound.edge_usable_iff index).mpr permitted.edge
  have shareOk := (sound.carries_iff index).mpr permitted.share
  have sourceOk : bindingAllowsEdge state.fabric source (state.edge index) = true :=
    (binding_allows_iff _ _ sourceSound _).mpr permitted.sourcePermits
  have targetOk : bindingAllowsEdge state.fabric target (state.edge index) = true :=
    (binding_allows_iff _ _ targetSound _).mpr permitted.targetPermits
  simp [hopUsable, clear.1 index, clear.2 next, nodeOk, edgeOk, shareOk, sourceOk, targetOk]

end PlannerState.Sound

end PathPlanner

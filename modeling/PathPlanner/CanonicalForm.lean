import PathPlanner.DeclarationOrder
import PathPlanner.Names
import PathPlanner.PlanCodec

set_option autoImplicit false

namespace PathPlanner

open Checks Sequence Permuted

-- The sets inside a binding in any order.
structure EndpointBinding.Rearranged (left right : EndpointBinding) : Prop where
  participant : right.participant = left.participant
  node : right.node = left.node
  domains : left.allowedFailureDomains.Perm right.allowedFailureDomains
  tiers : left.allowedTiers.Perm right.allowedTiers

-- Bindings with one canonical form: their sets have the same elements, and are too large in both or in neither.
structure EndpointBinding.Alike (left right : EndpointBinding) : Prop where
  participant : right.participant = left.participant
  node : right.node = left.node
  domains : ∀ domain, domain ∈ left.allowedFailureDomains ↔ domain ∈ right.allowedFailureDomains
  tiers : ∀ tier, tier ∈ left.allowedTiers ↔ tier ∈ right.allowedTiers
  bounded : (left.allowedFailureDomains.length > kMaxPolicySetEntries ∨ left.allowedTiers.length > kMaxPolicySetEntries) ↔
    (right.allowedFailureDomains.length > kMaxPolicySetEntries ∨ right.allowedTiers.length > kMaxPolicySetEntries)

theorem EndpointBinding.Rearranged.alike (left right : EndpointBinding) (rearranged : EndpointBinding.Rearranged left right) :
    EndpointBinding.Alike left right where
  participant := rearranged.participant
  node := rearranged.node
  domains _ := rearranged.domains.mem_iff
  tiers _ := rearranged.tiers.mem_iff
  bounded := by rw [rearranged.domains.length_eq, rearranged.tiers.length_eq]

theorem EndpointBinding.Rearranged.symm (left right : EndpointBinding) (rearranged : EndpointBinding.Rearranged left right) :
    EndpointBinding.Rearranged right left where
  participant := rearranged.participant.symm
  node := rearranged.node.symm
  domains := rearranged.domains.symm
  tiers := rearranged.tiers.symm

structure Policy.Rearranged (left right : Policy) : Prop where
  rest : right = { left with
    forbiddenNodes := right.forbiddenNodes
    forbiddenTiers := right.forbiddenTiers
    forbiddenFailureDomains := right.forbiddenFailureDomains
    allowedPathTiers := right.allowedPathTiers }
  nodes : left.forbiddenNodes.Perm right.forbiddenNodes
  tiers : left.forbiddenTiers.Perm right.forbiddenTiers
  domains : left.forbiddenFailureDomains.Perm right.forbiddenFailureDomains
  allowed : left.allowedPathTiers.Perm right.allowedPathTiers

theorem sort_unique_perm {α : Type} [LinearOrder α] (left right : List α) (perm : left.Perm right) :
    sortUnique left = sortUnique right :=
  sort_unique_ext left right fun _ => perm.mem_iff

theorem sort_unique_again {α : Type} [LinearOrder α] (values : List α) : sortUnique (sortUnique values) = sortUnique values :=
  sort_unique_ext _ _ fun _ => sort_unique_mem values _

namespace Policy

theorem canonicalize_rearranged (left right : Policy) (rearranged : Rearranged left right) :
    left.canonicalize = right.canonicalize := by
  rw [rearranged.rest]
  simp only [canonicalize, sort_unique_perm _ _ rearranged.nodes, sort_unique_perm _ _ rearranged.tiers,
    sort_unique_perm _ _ rearranged.domains, sort_unique_perm _ _ rearranged.allowed]

theorem canonicalize_again (policy : Policy) : policy.canonicalize.canonicalize = policy.canonicalize := by
  simp only [canonicalize, sort_unique_again]

end Policy

namespace PlanningRequest

theorem canonical_bindings_read (bindings canonical : List EndpointBinding) :
    canonicalBindings bindings = .ok canonical ↔ readAll canonicalBinding bindings = .ok canonical := by
  have same : canonicalBindings bindings = readAll canonicalBinding bindings := by
    induction bindings with
    | nil => rfl
    | cons binding rest ih => simp only [canonicalBindings, readAll, ih]
  rw [same]

theorem canonical_binding_alike (left right : EndpointBinding) (alike : EndpointBinding.Alike left right) (canonical : EndpointBinding)
    (built : canonicalBinding left = .ok canonical) : canonicalBinding right = .ok canonical := by
  obtain ⟨participant, node, domains, tiers⟩ := left
  obtain ⟨otherParticipant, otherNode, otherDomains, otherTiers⟩ := right
  obtain ⟨rfl, rfl, sameDomains, sameTiers, bounded⟩ := alike
  simp only [canonicalBinding, checkBindingNames, then_ok, deny_ok, bounded] at built ⊢
  rw [sort_unique_ext _ _ sameDomains, sort_unique_ext _ _ sameTiers] at built
  exact built

theorem neighbour_bindings_ok (bindings : List EndpointBinding) :
    neighbourBindings bindings = .ok () ↔ bindings.IsChain fun first second => first.participant ≠ second.participant := by
  induction bindings with
  | nil => simp [neighbourBindings]
  | cons first rest ih =>
      cases rest with
      | nil => simp [neighbourBindings]
      | cons second others =>
          rw [neighbourBindings, then_ok, deny_ok, ih, List.isChain_cons_cons]
          exact and_congr_left fun _ => not_congr eq_comm

end PlanningRequest

-- A declaration of the same request, with every list in an order of its own.
structure RequestSpec.Rearranged (left right : RequestSpec) : Prop where
  collective : CollectiveSpec.Rearranged left.collective right.collective
  fabric : FabricSpec.Rearranged left.fabric right.fabric
  policy : Policy.Rearranged left.policy right.policy
  generation : right.planGeneration = left.planGeneration
  bindings : Shuffled EndpointBinding.Rearranged left.bindings right.bindings

-- Declarations that the builder brings to one form.
structure RequestSpec.Alike (left right : RequestSpec) : Prop where
  collective : CollectiveSpec.Rearranged left.collective right.collective
  fabric : FabricSpec.Rearranged left.fabric right.fabric
  policy : left.policy.canonicalize = right.policy.canonicalize
  generation : right.planGeneration = left.planGeneration
  bindings : Shuffled EndpointBinding.Alike left.bindings right.bindings

namespace RequestSpec

theorem Rearranged.alike (left right : RequestSpec) (rearranged : Rearranged left right) : Alike left right where
  collective := rearranged.collective
  fabric := rearranged.fabric
  policy := Policy.canonicalize_rearranged _ _ rearranged.policy
  generation := rearranged.generation
  bindings := Shuffled.imp EndpointBinding.Rearranged.alike _ _ rearranged.bindings

theorem Rearranged.back (left right : RequestSpec) (rearranged : Rearranged left right) : Alike right left where
  collective := {
    id := rearranged.collective.id.symm
    kind := rearranged.collective.kind.symm
    demand := rearranged.collective.demand.symm
    groups := Shuffled.symm (fun _ _ => GroupSpec.Rearranged.symm) _ _ rearranged.collective.groups }
  fabric := {
    topology := rearranged.fabric.topology.symm
    failureDomain := rearranged.fabric.failureDomain.symm
    capacityEvidence := rearranged.fabric.capacityEvidence.symm
    domains := rearranged.fabric.domains.symm
    nodes := rearranged.fabric.nodes.symm
    edges := rearranged.fabric.edges.symm }
  policy := (Policy.canonicalize_rearranged _ _ rearranged.policy).symm
  generation := rearranged.generation.symm
  bindings := Shuffled.imp EndpointBinding.Rearranged.alike _ _
    (Shuffled.symm EndpointBinding.Rearranged.symm _ _ rearranged.bindings)

end RequestSpec

namespace PlanningRequest

theorem build_alike (left right : RequestSpec) (alike : RequestSpec.Alike left right) (request : PlanningRequest)
    (built : buildRequest left = .ok request) : buildRequest right = .ok request := by
  have count := Shuffled.length _ _ alike.bindings
  unfold buildRequest build at built ⊢
  obtain ⟨collective, collectiveBuilt, built⟩ := (bind_ok _ _ _).mp built
  obtain ⟨fabric, fabricBuilt, built⟩ := (bind_ok _ _ _).mp built
  refine (bind_ok _ _ _).mpr ⟨collective, Collective.build_rearranged _ _ alike.collective collective collectiveBuilt,
    (bind_ok _ _ _).mpr ⟨fabric, FabricGraph.build_rearranged _ _ alike.fabric fabric fabricBuilt, ?_⟩⟩
  rw [← alike.policy, alike.generation, ← count]
  rw [then_ok, then_ok, then_ok] at built ⊢
  obtain ⟨policy, generation, few, built⟩ := built
  obtain ⟨canonical, canonicalBuilt, built⟩ := (bind_ok _ _ _).mp built
  obtain ⟨others, othersBuilt, perm⟩ := Shuffled.read canonicalBinding canonical_binding_alike _ _ alike.bindings canonical
    ((canonical_bindings_read _ _).mp canonicalBuilt)
  refine ⟨policy, generation, few, (bind_ok _ _ _).mpr ⟨others, (canonical_bindings_read _ _).mpr othersBuilt, ?_⟩⟩
  have apart := (neighbour_bindings_ok _).mp ((then_ok _ _ _).mp built).1
  rw [← sort_perm_apart EndpointBinding.participant _ (fun _ _ => Iff.rfl) canonical others perm apart]
  exact built

end PlanningRequest

-- What is listed beside the elements of a list is listed, shuffled, beside them in any order.
theorem Shuffled.of_each {α : Type} {relation : α → α → Prop} (lefts middle rights : List α)
    (each : List.Forall₂ relation lefts middle) (perm : middle.Perm rights) : Shuffled relation lefts rights := by
  have both : Relation.Comp (List.Forall₂ relation) List.Perm lefts rights := ⟨middle, each, perm⟩
  rw [List.forall₂_comp_perm_eq_perm_comp_forall₂] at both
  obtain ⟨placed, order, paired⟩ := both
  exact ⟨placed, order, paired⟩

namespace Collective

theorem canonical_rearranged (group canonical : GroupSpec) (same : Canonical group canonical) :
    GroupSpec.Rearranged group canonical where
  rest := by
    obtain ⟨id, level, pattern, direction, root, members⟩ := group
    obtain ⟨otherId, otherLevel, otherPattern, otherDirection, otherRoot, others⟩ := canonical
    obtain ⟨rfl, rfl, rfl, rfl, rfl, _⟩ := same
    rfl
  members := by
    have members := same.members
    split_ifs at members ⊢
    · obtain ⟨turns, rotated⟩ := members
      exact ⟨turns, rotated.symm⟩
    · rw [members]
      exact (sort_values_perm group.members).symm

-- The groups of a built collective are those declared, in canonical form.
theorem build_declared (spec : CollectiveSpec) (collective : Collective) (built : build spec = .ok collective) :
    CollectiveSpec.Rearranged spec ⟨collective.id, collective.kind, collective.demandMbps, collective.groups⟩ := by
  unfold build at built
  simp only [then_ok] at built
  obtain ⟨_, _, _, _, built⟩ := built
  obtain ⟨canonical, canonicalBuilt, built⟩ := (bind_ok _ _ _).mp built
  simp only [then_ok] at built
  obtain ⟨_, built⟩ := built
  obtain ⟨derived, _, built⟩ := (bind_ok _ _ _).mp built
  simp only [then_ok, Except.ok.injEq] at built
  obtain ⟨_, _, _, _, _, rfl⟩ := built
  have each := (canonical_groups_each _ _ canonicalBuilt).imp canonical_rearranged
  exact ⟨rfl, rfl, rfl, Shuffled.of_each _ canonical _ each (List.perm_insertionSort groupNotAfter canonical).symm⟩

end Collective

namespace FabricGraph

-- The records of a built fabric are those declared, in canonical order.
theorem build_declared (spec : FabricSpec) (fabric : FabricGraph) (built : build spec = .ok fabric) :
    FabricSpec.Rearranged spec ⟨fabric.topologyGeneration, fabric.failureDomainGeneration, fabric.capacityEvidenceGeneration,
      fabric.failureDomains, fabric.nodes, fabric.edges⟩ := by
  have faithful := staged_faithful spec fabric (build_staged spec fabric built)
  rw [build_before_validate, beforeValidate] at built
  simp only [then_ok] at built
  obtain ⟨_, _, _, _, built⟩ := built
  obtain ⟨withDomains, domainsBuilt, built⟩ := (bind_ok _ _ _).mp built
  obtain ⟨withNodes, nodesBuilt, edgesBuilt⟩ := (bind_ok _ _ _).mp built
  simp only [domainStage, then_ok] at domainsBuilt
  obtain ⟨_, _, domainsBuilt⟩ := domainsBuilt
  obtain ⟨chains, _, domainsBuilt⟩ := (bind_ok _ _ _).mp domainsBuilt
  obtain rfl := Except.ok.inj domainsBuilt
  simp only [nodeStage, then_ok, Except.ok.injEq] at nodesBuilt
  obtain ⟨_, _, rfl⟩ := nodesBuilt
  simp only [edgeStage, then_ok, Except.ok.injEq] at edgesBuilt
  obtain ⟨_, _, rfl⟩ := edgesBuilt
  exact ⟨rfl, rfl, rfl, faithful.domains.symm, faithful.nodes.symm, faithful.edges.symm⟩

end FabricGraph

namespace PlanningRequest

-- The declaration a request stands for once its lists are in canonical form.
def canonicalForm (request : PlanningRequest) : RequestSpec where
  collective := ⟨request.collective.id, request.collective.kind, request.collective.demandMbps, request.collective.groups⟩
  fabric := ⟨request.fabric.topologyGeneration, request.fabric.failureDomainGeneration, request.fabric.capacityEvidenceGeneration,
    request.fabric.failureDomains, request.fabric.nodes, request.fabric.edges⟩
  policy := request.policy
  planGeneration := request.planGeneration
  bindings := request.bindings

theorem canonical_binding_same (binding canonical : EndpointBinding) (built : canonicalBinding binding = .ok canonical) :
    EndpointBinding.Alike binding canonical := by
  simp only [canonicalBinding, then_ok, deny_ok, not_or, not_lt, gt_iff_lt, Except.ok.injEq] at built
  obtain ⟨_, few, rfl⟩ := built
  have small : (sortUnique binding.allowedFailureDomains).length ≤ kMaxPolicySetEntries ∧
      (sortUnique binding.allowedTiers).length ≤ kMaxPolicySetEntries :=
    ⟨(sort_unique_length _).trans few.1, (sort_unique_length _).trans few.2⟩
  refine ⟨rfl, rfl, fun _ => (sort_unique_mem _ _).symm, fun _ => (sort_unique_mem _ _).symm, ?_⟩
  simp only [gt_iff_lt, ← not_le, few, small, not_true_eq_false, or_self]

theorem canonical_form_alike (spec : RequestSpec) (request : PlanningRequest) (built : buildRequest spec = .ok request) :
    RequestSpec.Alike spec request.canonicalForm := by
  have parts := build_parts spec request built
  refine {
    collective := Collective.build_declared _ _ parts.collective
    fabric := FabricGraph.build_declared _ _ parts.fabric
    policy := ?_
    generation := parts.generation
    bindings := ?_ }
  · rw [canonicalForm, parts.policy, Policy.canonicalize_again]
  · unfold buildRequest build at built
    obtain ⟨collective, _, built⟩ := (bind_ok _ _ _).mp built
    obtain ⟨fabric, _, built⟩ := (bind_ok _ _ _).mp built
    simp only [then_ok] at built
    obtain ⟨_, _, _, built⟩ := built
    obtain ⟨canonical, canonicalBuilt, built⟩ := (bind_ok _ _ _).mp built
    simp only [then_ok, Except.ok.injEq] at built
    obtain ⟨_, _, _, rfl⟩ := built
    have each := ((read_all_ok _ _ _).mp ((canonical_bindings_read _ _).mp canonicalBuilt)).imp canonical_binding_same
    exact Shuffled.of_each _ canonical _ each (List.perm_insertionSort _ canonical).symm

-- Nothing that is built or planned depends on the order of a declaration, and a canonical form is its own.
theorem declaration_order_irrelevant (left right : RequestSpec) (rearranged : RequestSpec.Rearranged left right) :
    ((∃ request, buildRequest left = .ok request) ↔ ∃ request, buildRequest right = .ok request) ∧
    (∀ one other, buildRequest left = .ok one → buildRequest right = .ok other →
      one.encodeCanonical = other.encodeCanonical ∧ one.canonicalDigest = other.canonicalDigest ∧
      ∀ limits, (planCollective one limits).plan.map Plan.encode = (planCollective other limits).plan.map Plan.encode ∧
        (planCollective one limits).denials = (planCollective other limits).denials) ∧
    ∀ request, buildRequest left = .ok request → buildRequest request.canonicalForm = .ok request := by
  have forth := build_alike left right (RequestSpec.Rearranged.alike left right rearranged)
  have back := build_alike right left (RequestSpec.Rearranged.back left right rearranged)
  refine ⟨⟨?_, ?_⟩, ?_, ?_⟩
  · rintro ⟨request, built⟩
    exact ⟨request, forth request built⟩
  · rintro ⟨request, built⟩
    exact ⟨request, back request built⟩
  · intro one other leftBuilt rightBuilt
    have same : one = other := Except.ok.inj ((forth one leftBuilt).symm.trans rightBuilt)
    rw [same]
    exact ⟨rfl, rfl, fun _ => ⟨rfl, rfl⟩⟩
  · intro request built
    exact build_alike left _ (canonical_form_alike left request built) request built

end PlanningRequest

namespace Sample

-- One request declared twice, no list of it in the same order.
def declared : RequestSpec :=
  request .tree (star ["p", "q", "r"]) 1 (fabric ["a", "b"] [edge "e1" "a" "b" 1 10, edge "e2" "a" "b" 1 20])
    [binding "p" "a", binding "q" "b", binding "r" "b"]

def redeclared : RequestSpec :=
  request .tree (star ["r", "p", "q"]) 1 (fabric ["b", "a"] [edge "e2" "a" "b" 1 20, edge "e1" "a" "b" 1 10])
    [binding "r" "b", binding "p" "a", binding "q" "b"]

theorem redeclared_rearranged : RequestSpec.Rearranged declared redeclared where
  collective := ⟨rfl, rfl, rfl, _, .refl _, .cons ⟨rfl, by decide +kernel⟩ .nil⟩
  fabric := ⟨rfl, rfl, rfl, .refl _, by decide +kernel, by decide +kernel⟩
  policy := ⟨rfl, .refl _, .refl _, .refl _, .refl _⟩
  generation := rfl
  bindings := ⟨redeclared.bindings, by decide +kernel, List.forall₂_same.mpr fun _ _ => ⟨rfl, rfl, .refl _, .refl _⟩⟩

end Sample

theorem PlanningRequest.redeclared_accepted : ∃ request, buildRequest Sample.redeclared = .ok request := by
  have accepted : (buildRequest Sample.declared).isOk = true := draft_accepted Sample.declared (by decide +kernel)
  apply (PlanningRequest.declaration_order_irrelevant Sample.declared Sample.redeclared Sample.redeclared_rearranged).1.mp
  exact ⟨_, (BuiltRequest.of Sample.declared accepted).built⟩

end PathPlanner

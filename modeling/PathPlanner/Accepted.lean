import PathPlanner.FabricIndex

set_option autoImplicit false

namespace PathPlanner

open Checks Sequence

namespace FabricGraph

variable {fabric : FabricGraph}

theorem edge_member (fabric : FabricGraph) (index : EdgeIndex) (bound : index < fabric.edges.length) :
    fabric.edge index ∈ fabric.edges := by
  have eq : fabric.edge index = fabric.edges[index] := by
    simp [edge, List.getD_eq_getElem?_getD, bound]
  rw [eq]
  exact List.getElem_mem bound

theorem edge_index_of (fabric : FabricGraph) (record : Edge) (member : record ∈ fabric.edges) :
    ∃ index, index < fabric.edges.length ∧ fabric.edge index = record := by
  obtain ⟨index, bound, eq⟩ := List.getElem_of_mem member
  exact ⟨index, bound, by simp [edge, List.getD_eq_getElem?_getD, bound, eq]⟩

theorem edge_id_stored (fabric : FabricGraph) (index : EdgeIndex) (bound : index < fabric.edges.length) :
    (fabric.edges.map Edge.id)[index]? = some (fabric.edge index).id := by
  simp [edge, List.getD_eq_getElem?_getD, bound]

namespace Sound

theorem edge_id_injective (sound : Sound fabric) (a b : EdgeIndex) (boundA : a < fabric.edges.length)
    (boundB : b < fabric.edges.length) (same : (fabric.edge a).id = (fabric.edge b).id) : a = b := by
  have left := (sound.edgeAt _ a).mpr (edge_id_stored fabric a boundA)
  have right := (sound.edgeAt _ b).mpr (edge_id_stored fabric b boundB)
  rw [same, right] at left
  exact (Option.some.inj left).symm

theorem find_edge_index (sound : Sound fabric) (index : EdgeIndex) (bound : index < fabric.edges.length) :
    fabric.findEdge (fabric.edge index).id = some (fabric.edge index) := by
  unfold findEdge
  rw [(sound.edgeAt _ index).mpr (edge_id_stored fabric index bound)]
  simp [edge, List.getD_eq_getElem?_getD, bound]

theorem find_edge_some (sound : Sound fabric) (id : EdgeId) (record : Edge)
    (found : fabric.findEdge id = some record) :
    ∃ index, index < fabric.edges.length ∧ fabric.edge index = record ∧ record.id = id := by
  unfold findEdge at found
  obtain ⟨index, stored, taken⟩ := Option.bind_eq_some_iff.mp found
  have named := (sound.edgeAt id index).mp stored
  obtain ⟨bound, eq⟩ := List.getElem?_eq_some_iff.mp taken
  refine ⟨index, bound, by simp [edge, List.getD_eq_getElem?_getD, bound, eq], ?_⟩
  rw [List.getElem?_map, taken] at named
  simpa using named

theorem node_index_some (sound : Sound fabric) (id : NodeId) (position : NodeIndex)
    (found : fabric.nodeIndex id = some position) :
    position < fabric.nodes.length ∧ fabric.node position ∈ fabric.nodes ∧ (fabric.node position).id = id := by
  have stored := (sound.nodeAt id position).mp found
  rw [List.getElem?_map] at stored
  obtain ⟨record, taken, named⟩ := Option.map_eq_some_iff.mp stored
  obtain ⟨bound, eq⟩ := List.getElem?_eq_some_iff.mp taken
  have here : fabric.node position = record := by
    simp [node, List.getD_eq_getElem?_getD, bound, eq]
  exact ⟨bound, by rw [here]; exact List.mem_of_getElem? taken, by rw [here]; exact named⟩

theorem node_index_injective (sound : Sound fabric) (a b : NodeId) (position : NodeIndex)
    (left : fabric.nodeIndex a = some position) (right : fabric.nodeIndex b = some position) : a = b := by
  rw [← (sound.node_index_some a position left).2.2, (sound.node_index_some b position right).2.2]

theorem node_index_of (sound : Sound fabric) (record : Node) (member : record ∈ fabric.nodes) :
    ∃ position, fabric.nodeIndex record.id = some position ∧ fabric.node position = record := by
  obtain ⟨position, bound, eq⟩ := List.getElem_of_mem member
  refine ⟨position, (sound.nodeAt _ position).mpr (by simp [bound, eq]), ?_⟩
  simp [node, List.getD_eq_getElem?_getD, bound, eq]

theorem mem_out_edges (sound : Sound fabric) (node : NodeIndex) (index : EdgeIndex) :
    index ∈ fabric.outEdges node ↔
      index < fabric.edges.length ∧ fabric.nodeIndex (fabric.edge index).source = some node := by
  rw [sound.outgoing node, List.mem_filter, List.mem_range, decide_eq_true_iff]

end Sound

end FabricGraph

structure Collective.Sound (collective : Collective) : Prop where
  nonempty : collective.logicalEdges ≠ []
  bounded : collective.logicalEdges.length ≤ kMaxLogicalEdges
  parallel : collective.logicalEdgeStage.length = collective.logicalEdges.length
  ordered : collective.logicalEdges.IsChain LogicalEdge.less
  loopFree : ∀ edge ∈ collective.logicalEdges, edge.src ≠ edge.dst
  staged : ∀ stage ∈ collective.logicalEdgeStage, stage < collective.stageCount
  demand : collective.demandMbps ≤ kMaxCapacityMbps

theorem Collective.build_sound (spec : CollectiveSpec) (collective : Collective)
    (built : Collective.build spec = .ok collective) : Collective.Sound collective := by
  unfold Collective.build at built
  simp only [then_ok, deny_ok, not_lt, gt_iff_lt] at built
  obtain ⟨_, _, _, demand, built⟩ := built
  obtain ⟨canonical, _, built⟩ := (bind_ok _ _ _).mp built
  simp only [then_ok] at built
  obtain ⟨_, built⟩ := built
  obtain ⟨derived, _, built⟩ := (bind_ok _ _ _).mp built
  simp only [then_ok, Except.ok.injEq] at built
  obtain ⟨_, _, _, _, validated, rfl⟩ := built
  simp only [Collective.validate, then_ok, deny_ok, for_each_ok, not_lt, not_not, ne_eq, gt_iff_lt, ge_iff_le,
    not_le] at validated
  obtain ⟨nonempty, bounded, parallel, ordered, loopFree, _, _, staged⟩ := validated
  exact ⟨nonempty, bounded, parallel, ordered, loopFree, staged, demand⟩

structure EndpointBinding.Sound (fabric : FabricGraph) (binding : EndpointBinding) : Prop where
  known : ∃ position, fabric.nodeIndex binding.node = some position
  tierNames : ∀ tier ∈ binding.allowedTiers, isValidTierName tier.value = true
  tiersSorted : binding.allowedTiers.Pairwise (· < ·)

namespace PlanningRequest

-- What every request the builder returns guarantees.
structure Sound (request : PlanningRequest) : Prop where
  collective : Collective.Sound request.collective
  fabric : FabricGraph.Sound request.fabric
  policy : Policy.Sound request.policy
  bindings : ∀ binding ∈ request.bindings, EndpointBinding.Sound request.fabric binding
  ordered : (request.bindings.map EndpointBinding.participant).Pairwise (· < ·)
  validated : request.validate = .ok ()

theorem canonical_bindings_sorted (bindings canonical : List EndpointBinding)
    (built : canonicalBindings bindings = .ok canonical) :
    ∀ binding ∈ canonical, binding.allowedTiers.Pairwise (· < ·) := by
  induction bindings generalizing canonical with
  | nil =>
      simp only [canonicalBindings, Except.ok.injEq] at built
      simp [← built]
  | cons head tail ih =>
      obtain ⟨first, firstBuilt, later⟩ := (bind_ok _ _ _).mp built
      obtain ⟨others, restBuilt, eq⟩ := (bind_ok _ _ _).mp later
      rw [Except.ok.injEq] at eq
      intro binding member
      rw [← eq, List.mem_cons] at member
      rcases member with rfl | inRest
      · simp only [canonicalBinding, then_ok, Except.ok.injEq] at firstBuilt
        rw [← firstBuilt.2.2]
        exact sort_unique_strict _
      · exact ih others restBuilt binding inRest

theorem build_sound (spec : RequestSpec) (request : PlanningRequest) (built : buildRequest spec = .ok request) :
    Sound request := by
  unfold buildRequest build at built
  obtain ⟨collective, collectiveBuilt, built⟩ := (bind_ok _ _ _).mp built
  obtain ⟨fabric, fabricBuilt, built⟩ := (bind_ok _ _ _).mp built
  simp only [then_ok] at built
  obtain ⟨policyValid, _, _, built⟩ := built
  obtain ⟨canonical, canonicalBuilt, built⟩ := (bind_ok _ _ _).mp built
  simp only [then_ok, Except.ok.injEq] at built
  obtain ⟨_, references, validated, rfl⟩ := built
  have accepted := validated
  simp only [validate, then_ok, deny_ok, Bool.not_eq_false, ascending_iff] at accepted
  refine {
    collective := Collective.build_sound _ _ collectiveBuilt
    fabric := FabricGraph.build_sound _ _ fabricBuilt
    policy := Policy.validate_sound _ policyValid
    bindings := ?_
    ordered := accepted.2.2.2.2.2.1
    validated := validated }
  intro binding member
  have checked := (for_each_ok _ _).mp references binding member
  simp only [checkBindingReferences, then_ok, deny_ok, for_each_ok, Bool.not_eq_false] at checked
  obtain ⟨_, nodeKnown, _, tierNames⟩ := checked
  obtain ⟨node, found⟩ := Option.ne_none_iff_exists'.mp nodeKnown
  exact ⟨FabricGraph.find_node_some _ _ node found, tierNames,
    canonical_bindings_sorted _ _ canonicalBuilt binding
      ((List.perm_insertionSort _ canonical).mem_iff.mp member)⟩

-- Where the parts of an accepted request come from.
structure BuiltFrom (spec : RequestSpec) (request : PlanningRequest) : Prop where
  collective : Collective.build spec.collective = .ok request.collective
  fabric : FabricGraph.build spec.fabric = .ok request.fabric
  policy : request.policy = spec.policy.canonicalize
  generation : request.planGeneration = spec.planGeneration
  digest : request.canonicalDigest = Sha256.hash request.encodeCanonical
  bytes : request.canonicalBytes = request.encodeCanonical.length

theorem build_parts (spec : RequestSpec) (request : PlanningRequest) (built : buildRequest spec = .ok request) :
    BuiltFrom spec request := by
  unfold buildRequest build at built
  obtain ⟨collective, collectiveBuilt, built⟩ := (bind_ok _ _ _).mp built
  obtain ⟨fabric, fabricBuilt, built⟩ := (bind_ok _ _ _).mp built
  simp only [then_ok] at built
  obtain ⟨_, _, _, built⟩ := built
  obtain ⟨canonical, _, built⟩ := (bind_ok _ _ _).mp built
  simp only [then_ok, Except.ok.injEq] at built
  obtain ⟨_, _, _, rfl⟩ := built
  exact ⟨collectiveBuilt, fabricBuilt, rfl, rfl, rfl, rfl⟩

theorem find_binding_some (request : PlanningRequest) (participant : ParticipantId) (binding : EndpointBinding)
    (found : request.findBinding participant = some binding) :
    binding ∈ request.bindings ∧ binding.participant = participant := by
  unfold findBinding at found
  split at found
  · simp at found
  · rename_i first rest dropped
    by_cases same : first.participant = participant
    · rw [if_pos same, Option.some.injEq] at found
      subst found
      have kept : (first :: rest).Sublist request.bindings := by
        rw [← dropped]
        exact List.dropWhile_sublist _
      exact ⟨kept.mem List.mem_cons_self, same⟩
    · simp [if_neg same] at found

-- The checks of validate that come before the two digests are compared.
def validateParts (request : PlanningRequest) : Result Unit := do
  request.collective.validate
  request.fabric.validate
  request.policy.validate
  deny (request.planGeneration.valid = false) (failure .missingRequiredField "plan generation must be set")
  deny (request.bindings.length > kMaxBindings) (failure .tooManyItems "binding count exceeds limit")
  deny (ascending (request.bindings.map EndpointBinding.participant) = false)
    (failure .inconsistentMetadata "bindings are not in canonical order")
  forEach (checkBinding request.collective request.fabric) request.bindings

-- The request with the digest of its own encoding.
def signed (request : PlanningRequest) : PlanningRequest :=
  { request with canonicalBytes := request.encodeCanonical.length, canonicalDigest := Sha256.hash request.encodeCanonical }

theorem signed_validate (request : PlanningRequest) :
    request.signed.validate = .ok () ↔ request.signed.validateParts = .ok () := by
  have digest : Sha256.hash request.signed.encodeCanonical = request.signed.canonicalDigest := rfl
  simp [validate, validateParts, deny_ok, digest]

-- What the builder returns, put together without comparing the digest with itself.
def draft (spec : RequestSpec) : Result PlanningRequest := do
  let collective ← Collective.build spec.collective
  let fabric ← FabricGraph.build spec.fabric
  let policy := spec.policy.canonicalize
  policy.validate
  deny (spec.planGeneration.valid = false) (failure .missingRequiredField "plan generation must be set")
  deny (spec.bindings.length > kMaxBindings) (failure .tooManyItems "binding count exceeds limit")
  let canonical ← canonicalBindings spec.bindings
  let bindings := canonical.insertionSort fun lhs rhs => lhs.participant ≤ rhs.participant
  neighbourBindings bindings
  forEach (checkBindingReferences collective fabric) bindings
  let request : PlanningRequest := { collective, fabric, policy, planGeneration := spec.planGeneration, bindings }
  request.signed.validateParts
  .ok request.signed

theorem build_draft (spec : RequestSpec) (request : PlanningRequest) :
    buildRequest spec = .ok request ↔ draft spec = .ok request := by
  unfold buildRequest build draft
  refine bind_congr_ok fun collective => bind_congr_ok fun fabric => bind_congr_ok fun _ => bind_congr_ok fun _ =>
    bind_congr_ok fun _ => bind_congr_ok fun canonical => bind_congr_ok fun _ => bind_congr_ok fun _ => ?_
  simp only [then_ok]
  exact and_congr_left fun _ => signed_validate { collective, fabric, policy := spec.policy.canonicalize
                                                  planGeneration := spec.planGeneration
                                                  bindings := canonical.insertionSort fun lhs rhs =>
                                                    lhs.participant ≤ rhs.participant }

end PlanningRequest

-- A request together with the description the builder accepted it from.
structure BuiltRequest where
  request : PlanningRequest
  spec : RequestSpec
  built : buildRequest spec = .ok request

theorem BuiltRequest.sound (input : BuiltRequest) : PlanningRequest.Sound input.request :=
  PlanningRequest.build_sound input.spec input.request input.built

theorem BuiltRequest.parts (input : BuiltRequest) : PlanningRequest.BuiltFrom input.spec input.request :=
  PlanningRequest.build_parts input.spec input.request input.built

-- The request a description is accepted as; the empty one stands for a refusal.
def acceptedRequest (spec : RequestSpec) : PlanningRequest := ((buildRequest spec).toOption).getD {}

def BuiltRequest.of (spec : RequestSpec) (accepted : (buildRequest spec).isOk = true) : BuiltRequest where
  request := acceptedRequest spec
  spec := spec
  built := by
    unfold acceptedRequest
    cases outcome : buildRequest spec with
    | error status => simp [outcome, Except.isOk, Except.toBool] at accepted
    | ok request => rfl

-- The same request with its digest left unevaluated.
def draftedRequest (spec : RequestSpec) : PlanningRequest := ((PlanningRequest.draft spec).toOption).getD {}

theorem draft_accepted (spec : RequestSpec) (drafted : (PlanningRequest.draft spec).isOk = true) :
    (buildRequest spec).isOk = true := by
  cases outcome : PlanningRequest.draft spec with
  | error status => simp [outcome, Except.isOk, Except.toBool] at drafted
  | ok request =>
      rw [(PlanningRequest.build_draft spec request).mpr outcome]
      rfl

theorem BuiltRequest.drafted (input : BuiltRequest) : input.request = draftedRequest input.spec := by
  rw [draftedRequest, (PlanningRequest.build_draft _ _).mp input.built]
  rfl

-- Small requests over one rack, for concrete instances.
namespace Sample

def node (name : String) : Node := { id := ⟨text name⟩ }

def edge (name source target : String) (capacity latency : Nat) : Edge :=
  { id := ⟨text name⟩, source := ⟨text source⟩, target := ⟨text target⟩, capacityMbps := capacity, latencyMicros := latency,
    evidence := .measured, failureDomain := ⟨text "rack"⟩ }

def fabric (nodes : List String) (edges : List Edge) : FabricSpec :=
  { topologyGeneration := ⟨1⟩, failureDomainGeneration := ⟨1⟩, capacityEvidenceGeneration := ⟨1⟩,
    failureDomains := [{ id := ⟨text "rack"⟩, kind := .rack }], nodes := nodes.map node, edges }

def binding (participant node : String) : EndpointBinding := { participant := ⟨text participant⟩, node := ⟨text node⟩ }

def request (kind : CollectiveKind) (group : GroupSpec) (demand : Nat) (fabric : FabricSpec) (bindings : List EndpointBinding) :
    RequestSpec :=
  { collective := { id := ⟨text "c"⟩, kind, demandMbps := demand, groups := [group] }, fabric,
    policy := { generation := ⟨1⟩ }, planGeneration := ⟨1⟩, bindings }

def star (members : List String) : GroupSpec :=
  { id := ⟨text "g"⟩, pattern := .tree, root := ⟨text "p"⟩, members := members.map fun name => ⟨text name⟩ }

end Sample

end PathPlanner

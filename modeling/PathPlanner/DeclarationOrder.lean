import PathPlanner.Planner.Outcome
import PathPlanner.Rearranged

set_option autoImplicit false

namespace PathPlanner

open Checks Sequence Permuted

structure CollectiveSpec.Rearranged (left right : CollectiveSpec) : Prop where
  id : right.id = left.id
  kind : right.kind = left.kind
  demand : right.demandMbps = left.demandMbps
  groups : Shuffled GroupSpec.Rearranged left.groups right.groups

namespace Collective

theorem canonical_groups_shuffled (left right canonical : List GroupSpec) (shuffled : Shuffled GroupSpec.Rearranged left right)
    (built : canonicalGroups left = .ok canonical) : ∃ others, canonicalGroups right = .ok others ∧ canonical.Perm others := by
  have each (groups : List GroupSpec) (results : List GroupSpec) : canonicalGroups groups = .ok results ↔
      readAll canonicalMembers groups = .ok results := by
    rw [canonical_groups_ok, read_all_ok]
  rw [each] at built
  obtain ⟨others, done, perm⟩ :=
    Shuffled.read canonicalMembers (fun _ _ related => related.canonical) left right shuffled canonical built
  exact ⟨others, (each _ _).mpr done, perm⟩

-- Groups of which no two neighbours in the order of level and identity share one are sorted to one list.
theorem sorted_groups_perm (left right : List GroupSpec) (perm : left.Perm right)
    (apart : neighbourIds (left.insertionSort groupNotAfter) = .ok ()) :
    left.insertionSort groupNotAfter = right.insertionSort groupNotAfter := by
  refine sort_perm_apart groupKey groupNotAfter group_not_after_key left right perm ?_
  refine ((neighbour_ids_ok _).mp apart).imp fun a b near same => ?_
  exact near (congrArg (fun key => (ofLex key).2) same)

theorem build_rearranged (left right : CollectiveSpec) (rearranged : CollectiveSpec.Rearranged left right) (collective : Collective)
    (built : build left = .ok collective) : build right = .ok collective := by
  have count := Shuffled.length left.groups right.groups rearranged.groups
  unfold build at built ⊢
  rw [rearranged.id, rearranged.kind, rearranged.demand]
  simp only [then_ok, deny_ok, not_lt, gt_iff_lt] at built ⊢
  obtain ⟨name, declared, few, demand, built⟩ := built
  obtain ⟨canonical, canonicalBuilt, built⟩ := (bind_ok _ _ _).mp built
  obtain ⟨others, othersBuilt, perm⟩ := canonical_groups_shuffled _ _ canonical rearranged.groups canonicalBuilt
  have apart : neighbourIds (canonical.insertionSort groupNotAfter) = .ok () := (then_ok _ _ _).mp built |>.1
  refine ⟨name, fun empty => declared ?_, by rwa [← count], demand, (bind_ok _ _ _).mpr ⟨others, othersBuilt, ?_⟩⟩
  · rw [empty, List.length_nil] at count
    exact List.length_eq_zero_iff.mp count
  · rw [← sorted_groups_perm canonical others perm apart]
    exact built

end Collective

structure FabricSpec.Rearranged (left right : FabricSpec) : Prop where
  topology : right.topologyGeneration = left.topologyGeneration
  failureDomain : right.failureDomainGeneration = left.failureDomainGeneration
  capacityEvidence : right.capacityEvidenceGeneration = left.capacityEvidenceGeneration
  domains : left.failureDomains.Perm right.failureDomains
  nodes : left.nodes.Perm right.nodes
  edges : left.edges.Perm right.edges

namespace FabricGraph

-- Records of which no two share an identity are sorted to one list.
theorem sorted_records_perm {α : Type} {tag : IdTag} (lead : String) (id : α → StrongId tag Bytes) (left right : List α)
    (perm : left.Perm right) (distinct : neighbourDuplicates lead id (left.insertionSort fun lhs rhs => id lhs ≤ id rhs) = .ok ()) :
    (left.insertionSort fun lhs rhs => id lhs ≤ id rhs) = right.insertionSort fun lhs rhs => id lhs ≤ id rhs := by
  have unique : ((left.insertionSort fun lhs rhs => id lhs ≤ id rhs).map id).Nodup :=
    (sorted_by_id lead id left distinct).imp ne_of_lt
  refine sort_perm id _ (fun _ _ => Iff.rfl) left right perm fun a first b second same => ?_
  exact List.inj_on_of_nodup_map unique ((List.mem_insertionSort _).mpr first) ((List.mem_insertionSort _).mpr second) same

theorem sorted_edges_perm (left right : List Edge) (perm : left.Perm right)
    (distinct : checkEdgeIdentities (left.insertionSort edgeNotAfter) = .ok ()) :
    left.insertionSort edgeNotAfter = right.insertionSort edgeNotAfter := by
  have unique := (edge_identities_ok _).mp distinct
  refine sort_perm edgeKey edgeNotAfter edge_not_after_key left right perm fun a first b second same => ?_
  exact List.inj_on_of_nodup_map unique ((List.mem_insertionSort edgeNotAfter).mpr first)
    ((List.mem_insertionSort edgeNotAfter).mpr second) (edge_key_id a b same)

theorem for_each_perm {α : Type} (check : α → Result Unit) (left right : List α) (perm : left.Perm right)
    (passed : forEach check left = .ok ()) : forEach check right = .ok () := by
  rw [for_each_ok] at passed ⊢
  exact fun item inside => passed item (perm.mem_iff.mpr inside)

theorem domain_stage_rearranged (left right : FabricSpec) (rearranged : FabricSpec.Rearranged left right) (graph : FabricGraph)
    (built : domainStage left = .ok graph) : domainStage right = .ok graph := by
  unfold domainStage at built ⊢
  have distinct := ((then_ok _ _ _).mp built).1
  rw [rearranged.topology, rearranged.failureDomain, rearranged.capacityEvidence,
    ← sorted_records_perm _ FailureDomain.id _ _ rearranged.domains distinct]
  exact built

theorem node_stage_rearranged (left right : FabricSpec) (rearranged : FabricSpec.Rearranged left right) (graph next : FabricGraph)
    (built : nodeStage left graph = .ok next) : nodeStage right graph = .ok next := by
  unfold nodeStage at built ⊢
  simp only [then_ok] at built ⊢
  obtain ⟨names, distinct, built⟩ := built
  rw [← sorted_records_perm _ Node.id _ _ rearranged.nodes distinct]
  exact ⟨for_each_perm _ _ _ rearranged.nodes names, distinct, built⟩

theorem edge_stage_rearranged (left right : FabricSpec) (rearranged : FabricSpec.Rearranged left right) (graph next : FabricGraph)
    (built : edgeStage left graph = .ok next) : edgeStage right graph = .ok next := by
  unfold edgeStage at built ⊢
  simp only [then_ok] at built ⊢
  obtain ⟨checked, distinct, built⟩ := built
  rw [← sorted_edges_perm _ _ rearranged.edges distinct]
  exact ⟨for_each_perm _ _ _ rearranged.edges checked, distinct, built⟩

theorem build_rearranged (left right : FabricSpec) (rearranged : FabricSpec.Rearranged left right) (fabric : FabricGraph)
    (built : build left = .ok fabric) : build right = .ok fabric := by
  rw [build_before_validate] at built ⊢
  unfold beforeValidate at built ⊢
  simp only [then_ok, deny_ok] at built ⊢
  obtain ⟨domains, nodes, edges, names, built⟩ := built
  obtain ⟨withDomains, domainsBuilt, built⟩ := (bind_ok _ _ _).mp built
  obtain ⟨withNodes, nodesBuilt, edgesBuilt⟩ := (bind_ok _ _ _).mp built
  refine ⟨by rwa [← rearranged.domains.length_eq], by rwa [← rearranged.nodes.length_eq], by rwa [← rearranged.edges.length_eq],
    for_each_perm _ _ _ rearranged.domains names, (bind_ok _ _ _).mpr ⟨withDomains, ?_, (bind_ok _ _ _).mpr ⟨withNodes, ?_, ?_⟩⟩⟩
  · exact domain_stage_rearranged left right rearranged withDomains domainsBuilt
  · exact node_stage_rearranged left right rearranged withDomains withNodes nodesBuilt
  · exact edge_stage_rearranged left right rearranged withNodes fabric edgesBuilt

end FabricGraph

end PathPlanner

import PathPlanner.LogicalEdges
import PathPlanner.Lib.Permuted
import PathPlanner.Dsl.Reader

set_option autoImplicit false

namespace PathPlanner

open Checks Sequence Permuted

namespace Collective

-- The edges a declared group derives, none where the group is refused.
def groupEdges (group : GroupSpec) : List LogicalEdge :=
  ((canonicalMembers group >>= appendGroupEdges).toOption).getD []

def endpoints (edges : List LogicalEdge) : List ParticipantId := edges.flatMap fun edge => [edge.src, edge.dst]

-- The rules of build beside the one on the identities of the groups.
structure Admissible (spec : CollectiveSpec) : Prop where
  name : isValidIdentifier spec.id.value = true
  declared : spec.groups ≠ []
  count : spec.groups.length ≤ kMaxGroups
  demand : spec.demandMbps ≤ kMaxCapacityMbps
  groups : ∀ group ∈ spec.groups, ∃ edges, (canonicalMembers group >>= appendGroupEdges) = .ok edges
  derived : spec.groups.flatMap groupEdges ≠ []
  bounded : (spec.groups.flatMap groupEdges).length ≤ kMaxLogicalEdges
  loopFree : ∀ edge ∈ spec.groups.flatMap groupEdges, edge.src ≠ edge.dst
  participants : (sortUnique (endpoints (spec.groups.flatMap groupEdges))).length ≤ kMaxParticipants

-- Two groups that follow each other in the order of level and identity have one identity.
def Neighbouring (groups : List GroupSpec) : Prop :=
  ∃ front first second back, groups.insertionSort groupNotAfter = front ++ first :: second :: back ∧ first.id = second.id

def groupKey (group : GroupSpec) : Nat ×ₗ GroupId := toLex (group.level, group.id)

theorem group_not_after_key (lhs rhs : GroupSpec) : groupNotAfter lhs rhs ↔ groupKey lhs ≤ groupKey rhs := by
  simp [groupNotAfter, groupKey, Prod.Lex.le_iff]

theorem canonical_groups_ok (groups canonical : List GroupSpec) : canonicalGroups groups = .ok canonical ↔
    List.Forall₂ (fun group result => canonicalMembers group = .ok result) groups canonical := by
  have same : canonicalGroups groups = readAll canonicalMembers groups := by
    induction groups with
    | nil => rfl
    | cons group rest ih => simp only [canonicalGroups, readAll, ih]
  rw [same]
  exact read_all_ok canonicalMembers groups canonical

theorem neighbour_ids_ok (groups : List GroupSpec) :
    neighbourIds groups = .ok () ↔ groups.IsChain fun first second => first.id ≠ second.id := by
  induction groups with
  | nil => simp [neighbourIds]
  | cons first rest ih =>
      cases rest with
      | nil => simp [neighbourIds]
      | cons second others =>
          rw [neighbourIds, then_ok, deny_ok, ih, List.isChain_cons_cons]
          exact and_congr_left fun _ => not_congr eq_comm

theorem broken_chain {α : Type} (relation : α → α → Prop) (items : List α) : ¬items.IsChain relation ↔
    ∃ front first second back, items = front ++ first :: second :: back ∧ ¬relation first second := by
  constructor
  · intro broken
    induction items with
    | nil => exact absurd List.isChain_nil broken
    | cons first rest ih =>
        cases rest with
        | nil => exact absurd (List.isChain_singleton first) broken
        | cons second others =>
            rw [List.isChain_cons_cons, not_and_or] at broken
            rcases broken with here | later
            · exact ⟨[], first, second, others, rfl, here⟩
            · obtain ⟨front, one, two, back, placed, differ⟩ := ih later
              exact ⟨first :: front, one, two, back, by rw [placed]; rfl, differ⟩
  · rintro ⟨front, first, second, back, rfl, broken⟩ chain
    have inside := (List.isChain_append.mp chain).2.1
    exact broken (List.isChain_cons_cons.mp inside).1

-- The order of the groups is decided by their levels and identities alone.
theorem sorted_keys (left right : List GroupSpec) (perm : (left.map groupKey).Perm (right.map groupKey)) :
    (left.insertionSort groupNotAfter).map groupKey = (right.insertionSort groupNotAfter).map groupKey := by
  have sorted (groups : List GroupSpec) : ((groups.insertionSort groupNotAfter).map groupKey).Pairwise (· ≤ ·) := by
    refine List.pairwise_map.mpr ((sorted_by_key groupKey groupNotAfter group_not_after_key groups).imp ?_)
    exact fun before => (group_not_after_key _ _).mp before
  have mapped (groups : List GroupSpec) := (List.perm_insertionSort groupNotAfter groups).map groupKey
  exact ((mapped left).trans (perm.trans (mapped right).symm)).eq_of_pairwise
    (fun _ _ _ _ before after => le_antisymm before after) (sorted left) (sorted right)

theorem neighbours_apart (groups canonical : List GroupSpec)
    (same : List.Forall₂ (fun group result => canonicalMembers group = .ok result) groups canonical) :
    neighbourIds (canonical.insertionSort groupNotAfter) = .ok () ↔ ¬Neighbouring groups := by
  have keys : canonical.map groupKey = groups.map groupKey := by
    induction same with
    | nil => rfl
    | cons built _ ih =>
        have kept := canonical_members_ok _ _ built
        rw [List.map_cons, List.map_cons, ih]
        simp only [groupKey, kept.id, kept.level]
  have chain (list : List GroupSpec) : (list.IsChain fun first second => first.id ≠ second.id) ↔
      (list.map groupKey).IsChain fun first second => (ofLex first).2 ≠ (ofLex second).2 := by
    rw [List.isChain_map]
    exact Iff.rfl
  have broken := broken_chain (fun first second : GroupSpec => first.id ≠ second.id) (groups.insertionSort groupNotAfter)
  simp only [not_not] at broken
  rw [neighbour_ids_ok, chain, sorted_keys canonical groups (by rw [keys]), ← chain, Neighbouring, ← broken, not_not]

theorem derive_edges_ok (groups : List GroupSpec) (derived : List StagedEdge) : deriveEdges groups = .ok derived ↔
    (∀ group ∈ groups, ∃ edges, appendGroupEdges group = .ok edges) ∧
      derived = groups.flatMap fun group => ((appendGroupEdges group).toOption.getD []).map fun edge => (edge, group.level) := by
  induction groups generalizing derived with
  | nil =>
      rw [deriveEdges, Except.ok.injEq]
      simp [eq_comm]
  | cons group rest ih =>
      simp only [deriveEdges, bind_ok, ih, Except.ok.injEq, List.forall_mem_cons, List.flatMap_cons]
      constructor
      · rintro ⟨first, built, others, ⟨each, rfl⟩, rfl⟩
        exact ⟨⟨⟨first, built⟩, each⟩, by rw [built]; rfl⟩
      · rintro ⟨⟨⟨first, built⟩, each⟩, rfl⟩
        exact ⟨first, built, _, ⟨each, rfl⟩, by rw [built]; rfl⟩

theorem group_edges_canonical (groups canonical : List GroupSpec)
    (same : List.Forall₂ (fun group result => canonicalMembers group = .ok result) groups canonical) :
    groups.flatMap groupEdges = canonical.flatMap fun group => (appendGroupEdges group).toOption.getD [] := by
  induction same with
  | nil => rfl
  | cons made _ ih =>
      rw [List.flatMap_cons, List.flatMap_cons, ih]
      congr 1
      rw [groupEdges, made]
      rfl

theorem derived_perm (groups canonical : List GroupSpec) (derived : List StagedEdge)
    (same : List.Forall₂ (fun group result => canonicalMembers group = .ok result) groups canonical)
    (built : deriveEdges (canonical.insertionSort groupNotAfter) = .ok derived) :
    (derived.map Prod.fst).Perm (groups.flatMap groupEdges) := by
  obtain ⟨_, rfl⟩ := (derive_edges_ok _ _).mp built
  rw [group_edges_canonical groups canonical same, List.map_flatMap]
  refine List.Perm.trans ?_ ((List.perm_insertionSort groupNotAfter canonical).flatMap_right _)
  refine List.Perm.of_eq (List.flatMap_congr fun group _ => ?_)
  rw [List.map_map]
  exact List.map_id _

-- What the groups of a specification derive, where none of them is refused.
theorem groups_derive (groups : List GroupSpec) : (∀ group ∈ groups, ∃ edges, (canonicalMembers group >>= appendGroupEdges) = .ok edges) ↔
    ∃ canonical derived, canonicalGroups groups = .ok canonical ∧
      deriveEdges (canonical.insertionSort groupNotAfter) = .ok derived := by
  simp only [canonical_groups_ok, derive_edges_ok]
  constructor
  · intro each
    have built : ∃ canonical, List.Forall₂ (fun group result => canonicalMembers group = .ok result) groups canonical ∧
        ∀ group ∈ canonical, ∃ edges, appendGroupEdges group = .ok edges := by
      induction groups with
      | nil => exact ⟨[], .nil, by simp⟩
      | cons group rest ih =>
          obtain ⟨canonical, same, more⟩ := ih fun other member => each other (List.mem_cons_of_mem group member)
          obtain ⟨edges, made⟩ := each group (by simp)
          obtain ⟨first, firstMade, edgesMade⟩ := (bind_ok _ _ _).mp made
          exact ⟨first :: canonical, .cons firstMade same, List.forall_mem_cons.mpr ⟨⟨edges, edgesMade⟩, more⟩⟩
    obtain ⟨canonical, same, more⟩ := built
    exact ⟨canonical, _, same, fun group member => more group ((List.mem_insertionSort groupNotAfter).mp member), rfl⟩
  · rintro ⟨canonical, _, same, more, _⟩ group member
    obtain ⟨result, inside, made⟩ := paired_left _ _ _ same group member
    obtain ⟨edges, edgesMade⟩ := more result ((List.mem_insertionSort groupNotAfter).mpr inside)
    exact ⟨edges, (bind_ok _ _ _).mpr ⟨result, made, edgesMade⟩⟩

-- What build makes of the edges it has derived.
def assembled (spec : CollectiveSpec) (groups : List GroupSpec) (derived : List StagedEdge) : Collective :=
  let kept := uniqueBy Prod.fst (derived.insertionSort stagedNotAfter)
  { id := spec.id
    kind := spec.kind
    demandMbps := spec.demandMbps
    participants := sortUnique (endpoints (kept.map Prod.fst))
    logicalEdges := kept.map Prod.fst
    logicalEdgeStage := kept.map Prod.snd
    groups
    stageCount := (kept.map Prod.snd).foldl (fun count stage => max count (stage + 1)) 1 }

theorem kept_ascending (derived : List StagedEdge) :
    ((uniqueBy Prod.fst (derived.insertionSort stagedNotAfter)).map Prod.fst).Pairwise LogicalEdge.less := by
  have : Trans LogicalEdge.less LogicalEdge.less LogicalEdge.less := ⟨fun first second => less_trans _ _ _ first second⟩
  have chained : Trans (fun a b : StagedEdge => a.1.less b.1) (fun a b : StagedEdge => a.1.less b.1)
      (fun a b : StagedEdge => a.1.less b.1) := ⟨fun first second => less_trans _ _ _ first second⟩
  refine List.pairwise_map.mpr (unique_strict Prod.fst stagedNotAfter _ _ (sorted_staged derived) ?_)
  exact fun a b before differ => before.resolve_right fun same => differ same.1

theorem kept_same (derived : List StagedEdge) (edge : LogicalEdge) :
    edge ∈ (uniqueBy Prod.fst (derived.insertionSort stagedNotAfter)).map Prod.fst ↔ edge ∈ derived.map Prod.fst := by
  have perm := List.perm_insertionSort stagedNotAfter derived
  constructor
  · intro member
    obtain ⟨staged, kept, rfl⟩ := List.mem_map.mp member
    exact List.mem_map_of_mem (perm.mem_iff.mp ((unique_sublist _ _).mem kept))
  · intro member
    obtain ⟨staged, inside, rfl⟩ := List.mem_map.mp member
    obtain ⟨other, kept, same⟩ := unique_keys Prod.fst _ staged (perm.mem_iff.mpr inside)
    exact same ▸ List.mem_map_of_mem kept

theorem assembled_valid (spec : CollectiveSpec) (groups : List GroupSpec) (derived : List StagedEdge) (some : derived ≠ [])
    (bounded : derived.length ≤ kMaxLogicalEdges) (loopFree : ∀ edge ∈ derived.map Prod.fst, edge.src ≠ edge.dst) :
    (assembled spec groups derived).validate = .ok () := by
  have sorted := kept_ascending derived
  have same := kept_same derived
  have short : (uniqueBy Prod.fst (derived.insertionSort stagedNotAfter)).length ≤ kMaxLogicalEdges :=
    (unique_sublist _ _).length_le.trans ((List.length_insertionSort stagedNotAfter derived).trans_le bounded)
  obtain ⟨least, each, _⟩ := fold_max_spec Nat.succ
    ((uniqueBy Prod.fst (derived.insertionSort stagedNotAfter)).map Prod.snd) 1
  simp only [validate, then_ok, deny_ok, for_each_ok, not_not, not_lt, gt_iff_lt, ge_iff_le, not_le, Bool.not_eq_false,
    ascending_iff]
  refine ⟨?_, ?_, by simp [assembled], sorted.isChain, fun edge member => loopFree edge ((same edge).mp member), ?_, ?_, each⟩
  · obtain ⟨staged, rest, listed⟩ := List.exists_cons_of_ne_nil some
    have member : staged.1 ∈ derived.map Prod.fst := List.mem_map_of_mem (listed ▸ List.mem_cons_self)
    exact List.ne_nil_of_mem ((same staged.1).mpr member)
  · exact (List.length_map _).trans_le short
  · exact sort_unique_strict _
  · exact Nat.one_le_iff_ne_zero.mp least

theorem self_loops_ok (derived : List StagedEdge) : selfLoops (derived.insertionSort stagedNotAfter) = .ok () ↔
    ∀ edge ∈ derived.map Prod.fst, edge.src ≠ edge.dst := by
  unfold selfLoops
  simp only [for_each_ok, deny_ok, List.forall_mem_map, List.mem_insertionSort, ne_eq]

theorem build_accepts (spec : CollectiveSpec) :
    (∃ collective, build spec = .ok collective) ↔ Admissible spec ∧ ¬Neighbouring spec.groups := by
  have steps (collective : Collective) : build spec = .ok collective ↔
      isValidIdentifier spec.id.value = true ∧ spec.groups ≠ [] ∧ spec.groups.length ≤ kMaxGroups ∧
        spec.demandMbps ≤ kMaxCapacityMbps ∧ ∃ canonical, canonicalGroups spec.groups = .ok canonical ∧
          neighbourIds (canonical.insertionSort groupNotAfter) = .ok () ∧
          ∃ derived, deriveEdges (canonical.insertionSort groupNotAfter) = .ok derived ∧ derived ≠ [] ∧
            derived.length ≤ kMaxLogicalEdges ∧ (∀ edge ∈ derived.map Prod.fst, edge.src ≠ edge.dst) ∧
            (assembled spec (canonical.insertionSort groupNotAfter) derived).participants.length ≤ kMaxParticipants ∧
            (assembled spec (canonical.insertionSort groupNotAfter) derived).validate = .ok () ∧
            assembled spec (canonical.insertionSort groupNotAfter) derived = collective := by
    unfold build
    simp only [bind_ok, Unique.exists_iff, PUnit.default_eq_unit, deny_ok, self_loops_ok, Except.ok.injEq, not_lt, gt_iff_lt,
      Bool.not_eq_false, ne_eq]
    exact Iff.rfl
  have shared (canonical : List GroupSpec) (derived : List StagedEdge) (canonicalBuilt : canonicalGroups spec.groups = .ok canonical)
      (derivedBuilt : deriveEdges (canonical.insertionSort groupNotAfter) = .ok derived) :
      (neighbourIds (canonical.insertionSort groupNotAfter) = .ok () ↔ ¬Neighbouring spec.groups) ∧
        (derived.map Prod.fst).Perm (spec.groups.flatMap groupEdges) := by
    have same := (canonical_groups_ok _ _).mp canonicalBuilt
    exact ⟨neighbours_apart _ _ same, derived_perm _ _ _ same derivedBuilt⟩
  have people (derived : List StagedEdge) (groups : List GroupSpec) (perm : (derived.map Prod.fst).Perm (spec.groups.flatMap groupEdges)) :
      (assembled spec groups derived).participants = sortUnique (endpoints (spec.groups.flatMap groupEdges)) := by
    refine sort_unique_ext _ _ fun participant => ?_
    simp only [endpoints, List.mem_flatMap, kept_same, perm.mem_iff]
  constructor
  · rintro ⟨collective, built⟩
    obtain ⟨name, declared, count, demand, canonical, canonicalBuilt, apart, derived, derivedBuilt, some, bounded, loopFree, few, _⟩ :=
      (steps collective).mp built
    obtain ⟨neighbours, perm⟩ := shared canonical derived canonicalBuilt derivedBuilt
    rw [people derived _ perm] at few
    refine ⟨⟨name, declared, count, demand, (groups_derive spec.groups).mpr ⟨canonical, derived, canonicalBuilt, derivedBuilt⟩,
      ?_, ?_, fun edge member => loopFree edge (perm.mem_iff.mpr member), few⟩, neighbours.mp apart⟩
    · intro empty
      rw [empty, List.perm_nil, List.map_eq_nil_iff] at perm
      exact some perm
    · rw [← perm.length_eq, List.length_map]
      exact bounded
  · rintro ⟨admissible, apart⟩
    obtain ⟨canonical, derived, canonicalBuilt, derivedBuilt⟩ := (groups_derive spec.groups).mp admissible.groups
    obtain ⟨neighbours, perm⟩ := shared canonical derived canonicalBuilt derivedBuilt
    have some : derived ≠ [] := by
      rintro rfl
      exact admissible.derived perm.symm.eq_nil
    have bounded : derived.length ≤ kMaxLogicalEdges := by
      rw [← List.length_map Prod.fst, perm.length_eq]
      exact admissible.bounded
    have loopFree (edge : LogicalEdge) (member : edge ∈ derived.map Prod.fst) : edge.src ≠ edge.dst :=
      admissible.loopFree edge (perm.mem_iff.mp member)
    have few := admissible.participants
    rw [← people derived (canonical.insertionSort groupNotAfter) perm] at few
    exact ⟨_, (steps _).mpr ⟨admissible.name, admissible.declared, admissible.count, admissible.demand, canonical, canonicalBuilt,
      neighbours.mpr apart, derived, derivedBuilt, some, bounded, loopFree, few,
      assembled_valid spec _ derived some bounded loopFree, rfl⟩⟩

end Collective

end PathPlanner

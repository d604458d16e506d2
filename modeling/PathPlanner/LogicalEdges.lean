import PathPlanner.Collective

set_option autoImplicit false

namespace PathPlanner

open Checks Sequence

-- The ordered pairs a declared group stands for.
def GroupSpec.Implies (group : GroupSpec) (edge : LogicalEdge) : Prop :=
  match group.pattern with
  | .ring => ∃ position < group.members.length,
      group.members[position]? = some edge.src ∧ group.members[(position + 1) % group.members.length]? = some edge.dst
  | .tree =>
      (edge.src = group.root ∧ edge.dst ∈ group.members ∧ edge.dst ≠ group.root ∧
        (group.direction = .forward ∨ group.direction = .bidirectional)) ∨
      (edge.dst = group.root ∧ edge.src ∈ group.members ∧ edge.src ≠ group.root ∧
        (group.direction = .reverse ∨ group.direction = .bidirectional))
  | .pairwise => ∃ pair,
      ((sortValues group.members)[2 * pair]? = some edge.src ∧ (sortValues group.members)[2 * pair + 1]? = some edge.dst) ∨
      ((sortValues group.members)[2 * pair]? = some edge.dst ∧ (sortValues group.members)[2 * pair + 1]? = some edge.src)
  | .allToAll => edge.src ∈ group.members ∧ edge.dst ∈ group.members ∧ edge.src ≠ edge.dst

namespace Collective

theorem ring_edges_mem (members : List ParticipantId) (edge : LogicalEdge) :
    edge ∈ List.zipWith LogicalEdge.mk members (members.rotate 1) ↔ ∃ position < members.length,
      members[position]? = some edge.src ∧ members[(position + 1) % members.length]? = some edge.dst := by
  constructor
  · intro member
    obtain ⟨position, bound, taken⟩ := List.getElem_of_mem member
    have inside : position < members.length := by
      rw [List.length_zipWith] at bound
      exact lt_of_lt_of_le bound (min_le_left _ _)
    have next := Nat.mod_lt (position + 1) (Nat.zero_lt_of_lt inside)
    rw [List.getElem_zipWith, List.getElem_rotate] at taken
    refine ⟨position, inside, ?_, ?_⟩
    · rw [List.getElem?_eq_getElem inside, ← taken]
    · rw [List.getElem?_eq_getElem next, ← taken]
  · rintro ⟨position, inside, source, target⟩
    have next := Nat.mod_lt (position + 1) (Nat.zero_lt_of_lt inside)
    rw [List.getElem?_eq_getElem inside, Option.some.injEq] at source
    rw [List.getElem?_eq_getElem next, Option.some.injEq] at target
    have bound : position < (List.zipWith LogicalEdge.mk members (members.rotate 1)).length := by simpa using inside
    have same : (List.zipWith LogicalEdge.mk members (members.rotate 1))[position] = edge := by
      rw [List.getElem_zipWith, List.getElem_rotate, source, target]
    exact same ▸ List.getElem_mem bound

-- Successors do not change when the cycle is rotated.
theorem ring_edges_rotate (members : List ParticipantId) (turns : Nat) (edge : LogicalEdge) :
    edge ∈ List.zipWith LogicalEdge.mk (members.rotate turns) ((members.rotate turns).rotate 1) ↔
      edge ∈ List.zipWith LogicalEdge.mk members (members.rotate 1) := by
  have swapped : (members.rotate turns).rotate 1 = (members.rotate 1).rotate turns := by
    rw [List.rotate_rotate, List.rotate_rotate, Nat.add_comm]
  have rotated : List.zipWith LogicalEdge.mk (members.rotate turns) ((members.rotate 1).rotate turns) =
      (List.zipWith LogicalEdge.mk members (members.rotate 1)).rotate turns := by
    exact (List.zipWith_rotate_distrib LogicalEdge.mk members (members.rotate 1) turns (by simp)).symm
  rw [swapped, rotated, List.mem_rotate]

theorem pair_up_mem (members : List ParticipantId) (edge : LogicalEdge) :
    edge ∈ pairUp members ↔ ∃ pair,
      (members[2 * pair]? = some edge.src ∧ members[2 * pair + 1]? = some edge.dst) ∨
      (members[2 * pair]? = some edge.dst ∧ members[2 * pair + 1]? = some edge.src) := by
  induction members using pairUp.induct with
  | case1 first second rest ih =>
      rw [pairUp, List.mem_cons, List.mem_cons, ih]
      constructor
      · rintro (rfl | rfl | ⟨pair, placed⟩)
        · exact ⟨0, Or.inl ⟨rfl, rfl⟩⟩
        · exact ⟨0, Or.inr ⟨rfl, rfl⟩⟩
        · exact ⟨pair + 1, placed⟩
      · rintro ⟨pair, placed⟩
        cases pair with
        | zero =>
            rcases placed with ⟨source, target⟩ | ⟨source, target⟩
            · exact Or.inl (by cases source; cases target; rfl)
            · exact Or.inr (Or.inl (by cases source; cases target; rfl))
        | succ pair => exact Or.inr (Or.inr ⟨pair, placed⟩)
  | case2 members short =>
      constructor
      · intro member
        rw [pairUp.eq_def] at member
        split at member
        · exact absurd rfl (short _ _ _)
        · cases member
      · rintro ⟨pair, placed⟩
        match members, short with
        | [], _ => simp at placed
        | [only], _ => simp at placed
        | first :: second :: rest, short => exact absurd rfl (short first second rest)

theorem tree_edges_mem (group : GroupSpec) (edge : LogicalEdge) :
    edge ∈ group.members.flatMap (treeEdges group) ↔
      (edge.src = group.root ∧ edge.dst ∈ group.members ∧ edge.dst ≠ group.root ∧
        (group.direction = .forward ∨ group.direction = .bidirectional)) ∨
      (edge.dst = group.root ∧ edge.src ∈ group.members ∧ edge.src ≠ group.root ∧
        (group.direction = .reverse ∨ group.direction = .bidirectional)) := by
  obtain ⟨src, dst⟩ := edge
  have one (member : ParticipantId) : LogicalEdge.mk src dst ∈ treeEdges group member ↔ member ≠ group.root ∧
      ((src = group.root ∧ dst = member ∧ (group.direction = .forward ∨ group.direction = .bidirectional)) ∨
        (src = member ∧ dst = group.root ∧ (group.direction = .reverse ∨ group.direction = .bidirectional))) := by
    unfold treeEdges
    by_cases here : member = group.root
    · simp [here]
    · rw [if_neg here, List.mem_append]
      split_ifs <;> simp_all
  rw [List.mem_flatMap]
  constructor
  · rintro ⟨member, inside, found⟩
    rcases ((one member).mp found).2 with ⟨rfl, rfl, down⟩ | ⟨rfl, rfl, up⟩
    · exact Or.inl ⟨rfl, inside, ((one _).mp found).1, down⟩
    · exact Or.inr ⟨rfl, inside, ((one _).mp found).1, up⟩
  · rintro (⟨source, inside, differ, down⟩ | ⟨target, inside, differ, up⟩)
    · exact ⟨dst, inside, (one dst).mpr ⟨differ, Or.inl ⟨source, rfl, down⟩⟩⟩
    · exact ⟨src, inside, (one src).mpr ⟨differ, Or.inr ⟨rfl, target, up⟩⟩⟩

-- Canonical groups differ from the declared ones in the order of their members only.
structure Canonical (group canonical : GroupSpec) : Prop where
  id : canonical.id = group.id
  level : canonical.level = group.level
  pattern : canonical.pattern = group.pattern
  direction : canonical.direction = group.direction
  root : canonical.root = group.root
  members : if group.pattern = .ring then ∃ turns, canonical.members = group.members.rotate turns
    else canonical.members = sortValues group.members

theorem rotate_ring_turns (members : List ParticipantId) : ∃ turns, rotateRingCanonical members = members.rotate turns := by
  unfold rotateRingCanonical
  cases members.min? with
  | none => exact ⟨0, (List.rotate_zero members).symm⟩
  | some smallest => exact ⟨_, rfl⟩

theorem canonical_members_ok (group canonical : GroupSpec) (built : canonicalMembers group = .ok canonical) :
    Canonical group canonical := by
  simp only [canonicalMembers, then_ok, deny_ok] at built
  obtain ⟨_, _, _, _, _, _, built⟩ := built
  by_cases ring : group.pattern = .ring
  · rw [if_pos ring] at built
    simp only [then_ok, Except.ok.injEq] at built
    obtain ⟨_, rfl⟩ := built
    exact ⟨rfl, rfl, rfl, rfl, rfl, by rw [if_pos ring]; exact rotate_ring_turns group.members⟩
  · rw [if_neg ring] at built
    simp only [then_ok, Except.ok.injEq] at built
    obtain ⟨_, rfl⟩ := built
    exact ⟨rfl, rfl, rfl, rfl, rfl, by rw [if_neg ring]⟩

-- One spec for the four edge generators.
theorem append_group_edges_mem (group canonical : GroupSpec) (same : Canonical group canonical) (edges : List LogicalEdge)
    (derived : appendGroupEdges canonical = .ok edges) (edge : LogicalEdge) : edge ∈ edges ↔ group.Implies edge := by
  have members := same.members
  unfold appendGroupEdges at derived
  rw [same.pattern] at derived
  unfold GroupSpec.Implies
  cases pattern : group.pattern with
  | ring =>
      rw [if_pos pattern] at members
      obtain ⟨turns, rotated⟩ := members
      simp only [pattern, then_ok, Except.ok.injEq] at derived
      rw [← derived.2, rotated, ring_edges_rotate, ring_edges_mem]
  | tree =>
      rw [if_neg (by simp [pattern])] at members
      simp only [pattern, then_ok, Except.ok.injEq] at derived
      rw [← derived.2.2.2, tree_edges_mem, same.root, same.direction, members]
      simp only [(sort_values_perm group.members).mem_iff]
  | pairwise =>
      rw [if_neg (by simp [pattern])] at members
      simp only [pattern, then_ok, Except.ok.injEq] at derived
      rw [← derived.2, members, pair_up_mem]
  | allToAll =>
      rw [if_neg (by simp [pattern])] at members
      simp only [pattern, then_ok, Except.ok.injEq] at derived
      obtain ⟨src, dst⟩ := edge
      rw [← derived.2, members]
      simp only [List.mem_flatMap, List.mem_map, List.mem_filter, (sort_values_perm group.members).mem_iff, decide_eq_true_iff,
        LogicalEdge.mk.injEq]
      constructor
      · rintro ⟨_, inside, _, ⟨other, differ⟩, rfl, rfl⟩
        exact ⟨inside, other, differ⟩
      · rintro ⟨inside, other, differ⟩
        exact ⟨src, inside, dst, ⟨other, differ⟩, rfl, rfl⟩

theorem canonical_groups_each (groups canonical : List GroupSpec) (built : canonicalGroups groups = .ok canonical) :
    List.Forall₂ Canonical groups canonical := by
  induction groups generalizing canonical with
  | nil =>
      obtain rfl := Except.ok.inj built
      exact .nil
  | cons group rest ih =>
      obtain ⟨first, firstBuilt, later⟩ := (bind_ok _ _ _).mp built
      obtain ⟨others, restBuilt, eq⟩ := (bind_ok _ _ _).mp later
      obtain rfl := Except.ok.inj eq
      exact .cons (canonical_members_ok group first firstBuilt) (ih others restBuilt)

theorem paired_left {α β : Type} (relation : α → β → Prop) (lefts : List α) (rights : List β)
    (each : List.Forall₂ relation lefts rights) (left : α) (member : left ∈ lefts) : ∃ right ∈ rights, relation left right := by
  obtain ⟨position, bound, rfl⟩ := List.getElem_of_mem member
  exact ⟨_, List.getElem_mem (each.length_eq ▸ bound), each.get bound (each.length_eq ▸ bound)⟩

theorem paired_right {α β : Type} (relation : α → β → Prop) (lefts : List α) (rights : List β)
    (each : List.Forall₂ relation lefts rights) (right : β) (member : right ∈ rights) : ∃ left ∈ lefts, relation left right :=
  paired_left (flip relation) rights lefts each.flip right member

theorem derive_edges_mem (groups : List GroupSpec) (derived : List StagedEdge) (built : deriveEdges groups = .ok derived)
    (staged : StagedEdge) : staged ∈ derived ↔
      ∃ group ∈ groups, group.level = staged.2 ∧ ∃ edges, appendGroupEdges group = .ok edges ∧ staged.1 ∈ edges := by
  induction groups generalizing derived with
  | nil =>
      obtain rfl := Except.ok.inj built
      simp
  | cons group rest ih =>
      obtain ⟨first, firstBuilt, later⟩ := (bind_ok _ _ _).mp built
      obtain ⟨others, restBuilt, eq⟩ := (bind_ok _ _ _).mp later
      obtain rfl := Except.ok.inj eq
      obtain ⟨edge, stage⟩ := staged
      simp only [List.mem_append, List.mem_map, ih others restBuilt, List.mem_cons, exists_eq_or_imp, firstBuilt,
        Except.ok.injEq, exists_eq_left', Prod.mk.injEq]
      refine or_congr_left ?_
      constructor
      · rintro ⟨other, inside, rfl, rfl⟩
        exact ⟨rfl, inside⟩
      · rintro ⟨rfl, inside⟩
        exact ⟨edge, inside, rfl, rfl⟩

theorem derive_edges_each (groups : List GroupSpec) (derived : List StagedEdge) (built : deriveEdges groups = .ok derived) :
    ∀ group ∈ groups, ∃ edges, appendGroupEdges group = .ok edges := by
  induction groups generalizing derived with
  | nil => simp
  | cons group rest ih =>
      obtain ⟨first, firstBuilt, later⟩ := (bind_ok _ _ _).mp built
      obtain ⟨others, restBuilt, _⟩ := (bind_ok _ _ _).mp later
      exact List.forall_mem_cons.mpr ⟨⟨first, firstBuilt⟩, ih others restBuilt⟩

-- The stages at which a declared group stands for the edge.
def impliedAt (spec : CollectiveSpec) (edge : LogicalEdge) : Set Nat :=
  { level | ∃ group ∈ spec.groups, group.level = level ∧ group.Implies edge }

theorem derived_mem (spec : CollectiveSpec) (canonical : List GroupSpec) (derived : List StagedEdge)
    (canonicalBuilt : canonicalGroups spec.groups = .ok canonical)
    (derivedBuilt : deriveEdges (canonical.insertionSort groupNotAfter) = .ok derived) (edge : LogicalEdge) (stage : Nat) :
    (edge, stage) ∈ derived ↔ stage ∈ impliedAt spec edge := by
  have each := canonical_groups_each _ _ canonicalBuilt
  have sorted := List.perm_insertionSort groupNotAfter canonical
  rw [derive_edges_mem _ _ derivedBuilt]
  constructor
  · rintro ⟨group, member, level, edges, built, inside⟩
    obtain ⟨declared, original, same⟩ := paired_right _ _ _ each _ (sorted.mem_iff.mp member)
    exact ⟨declared, original, same.level ▸ level, (append_group_edges_mem declared group same edges built edge).mp inside⟩
  · rintro ⟨declared, original, level, implied⟩
    obtain ⟨group, member, same⟩ := paired_left _ _ _ each _ original
    have inside := sorted.mem_iff.mpr member
    obtain ⟨edges, built⟩ := derive_edges_each _ _ derivedBuilt group inside
    exact ⟨group, inside, same.level.trans level, edges, built,
      (append_group_edges_mem declared group same edges built edge).mpr implied⟩

-- Where equal keys stand together, the kept element comes before all others of its key.
theorem unique_after_first {α β : Type} [DecidableEq β] (key : α → β) (weak : α → α → Prop) (reflexive : ∀ a, weak a a)
    (convex : ∀ a b c, weak a b → weak b c → key a = key c → key b = key c) (list : List α) (last : α)
    (sorted : (last :: list).Pairwise weak) (a : α) (kept : a ∈ uniqueAfter key (key last) list) :
    key a ≠ key last ∧ ∀ b ∈ list, key b = key a → weak a b := by
  induction list generalizing last with
  | nil => cases kept
  | cons head tail ih =>
      obtain ⟨above, rest⟩ := List.pairwise_cons.mp sorted
      by_cases same : key head = key last
      · rw [uniqueAfter, if_pos same] at kept
        have lastSorted : (last :: tail).Pairwise weak :=
          List.pairwise_cons.mpr ⟨fun b inside => above b (List.mem_cons_of_mem _ inside), (List.pairwise_cons.mp rest).2⟩
        obtain ⟨differ, first⟩ := ih last lastSorted kept
        refine ⟨differ, List.forall_mem_cons.mpr ⟨fun eq => ?_, first⟩⟩
        exact absurd (eq.symm.trans same) differ
      · rw [uniqueAfter, if_neg same] at kept
        rcases List.mem_cons.mp kept with rfl | later
        · exact ⟨same, List.forall_mem_cons.mpr ⟨fun _ => reflexive a, fun b inside _ => (List.pairwise_cons.mp rest).1 b inside⟩⟩
        · obtain ⟨differ, first⟩ := ih head rest later
          have inTail := (unique_after_sublist key (key head) tail).mem later
          refine ⟨fun eq => same ?_, List.forall_mem_cons.mpr ⟨fun eq => absurd eq.symm differ, first⟩⟩
          exact (convex last head a (above head List.mem_cons_self) ((List.pairwise_cons.mp rest).1 a inTail) eq.symm).trans eq

theorem unique_first {α β : Type} [DecidableEq β] (key : α → β) (weak : α → α → Prop) (reflexive : ∀ a, weak a a)
    (convex : ∀ a b c, weak a b → weak b c → key a = key c → key b = key c) (list : List α) (sorted : list.Pairwise weak)
    (a : α) (kept : a ∈ uniqueBy key list) : ∀ b ∈ list, key b = key a → weak a b := by
  cases list with
  | nil => cases kept
  | cons head tail =>
      rcases List.mem_cons.mp kept with rfl | later
      · exact List.forall_mem_cons.mpr ⟨fun _ => reflexive a, fun b inside _ => (List.pairwise_cons.mp sorted).1 b inside⟩
      · obtain ⟨differ, first⟩ := unique_after_first key weak reflexive convex tail head sorted a later
        exact List.forall_mem_cons.mpr ⟨fun eq => absurd eq.symm differ, first⟩

def stagedKey (staged : StagedEdge) : (ParticipantId ×ₗ ParticipantId) ×ₗ Nat :=
  toLex (toLex (staged.1.src, staged.1.dst), staged.2)

theorem staged_not_after_key (lhs rhs : StagedEdge) : stagedNotAfter lhs rhs ↔ stagedKey lhs ≤ stagedKey rhs := by
  obtain ⟨⟨lhsSrc, lhsDst⟩, lhsStage⟩ := lhs
  obtain ⟨⟨rhsSrc, rhsDst⟩, rhsStage⟩ := rhs
  simp [stagedNotAfter, stagedKey, LogicalEdge.less, Prod.Lex.le_iff, Prod.Lex.lt_iff]

theorem sorted_staged (derived : List StagedEdge) : (derived.insertionSort stagedNotAfter).Pairwise stagedNotAfter := by
  have : Std.Total stagedNotAfter :=
    ⟨fun lhs rhs => by simpa only [staged_not_after_key] using le_total (stagedKey lhs) (stagedKey rhs)⟩
  have : IsTrans StagedEdge stagedNotAfter := ⟨fun _ _ _ => by simpa only [staged_not_after_key] using le_trans⟩
  exact List.pairwise_insertionSort stagedNotAfter derived

theorem less_trans (a b c : LogicalEdge) (first : a.less b) (second : b.less c) : a.less c := by
  unfold LogicalEdge.less at *
  rcases first with first | ⟨same, first⟩
  · rcases second with second | ⟨eq, _⟩
    · exact Or.inl (first.trans second)
    · exact Or.inl (eq ▸ first)
  · rcases second with second | ⟨eq, second⟩
    · exact Or.inl (same ▸ second)
    · exact Or.inr ⟨same.trans eq, first.trans second⟩

theorem less_irrefl (edge : LogicalEdge) : ¬ edge.less edge := by
  simp [LogicalEdge.less]

theorem staged_convex (a b c : StagedEdge) (first : stagedNotAfter a b) (second : stagedNotAfter b c) (same : a.1 = c.1) :
    b.1 = c.1 := by
  rcases first with first | ⟨eq, _⟩
  · rcases second with second | ⟨eq, _⟩
    · exact absurd (same ▸ less_trans _ _ _ first second) (less_irrefl _)
    · exact eq
  · exact eq.symm.trans same

-- Every derived edge is kept once, at the smallest of its stages.
theorem kept_mem (derived : List StagedEdge) (edge : LogicalEdge) (stage : Nat) :
    (edge, stage) ∈ uniqueBy Prod.fst (derived.insertionSort stagedNotAfter) ↔
      IsLeast { level | (edge, level) ∈ derived } stage := by
  have perm := List.perm_insertionSort stagedNotAfter derived
  have reflexive (staged : StagedEdge) : stagedNotAfter staged staged := Or.inr ⟨rfl, le_refl _⟩
  have first (level : Nat) (kept : (edge, level) ∈ uniqueBy Prod.fst (derived.insertionSort stagedNotAfter)) :
      IsLeast { level | (edge, level) ∈ derived } level := by
    refine ⟨perm.mem_iff.mp ((unique_sublist _ _).mem kept), fun other inside => ?_⟩
    have before := unique_first Prod.fst stagedNotAfter reflexive staged_convex _ (sorted_staged derived) _ kept
      (edge, other) (perm.mem_iff.mpr inside) rfl
    rcases before with less | ⟨_, below⟩
    · exact absurd less (less_irrefl edge)
    · exact below
  constructor
  · exact first stage
  · intro least
    obtain ⟨⟨other, level⟩, kept, same⟩ := unique_keys Prod.fst _ _ (perm.mem_iff.mpr least.1)
    obtain rfl : other = edge := same
    rwa [least.unique (first level kept)]

-- What build leaves of its derivation.
structure Derived (spec : CollectiveSpec) (collective : Collective) : Prop where
  sorted : collective.logicalEdges.Pairwise LogicalEdge.less
  parallel : collective.logicalEdgeStage.length = collective.logicalEdges.length
  staged : ∀ edge stage, (edge, stage) ∈ collective.logicalEdges.zip collective.logicalEdgeStage ↔
    IsLeast (impliedAt spec edge) stage
  count : collective.stageCount = collective.logicalEdgeStage.foldl (fun count stage => max count (stage + 1)) 1
  nonempty : collective.logicalEdges ≠ []

theorem build_derived (spec : CollectiveSpec) (collective : Collective) (built : build spec = .ok collective) :
    Derived spec collective := by
  unfold build at built
  simp only [then_ok] at built
  obtain ⟨_, _, _, _, built⟩ := built
  obtain ⟨canonical, canonicalBuilt, built⟩ := (bind_ok _ _ _).mp built
  simp only [then_ok] at built
  obtain ⟨_, built⟩ := built
  obtain ⟨derived, derivedBuilt, built⟩ := (bind_ok _ _ _).mp built
  simp only [then_ok, Except.ok.injEq] at built
  obtain ⟨_, _, _, _, validated, rfl⟩ := built
  simp only [validate, then_ok, deny_ok, not_not] at validated
  obtain ⟨nonempty, _, _, ordered, _⟩ := validated
  have : IsTrans LogicalEdge LogicalEdge.less := ⟨less_trans⟩
  refine ⟨ordered.pairwise, by simp, fun edge stage => ?_, rfl, nonempty⟩
  dsimp only
  rw [List.zip_map', List.map_id', kept_mem]
  simp only [derived_mem spec canonical derived canonicalBuilt derivedBuilt edge, Set.ofPred_mem_eq]

theorem least_implied (spec : CollectiveSpec) (edge : LogicalEdge) :
    (∃ stage, IsLeast (impliedAt spec edge) stage) ↔ ∃ group ∈ spec.groups, group.Implies edge := by
  constructor
  · rintro ⟨stage, ⟨group, member, _, implied⟩, _⟩
    exact ⟨group, member, implied⟩
  · rintro ⟨group, member, implied⟩
    have occupied : (impliedAt spec edge).Nonempty := ⟨group.level, group, member, rfl, implied⟩
    exact ⟨sInf (impliedAt spec edge), Nat.sInf_mem occupied, fun level inside => Nat.sInf_le inside⟩

theorem zipped_edge {α β : Type} (lefts : List α) (rights : List β) (parallel : rights.length = lefts.length) (left : α) :
    left ∈ lefts ↔ ∃ right, (left, right) ∈ lefts.zip rights := by
  have firsts : (lefts.zip rights).map Prod.fst = lefts := List.map_fst_zip (le_of_eq parallel.symm)
  constructor
  · intro member
    rw [← firsts] at member
    obtain ⟨⟨_, right⟩, zipped, rfl⟩ := List.mem_map.mp member
    exact ⟨right, zipped⟩
  · rintro ⟨right, zipped⟩
    exact (List.of_mem_zip zipped).1

-- The logical edges of a built collective are those its groups stand for, each at the smallest level that does.
theorem derived_exactly (spec : CollectiveSpec) (collective : Collective) (built : build spec = .ok collective) :
    collective.logicalEdges.Pairwise LogicalEdge.less ∧ collective.logicalEdges.Nodup ∧
      collective.logicalEdgeStage.length = collective.logicalEdges.length ∧
      (∀ edge, edge ∈ collective.logicalEdges ↔ ∃ group ∈ spec.groups, group.Implies edge) ∧
      ∀ edge stage, (edge, stage) ∈ collective.logicalEdges.zip collective.logicalEdgeStage ↔
        IsLeast { level | ∃ group ∈ spec.groups, group.level = level ∧ group.Implies edge } stage := by
  have derived := build_derived spec collective built
  have distinct : collective.logicalEdges.Nodup := by
    refine derived.sorted.imp ?_
    rintro edge _ less rfl
    exact less_irrefl edge less
  refine ⟨derived.sorted, distinct, derived.parallel, fun edge => ?_, derived.staged⟩
  rw [zipped_edge _ _ derived.parallel, ← least_implied]
  exact exists_congr fun stage => derived.staged edge stage

theorem accepted_collective (spec : CollectiveSpec) (accepted : (build spec).isOk = true) :
    ∃ collective, build spec = .ok collective := by
  cases outcome : build spec with
  | error status => simp [outcome, Except.isOk, Except.toBool] at accepted
  | ok collective => exact ⟨collective, rfl⟩

end Collective

namespace Sample

def group (name : String) (level : Nat) (pattern : GroupPattern) (members : List String) : GroupSpec :=
  { id := ⟨text name⟩, level, pattern, members := members.map fun member => ⟨text member⟩ }

def layered (groups : List GroupSpec) : CollectiveSpec := { id := ⟨text "c"⟩, kind := .hierarchical, groups }

-- The ring repeats one of the two edges of the pair.
def overlapping : CollectiveSpec := layered [group "r" 1 .ring ["c", "a", "b"], group "q" 0 .allToAll ["b", "a"]]

theorem overlapping_accepted : (Collective.build overlapping).isOk = true := by decide +kernel

end Sample

namespace Collective

theorem overlapping_derived : ∃ collective, build Sample.overlapping = .ok collective ∧
    ∀ edge, edge ∈ collective.logicalEdges ↔ ∃ group ∈ Sample.overlapping.groups, group.Implies edge := by
  obtain ⟨collective, built⟩ := accepted_collective Sample.overlapping Sample.overlapping_accepted
  exact ⟨collective, built, (derived_exactly Sample.overlapping collective built).2.2.2.1⟩

def highestLevel (spec : CollectiveSpec) : Nat := (spec.groups.map GroupSpec.level).foldl max 0

theorem fold_max_spec {α : Type} (height : α → Nat) (items : List α) (start : Nat) :
    start ≤ items.foldl (fun count item => max count (height item)) start ∧
      (∀ item ∈ items, height item ≤ items.foldl (fun count item => max count (height item)) start) ∧
      (items.foldl (fun count item => max count (height item)) start = start ∨
        ∃ item ∈ items, items.foldl (fun count item => max count (height item)) start = height item) := by
  induction items generalizing start with
  | nil => simp
  | cons head tail ih =>
      obtain ⟨above, each, reached⟩ := ih (max start (height head))
      rw [List.foldl_cons]
      refine ⟨(le_max_left _ _).trans above, List.forall_mem_cons.mpr ⟨(le_max_right _ _).trans above, each⟩, ?_⟩
      rcases reached with same | ⟨item, member, same⟩
      · rcases max_choice start (height head) with left | right
        · exact Or.inl (same.trans left)
        · exact Or.inr ⟨head, List.mem_cons_self, same.trans right⟩
      · exact Or.inr ⟨item, List.mem_cons_of_mem _ member, same⟩

theorem highest_level_spec (spec : CollectiveSpec) (nonempty : spec.groups ≠ []) :
    IsGreatest { level | ∃ group ∈ spec.groups, group.level = level } (highestLevel spec) := by
  obtain ⟨_, each, reached⟩ := fold_max_spec (fun level : Nat => level) (spec.groups.map GroupSpec.level) 0
  refine ⟨?_, ?_⟩
  · rcases reached with bottom | ⟨level, member, same⟩
    · obtain ⟨group, rest, listed⟩ := List.exists_cons_of_ne_nil nonempty
      have member : group ∈ spec.groups := listed ▸ List.mem_cons_self
      have below := each group.level (List.mem_map_of_mem member)
      rw [bottom] at below
      exact ⟨group, member, (Nat.le_zero.mp below).trans bottom.symm⟩
    · obtain ⟨group, inside, rfl⟩ := List.mem_map.mp member
      exact ⟨group, inside, same.symm⟩
  · rintro level ⟨group, member, rfl⟩
    exact each group.level (List.mem_map_of_mem member)

-- A group of the highest level stands for an edge that no group of a lower level stands for.
def TopContributes (spec : CollectiveSpec) : Prop :=
  ∃ group ∈ spec.groups, (∀ other ∈ spec.groups, other.level ≤ group.level) ∧
    ∃ edge, group.Implies edge ∧ ∀ other ∈ spec.groups, other.Implies edge → group.level ≤ other.level

-- The stage count is one more than the highest declared level exactly when that level keeps an edge of its own.
theorem stage_count_iff (spec : CollectiveSpec) (collective : Collective) (built : build spec = .ok collective) :
    collective.stageCount = highestLevel spec + 1 ↔ TopContributes spec := by
  have derived := build_derived spec collective built
  obtain ⟨least, each, reached⟩ := fold_max_spec Nat.succ collective.logicalEdgeStage 1
  have count : collective.stageCount = collective.logicalEdgeStage.foldl (fun count stage => max count stage.succ) 1 :=
    derived.count
  rw [← count] at least each reached
  have zipped (stage : Nat) (member : stage ∈ collective.logicalEdgeStage) : ∃ edge, IsLeast (impliedAt spec edge) stage := by
    have seconds := List.map_snd_zip (le_of_eq derived.parallel)
    rw [← seconds] at member
    obtain ⟨⟨edge, _⟩, inside, rfl⟩ := List.mem_map.mp member
    exact ⟨edge, (derived.staged edge _).mp inside⟩
  have someStage : ∃ stage, stage ∈ collective.logicalEdgeStage := by
    have occupied : 0 < collective.logicalEdgeStage.length := derived.parallel ▸ List.length_pos_iff.mpr derived.nonempty
    exact ⟨_, List.getElem_mem occupied⟩
  obtain ⟨somewhere, present⟩ := someStage
  obtain ⟨_, ⟨declared, inSpec, _, _⟩, _⟩ := zipped somewhere present
  obtain ⟨⟨top, topMember, topLevel⟩, bound⟩ := highest_level_spec spec (List.ne_nil_of_mem inSpec)
  have below (stage : Nat) (member : stage ∈ collective.logicalEdgeStage) : stage ≤ highestLevel spec := by
    obtain ⟨edge, ⟨group, inside, level, _⟩, _⟩ := zipped stage member
    exact bound ⟨group, inside, level⟩
  constructor
  · intro same
    have kept : highestLevel spec ∈ collective.logicalEdgeStage := by
      rcases reached with one | ⟨stage, member, eq⟩
      · have flat := below somewhere present
        have zero : highestLevel spec = somewhere := by omega
        exact zero ▸ present
      · have here : highestLevel spec = stage := by omega
        exact here ▸ member
    obtain ⟨edge, ⟨group, inside, level, implied⟩, minimal⟩ := zipped _ kept
    refine ⟨group, inside, fun other member => level ▸ bound ⟨other, member, rfl⟩, edge, implied, fun other member also => ?_⟩
    exact level ▸ minimal ⟨other, member, rfl, also⟩
  · rintro ⟨group, member, highest, edge, implied, own⟩
    have level : group.level = highestLevel spec :=
      le_antisymm (bound ⟨group, member, rfl⟩) (topLevel ▸ highest top topMember)
    have kept : IsLeast (impliedAt spec edge) group.level := by
      refine ⟨⟨group, member, rfl, implied⟩, ?_⟩
      rintro _ ⟨other, inside, rfl, also⟩
      exact own other inside also
    have reachedTop := each _ (List.of_mem_zip ((derived.staged edge group.level).mpr kept)).2
    rw [level] at reachedTop
    rcases reached with one | ⟨stage, inside, eq⟩
    · omega
    · have := below stage inside
      omega

theorem overlapping_staged : ∃ collective, build Sample.overlapping = .ok collective ∧
    (collective.stageCount = highestLevel Sample.overlapping + 1 ↔ TopContributes Sample.overlapping) := by
  obtain ⟨collective, built⟩ := accepted_collective Sample.overlapping Sample.overlapping_accepted
  exact ⟨collective, built, stage_count_iff Sample.overlapping collective built⟩

end Collective

namespace Sample

-- Both edges of the ring of level one are those of the pair of level zero.
def shadowed : CollectiveSpec := layered [group "r" 1 .ring ["a", "b"], group "q" 0 .allToAll ["b", "a"]]

theorem shadowed_count : ((Collective.build shadowed).toOption.map Collective.stageCount) = some 1 := by decide +kernel

end Sample

namespace Collective

theorem shadowed_uncovered : ¬ ∀ spec collective, build spec = .ok collective →
    collective.stageCount = highestLevel spec + 1 := by
  intro covered
  have count := Sample.shadowed_count
  cases outcome : build Sample.shadowed with
  | error status => simp [outcome, Except.toOption] at count
  | ok collective =>
      have one : collective.stageCount = 1 := by simpa [outcome, Except.toOption] using count
      rw [covered Sample.shadowed collective outcome] at one
      exact absurd one (by decide)

end Collective

end PathPlanner

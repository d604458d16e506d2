import PathPlanner.Planner.Assignments
import PathPlanner.Planner.ProductSearch

set_option autoImplicit false

namespace PathPlanner.SolveGlobal

open Footprint EnumerateSets

-- The alternatives of a logical edge, as the set enumeration of some pool keeps them.
def Produced (state : PlannerState) (plan : EdgePlan) : Prop :=
  ∃ (pool : List Candidate) (cap budget : Nat),
    plan.alternatives = (enumerateSets state pool (Analyse.wanted state) cap budget).best

-- With enough nodes the product search ends with an assignment of the same value.
def SearchAgrees (plans : List EdgePlan) (spare : Remaining) (quick : GlobalCandidate) : Prop :=
  ∃ enough, ∀ budget, enough ≤ budget → ∃ last candidate, exploring plans spare budget = .finished last ∧
    last.best = some candidate ∧ candidate.totalCost = quick.totalCost ∧ candidate.conflicts = quick.conflicts ∧
    candidate.maxPathCost = quick.maxPathCost ∧ candidate.minHeadroom = quick.minHeadroom

def frontSets (plans : List EdgePlan) : List PathSet := setsOf plans (fronts plans)

def frontCost (plans : List EdgePlan) : Nat := ((frontSets plans).map PathSet.totalCost).sum

-- Edge by edge as cheap and as conflicting as the first alternatives, and nowhere dearer than the dearest of them.
def LevelTies (plans : List EdgePlan) (spare : Remaining) (choice : List Nat) : Prop :=
  List.Forall₂ (fun front set => front.totalCost = set.totalCost ∧ front.domainConflicts = set.domainConflicts)
    (frontSets plans) (setsOf plans choice) ∧ (result plans spare choice).maxPathCost ≤ (result plans spare (fronts plans)).maxPathCost

-- What the comparison still looks at once the cost is at its ceiling.
def cappedKey (candidate : GlobalCandidate) : Nat ×ₗ Nat ×ₗ Natᵒᵈ :=
  toLex (candidate.conflicts, toLex (candidate.maxPathCost, OrderDual.toDual candidate.minHeadroom))

-- A fitting combination that ties the first alternatives and leaves more room on the edges it uses.
def Roomier (plans : List EdgePlan) (spare : Remaining) (choice : List Nat) : Prop :=
  Feasible plans spare choice ∧
    if frontCost plans < kCostCeiling then
      LevelTies plans spare choice ∧ (result plans spare (fronts plans)).minHeadroom < (result plans spare choice).minHeadroom
    else cappedKey (result plans spare choice) < cappedKey (result plans spare (fronts plans))

-- Ordered alternatives whose first one is there.
structure Ordered (plans : List EdgePlan) : Prop where
  sorted : ∀ plan ∈ plans, plan.alternatives.Pairwise fun a b => pathSetKey a ≤ pathSetKey b
  distinct : Distinct plans

theorem produced_ordered (state : PlannerState) (plans : List EdgePlan) (produced : ∀ plan ∈ plans, Produced state plan) :
    Ordered plans := by
  refine ⟨fun plan member => ?_, fun plan member set stored => ?_⟩
  · obtain ⟨pool, cap, budget, same⟩ := produced plan member
    obtain ⟨taken, _, best, _⟩ := enumerate_sets_best state (Analyse.wanted state) cap budget pool
    rw [same]
    exact best.sorted
  · obtain ⟨pool, cap, budget, same⟩ := produced plan member
    obtain ⟨taken, part, best, _⟩ := enumerate_sets_best state (Analyse.wanted state) cap budget pool
    rw [same] at stored
    have offeredSet := part.mem (best.mem set stored)
    obtain ⟨chosen, _, rfl⟩ := List.mem_map.mp (List.mem_of_mem_filter offeredSet)
    exact usage_distinct chosen

variable {plans : List EdgePlan} {spare : Remaining}

theorem front_key_le (plan : EdgePlan) (sorted : plan.alternatives.Pairwise fun a b => pathSetKey a ≤ pathSetKey b)
    (index : Nat) (inside : index < plan.alternatives.length) :
    pathSetKey (plan.alternatives.getD 0 {}) ≤ pathSetKey (plan.alternatives.getD index {}) := by
  cases stored : plan.alternatives with
  | nil => simp [stored] at inside
  | cons front rest =>
      rw [stored] at sorted inside
      cases index with
      | zero => exact le_refl _
      | succ index =>
          rw [List.getD_cons_zero, List.getD_eq_getElem _ _ inside]
          exact (List.pairwise_cons.mp sorted).1 _ (by simp)

theorem fronts_first (ordered : Ordered plans) (choice : List Nat) (picked : Chosen plans choice) :
    List.Forall₂ (fun front set => pathSetKey front ≤ pathSetKey set) (frontSets plans) (setsOf plans choice) := by
  have sorted := ordered.sorted
  unfold frontSets setsOf fronts
  induction picked with
  | nil => exact List.Forall₂.nil
  | @cons plan index rest choices inside picked ih =>
      rw [List.length_cons, List.replicate_succ, List.zipWith_cons_cons, List.zipWith_cons_cons]
      exact List.Forall₂.cons (front_key_le plan (sorted plan List.mem_cons_self) index inside)
        (ih ⟨fun other member => sorted other (List.mem_cons_of_mem _ member),
          fun other member => ordered.distinct other (List.mem_cons_of_mem _ member)⟩
          fun other member => sorted other (List.mem_cons_of_mem _ member))

-- Two lists that are ordered position by position and have the same sum are equal.
theorem forall_sum_le (lhs rhs : List Nat) (below : List.Forall₂ (· ≤ ·) lhs rhs) : lhs.sum ≤ rhs.sum := by
  induction below with
  | nil => exact le_refl _
  | cons less rest ih =>
      simp only [List.sum_cons]
      omega

theorem forall_sum_eq (lhs rhs : List Nat) (below : List.Forall₂ (· ≤ ·) lhs rhs) (same : rhs.sum ≤ lhs.sum) : lhs = rhs := by
  induction below with
  | nil => rfl
  | @cons a b lhs rhs less rest ih =>
      have total := forall_sum_le _ _ rest
      simp only [List.sum_cons] at same
      rw [ih (by omega), show a = b by omega]

theorem forall_map_iff {α β : Type} (relation : β → β → Prop) (view : α → β) (lhs rhs : List α) :
    List.Forall₂ relation (lhs.map view) (rhs.map view) ↔ List.Forall₂ (fun a b => relation (view a) (view b)) lhs rhs := by
  rw [List.forall₂_map_left_iff, List.forall₂_map_right_iff]

theorem forall_map_eq {α β : Type} (view : α → β) (lhs rhs : List α) :
    lhs.map view = rhs.map view ↔ List.Forall₂ (fun a b => view a = view b) lhs rhs := by
  rw [← List.forall₂_eq_eq_eq, forall_map_iff]

theorem key_cost_le (front set : PathSet) (below : pathSetKey front ≤ pathSetKey set) : front.totalCost ≤ set.totalCost := by
  rcases (Prod.Lex.toLex_le_toLex.mp below) with less | ⟨same, _⟩
  · exact less.le
  · exact same.le

theorem key_conflicts_le (front set : PathSet) (below : pathSetKey front ≤ pathSetKey set)
    (cost : front.totalCost = set.totalCost) : front.domainConflicts ≤ set.domainConflicts := by
  rcases (Prod.Lex.toLex_le_toLex.mp below) with less | ⟨_, rest⟩
  · exact absurd cost less.ne
  · rcases (Prod.Lex.toLex_le_toLex.mp rest) with less | ⟨same, _⟩
    · exact less.le
    · exact same.le

theorem key_path_le (front set : PathSet) (below : pathSetKey front ≤ pathSetKey set)
    (cost : front.totalCost = set.totalCost) (conflicts : front.domainConflicts = set.domainConflicts) :
    front.maxPathCost ≤ set.maxPathCost := by
  rcases (Prod.Lex.toLex_le_toLex.mp below) with less | ⟨_, rest⟩
  · exact absurd cost less.ne
  · rcases (Prod.Lex.toLex_le_toLex.mp rest) with less | ⟨_, last⟩
    · exact absurd conflicts less.ne
    · rcases (Prod.Lex.toLex_le_toLex.mp last) with less | ⟨same, _⟩
      · exact less.le
      · exact same.le

theorem result_cost (choice : List Nat) :
    (result plans spare choice).totalCost = min kCostCeiling ((setsOf plans choice).map PathSet.totalCost).sum :=
  saturating_sum_eq _

theorem fronts_cost_le (ordered : Ordered plans) (choice : List Nat) (picked : Chosen plans choice) :
    frontCost plans ≤ ((setsOf plans choice).map PathSet.totalCost).sum := by
  refine forall_sum_le _ _ ((forall_map_iff _ _ _ _).mpr ?_)
  exact (fronts_first ordered choice picked).imp fun front set below => key_cost_le front set below

theorem conflicts_le (ordered : Ordered plans) (choice : List Nat) (picked : Chosen plans choice)
    (costs : List.Forall₂ (fun front set => front.totalCost = set.totalCost) (frontSets plans) (setsOf plans choice)) :
    List.Forall₂ (fun front set => front.domainConflicts ≤ set.domainConflicts) (frontSets plans) (setsOf plans choice) := by
  have first := fronts_first ordered choice picked
  generalize frontSets plans = lhs, setsOf plans choice = rhs at first costs
  induction first with
  | nil => exact List.Forall₂.nil
  | @cons front set _ _ below rest ih =>
      rw [List.forall₂_cons] at costs
      exact List.Forall₂.cons (key_conflicts_le front set below costs.1) (ih costs.2)

-- What an assignment better than the first alternatives must look like below the cost ceiling.
theorem better_ties (ordered : Ordered plans) (room : frontCost plans < kCostCeiling) (choice : List Nat) (picked : Chosen plans choice)
    (better : globalKey (result plans spare choice) < globalKey (result plans spare (fronts plans))) :
    LevelTies plans spare choice ∧ (result plans spare (fronts plans)).minHeadroom < (result plans spare choice).minHeadroom := by
  have cheapest := fronts_cost_le ordered choice picked
  have frontsCost : (result plans spare (fronts plans)).totalCost = min kCostCeiling (frontCost plans) := result_cost _
  have choiceCost : (result plans spare choice).totalCost = _ := result_cost choice
  have below := fronts_first ordered choice picked
  have sameCost : (result plans spare choice).totalCost = (result plans spare (fronts plans)).totalCost ∧
      toLex ((result plans spare choice).conflicts, toLex ((result plans spare choice).maxPathCost,
        OrderDual.toDual (result plans spare choice).minHeadroom)) <
      toLex ((result plans spare (fronts plans)).conflicts, toLex ((result plans spare (fronts plans)).maxPathCost,
        OrderDual.toDual (result plans spare (fronts plans)).minHeadroom)) := by
    rcases Prod.Lex.toLex_lt_toLex.mp better with less | rest
    · dsimp only at less
      omega
    · exact rest
  obtain ⟨cost, rest⟩ := sameCost
  have costs : List.Forall₂ (fun front set => front.totalCost = set.totalCost) (frontSets plans) (setsOf plans choice) := by
    refine (forall_map_eq _ _ _).mp (forall_sum_eq _ _ ((forall_map_iff _ _ _ _).mpr
      (below.imp fun front set less => key_cost_le front set less)) ?_)
    change _ ≤ frontCost plans
    omega
  have conflictsBelow := conflicts_le ordered choice picked costs
  have fewer := forall_sum_le _ _ ((forall_map_iff _ PathSet.domainConflicts _ _).mpr conflictsBelow)
  have sameConflicts : (result plans spare choice).conflicts = (result plans spare (fronts plans)).conflicts ∧
      toLex ((result plans spare choice).maxPathCost, OrderDual.toDual (result plans spare choice).minHeadroom) <
      toLex ((result plans spare (fronts plans)).maxPathCost,
        OrderDual.toDual (result plans spare (fronts plans)).minHeadroom) := by
    rcases Prod.Lex.toLex_lt_toLex.mp rest with less | last
    · exact absurd fewer (not_le.mpr less)
    · exact last
  obtain ⟨conflicts, last⟩ := sameConflicts
  have each : List.Forall₂ (fun front set => front.domainConflicts = set.domainConflicts) (frontSets plans) (setsOf plans choice) :=
    (forall_map_eq _ _ _).mp (forall_sum_eq _ _ ((forall_map_iff _ PathSet.domainConflicts _ _).mpr conflictsBelow) conflicts.le)
  have ties : List.Forall₂ (fun front set => front.totalCost = set.totalCost ∧ front.domainConflicts = set.domainConflicts)
      (frontSets plans) (setsOf plans choice) := by
    generalize frontSets plans = lhs, setsOf plans choice = rhs at costs each
    induction costs with
    | nil => exact List.Forall₂.nil
    | cons cost rest ih =>
        rw [List.forall₂_cons] at each
        exact List.Forall₂.cons ⟨cost, each.1⟩ (ih each.2)
  have dearest : (result plans spare (fronts plans)).maxPathCost ≤ (result plans spare choice).maxPathCost := by
    refine (fold_max_le _ _ _).mpr ⟨Nat.zero_le _, fun cost member => ?_⟩
    obtain ⟨front, listed, rfl⟩ := List.mem_map.mp member
    obtain ⟨position, inside, rfl⟩ := List.getElem_of_mem listed
    obtain ⟨length, keys⟩ := List.forall₂_iff_get.mp below
    obtain ⟨_, equal⟩ := List.forall₂_iff_get.mp ties
    have within : position < (setsOf plans choice).length := length ▸ inside
    have least := key_path_le _ _ (keys position inside within) (equal position inside within).1 (equal position inside within).2
    refine least.trans ((fold_max_le _ _ _).mp (le_refl _) |>.2 _ (List.mem_map_of_mem ?_))
    exact List.getElem_mem within
  rcases Prod.Lex.toLex_lt_toLex.mp last with less | ⟨same, room⟩
  · exact absurd dearest (not_le.mpr less)
  · exact ⟨⟨ties, same.le⟩, OrderDual.toDual_lt_toDual.mp room⟩

theorem ties_cost (choice : List Nat) (ties : LevelTies plans spare choice) :
    (result plans spare choice).totalCost = (result plans spare (fronts plans)).totalCost ∧
      (result plans spare choice).conflicts = (result plans spare (fronts plans)).conflicts := by
  have costs := (forall_map_eq PathSet.totalCost (frontSets plans) (setsOf plans choice)).mpr (ties.1.imp fun _ _ both => both.1)
  have conflicts := (forall_map_eq PathSet.domainConflicts (frontSets plans) (setsOf plans choice)).mpr
    (ties.1.imp fun _ _ both => both.2)
  exact ⟨congrArg saturatingSum costs.symm, congrArg List.sum conflicts.symm⟩

theorem roomier_iff (ordered : Ordered plans) (choice : List Nat) : Roomier plans spare choice ↔
    Feasible plans spare choice ∧ globalKey (result plans spare choice) < globalKey (result plans spare (fronts plans)) := by
  refine and_congr_right fun feasible => ?_
  have cheapest := fronts_cost_le ordered choice feasible.1
  by_cases room : frontCost plans < kCostCeiling
  · rw [if_pos room]
    refine ⟨fun both => ?_, fun better => better_ties ordered room choice feasible.1 better⟩
    obtain ⟨ties, more⟩ := both
    obtain ⟨cost, conflicts⟩ := ties_cost choice ties
    refine Prod.Lex.toLex_lt_toLex.mpr (Or.inr ⟨cost, Prod.Lex.toLex_lt_toLex.mpr (Or.inr ⟨conflicts, ?_⟩)⟩)
    rcases lt_or_eq_of_le ties.2 with less | same
    · exact Prod.Lex.toLex_lt_toLex.mpr (Or.inl less)
    · exact Prod.Lex.toLex_lt_toLex.mpr (Or.inr ⟨same, OrderDual.toDual_lt_toDual.mpr more⟩)
  · rw [if_neg room]
    have choiceCost : (result plans spare choice).totalCost = _ := result_cost choice
    have frontsCost : (result plans spare (fronts plans)).totalCost = min kCostCeiling (frontCost plans) := result_cost _
    have same : (result plans spare choice).totalCost = (result plans spare (fronts plans)).totalCost := by omega
    refine ⟨fun less => Prod.Lex.toLex_lt_toLex.mpr (Or.inr ⟨same, less⟩), fun better => ?_⟩
    rcases Prod.Lex.toLex_lt_toLex.mp better with less | ⟨_, rest⟩
    · exact absurd same less.ne
    · exact rest

-- A search with as many nodes as there are visits is not cut short.
theorem exploring_unlimited (distinct : Distinct plans) (budget : Nat)
    (enough : visits (events plans plans.length [] spare) ≤ budget) : ∃ last, exploring plans spare budget = .finished last := by
  obtain ⟨last, finished | limited⟩ := exploring_ends plans spare budget
  · exact ⟨last, finished⟩
  · have outcome := explore_outcome distinct budget (2 * budget + 1) (starting spare) (Nat.zero_le _)
    have ended : explore plans budget (2 * budget + 1) (starting spare) = .limited last := limited
    rw [starting_pending, ended] at outcome
    obtain ⟨⟨rest, done, split, _, nodes⟩, halted⟩ := outcome
    have one : visits (Event.visit :: rest) = visits rest + 1 := by simp [visits, Event.offered]
    rw [split, visits_append, one] at enough
    have start : (starting spare).nodes = 0 := rfl
    omega

theorem same_key (lhs rhs : GlobalCandidate) : globalKey lhs = globalKey rhs ↔ lhs.totalCost = rhs.totalCost ∧
    lhs.conflicts = rhs.conflicts ∧ lhs.maxPathCost = rhs.maxPathCost ∧ lhs.minHeadroom = rhs.minHeadroom := by
  simp only [globalKey, EmbeddingLike.apply_eq_iff_eq, Prod.mk.injEq]

theorem search_agrees_iff (ordered : Ordered plans) (quick : GlobalCandidate) (taken : fastPath plans spare = some quick) :
    SearchAgrees plans spare quick ↔ ∀ choice, ¬ Roomier plans spare choice := by
  have feasible : Feasible plans spare (fronts plans) := by
    by_contra crowded
    rw [fast_path_none spare crowded] at taken
    simp at taken
  rw [fast_path_some spare feasible, Option.some.injEq] at taken
  subst taken
  constructor
  · rintro ⟨enough, agrees⟩ choice roomier
    obtain ⟨fitting, better⟩ := (roomier_iff ordered choice).mp roomier
    obtain ⟨last, candidate, ended, found, same⟩ := agrees enough (le_refl _)
    have kept := exploring_finished ordered.distinct last ended
    rw [found] at kept
    obtain ⟨first, eq, leading⟩ := kept
    rw [← same_key, eq] at same
    rcases leading.best choice fitting with less | ⟨equal, _⟩
    · exact lt_asymm (same ▸ less) better
    · exact ne_of_lt better (equal.symm.trans same)
  · intro none
    refine ⟨visits (events plans plans.length [] spare), fun budget enough => ?_⟩
    obtain ⟨last, ended⟩ := exploring_unlimited ordered.distinct budget enough
    have kept := exploring_finished ordered.distinct last ended
    cases found : last.best with
    | none =>
        rw [found] at kept
        exact absurd feasible (kept _)
    | some candidate =>
        rw [found] at kept
        obtain ⟨first, eq, leading⟩ := kept
        refine ⟨last, candidate, ended, found, (same_key _ _).mp ?_⟩
        rw [eq]
        rcases leading.best (fronts plans) feasible with less | ⟨equal, _⟩
        · exact absurd ((roomier_iff ordered first).mpr ⟨leading.feasible, less⟩) (none first)
        · exact equal

theorem fast_path_agrees_iff (state : PlannerState) (plans : List EdgePlan) (produced : ∀ plan ∈ plans, Produced state plan)
    (spare : Remaining) (quick : GlobalCandidate) (taken : fastPath plans spare = some quick) :
    SearchAgrees plans spare quick ↔ ∀ choice, ¬ Roomier plans spare choice :=
  search_agrees_iff (produced_ordered state plans produced) quick taken

-- Two leaves on one node: both first choices share an edge that they fill, while the second edge is nearly as roomy.
def fullShare : BuiltRequest :=
  .of (Sample.request .tree (Sample.star ["p", "q", "r"]) 10
    (Sample.fabric ["a", "b"] [Sample.edge "e1" "a" "b" 20 1, Sample.edge "e2" "a" "b" 18 1])
    [Sample.binding "p" "a", Sample.binding "q" "b", Sample.binding "r" "b"]) (draft_accepted _ (by decide +kernel))

def fullShareState : PlannerState := PlanCollective.initialState fullShare.request {}

theorem full_share_drafted : fullShareState = PlanCollective.initialState (draftedRequest fullShare.spec) {} := by
  rw [fullShareState, BuiltRequest.drafted]

def fullSharePool : List Candidate := [fullShareState.candidateOf [0], fullShareState.candidateOf [1]]

def fullSharePlan : EdgePlan :=
  { alternatives := (enumerateSets fullShareState fullSharePool (Analyse.wanted fullShareState) 8 200000).best
    setsExhaustive := true }

theorem full_share_produced (plan : EdgePlan) (listed : plan ∈ List.replicate 2 fullSharePlan) :
    Produced fullShareState plan := by
  rw [List.eq_of_mem_replicate listed]
  refine ⟨fullSharePool, 8, 200000, ?_⟩
  rw [fullSharePlan]

def fullShareQuick : GlobalCandidate := result (List.replicate 2 fullSharePlan) fullShareState.spare [0, 0]

theorem full_share_fits : fastPath (List.replicate 2 fullSharePlan) fullShareState.spare = some fullShareQuick := by
  simp only [fullShareQuick, fullSharePlan, fullSharePool, full_share_drafted]
  decide +kernel

def fullShareSet (index : Nat) : PathSet := fullSharePlan.alternatives.getD index {}

theorem full_share_set_distinct (index : Nat) (inside : index < fullSharePlan.alternatives.length) :
    ((fullShareSet index).usage.map Prod.fst).Nodup := by
  refine (produced_ordered fullShareState _ full_share_produced).distinct fullSharePlan (by simp) _ ?_
  rw [fullShareSet, List.getD_eq_getElem _ _ inside]
  exact List.getElem_mem inside

theorem full_share_fitting : fullSharePlan.alternatives.length = 2 ∧ fits fullShareState.spare (fullShareSet 0) = true ∧
    fits (apply fullShareState.spare (fullShareSet 0)) (fullShareSet 1) = true ∧
    globalKey (result (List.replicate 2 fullSharePlan) fullShareState.spare [0, 1]) <
      globalKey (result (List.replicate 2 fullSharePlan) fullShareState.spare (fronts (List.replicate 2 fullSharePlan))) := by
  simp only [fullShareSet, fullSharePlan, fullSharePool, full_share_drafted]
  decide +kernel

theorem full_share_feasible : Feasible (List.replicate 2 fullSharePlan) fullShareState.spare [0, 1] := by
  obtain ⟨two, first, second, _⟩ := full_share_fitting
  refine ⟨?_, ?_⟩
  · exact List.Forall₂.cons (by omega) (List.Forall₂.cons (by omega) List.Forall₂.nil)
  · change Affordable fullShareState.spare [fullShareSet 0, fullShareSet 1]
    refine (affordable_cons _ _ _ (full_share_set_distinct 0 (by omega))).mpr ⟨first, ?_⟩
    refine (affordable_cons _ _ _ (full_share_set_distinct 1 (by omega))).mpr ⟨second, fun edge => ?_⟩
    simp [claim, amount]

theorem full_share_roomier : Roomier (List.replicate 2 fullSharePlan) fullShareState.spare [0, 1] :=
  (roomier_iff (produced_ordered fullShareState _ full_share_produced) [0, 1]).mpr ⟨full_share_feasible, full_share_fitting.2.2.2⟩

-- The first choices are taken although a sibling of the second leaves eight units on every edge used instead of none.
theorem fast_path_disagrees : ¬ ∀ (state : PlannerState) (plans : List EdgePlan), (∀ plan ∈ plans, Produced state plan) →
    ∀ (spare : Remaining) (quick : GlobalCandidate), fastPath plans spare = some quick → SearchAgrees plans spare quick := by
  intro claimed
  have agrees := claimed fullShareState _ full_share_produced fullShareState.spare fullShareQuick full_share_fits
  have ordered := produced_ordered fullShareState _ full_share_produced
  exact (search_agrees_iff ordered fullShareQuick full_share_fits).mp agrees [0, 1] full_share_roomier

theorem full_share_agreement : SearchAgrees (List.replicate 2 fullSharePlan) fullShareState.spare fullShareQuick ↔
    ∀ choice, ¬ Roomier (List.replicate 2 fullSharePlan) fullShareState.spare choice :=
  fast_path_agrees_iff fullShareState _ full_share_produced _ _ full_share_fits

end PathPlanner.SolveGlobal

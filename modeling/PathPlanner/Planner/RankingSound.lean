import PathPlanner.Planner.Ranking

set_option autoImplicit false

namespace PathPlanner

open Mapping Walk EnumerateSets

namespace Ranking

variable {request : PlanningRequest}

theorem set_for_reordered (lhs rhs : List Route) (same : (setFor request lhs).signature = (setFor request rhs).signature)
    (source target : EndpointBinding) (apart : source.node ≠ target.node)
    (left : AdmissibleSet request source target lhs) (right : AdmissibleSet request source target rhs) : lhs.Perm rhs := by
  rw [set_for_signature, set_for_signature] at same
  have ends : ∀ routes, AdmissibleSet request source target routes → List.Forall₂ (fun pair arcs => arcs ≠ [] ∧
      IsWalk (tailOf request) (headOf request) pair.1 arcs pair.2 ∧ (visited (headOf request) pair.1 arcs).Nodup)
      (List.replicate request.policy.pathsPerLogicalEdge (source.node, target.node)) (canonicalOrder request routes) := by
    intro routes admissible
    have perm := canonical_order_perm request routes
    rw [← admissible.count, ← perm.length_eq]
    have each : ∀ route ∈ canonicalOrder request routes, route ≠ [] ∧
        IsWalk (tailOf request) (headOf request) source.node route target.node ∧ (visited (headOf request) source.node route).Nodup := by
      intro route member
      have compliant := admissible.compliant route (perm.mem_iff.mp member)
      refine ⟨?_, compliant.walk, compliant.simple⟩
      rintro rfl
      exact apart compliant.walk
    generalize canonicalOrder request routes = ordered at each
    induction ordered with
    | nil => exact List.Forall₂.nil
    | cons route rest ih =>
        exact List.Forall₂.cons (each route (by simp)) (ih fun other member => each other (List.mem_cons_of_mem _ member))
  have equal := flatten_unique _ _ _ _ _ (ends lhs left) (ends rhs right) same
  exact ((canonical_order_perm request lhs).symm.trans (equal ▸ List.Perm.refl _)).trans (canonical_order_perm request rhs)

theorem set_for_injective (lhs rhs : List Route) (same : setFor request lhs = setFor request rhs) : lhs.Perm rhs := by
  have paths := congrArg PathSet.paths same
  rw [set_for_paths, set_for_paths] at paths
  have ordered : canonicalOrder request lhs = canonicalOrder request rhs := by
    have edges := congrArg (List.map Candidate.edges) paths
    simpa [List.map_map, Function.comp_def, PlannerState.candidateOf] using edges
  exact ((canonical_order_perm request lhs).symm.trans (ordered ▸ List.Perm.refl _)).trans (canonical_order_perm request rhs)

theorem before_key (lhs rhs : List Route) :
    Before request lhs rhs ↔ pathSetKey (setFor request lhs) < pathSetKey (setFor request rhs) := path_set_less_key _ _

-- What is kept for a logical edge when no budget cut its search short.
structure Complete (request : PlanningRequest) (cap : Nat) (logical : LogicalEdge) (sets : List PathSet) : Prop where
  strict : sets.Pairwise fun a b => pathSetKey a < pathSetKey b
  kept : ∀ routes, AdmissibleFor request logical routes → (setFor request routes ∈ sets ↔ ¬ Outranked request cap logical routes)
  front : ∀ routes, AdmissibleFor request logical routes → ∀ front rest, sets = front :: rest →
    pathSetKey front ≤ pathSetKey (setFor request routes)
  unique : ∀ lhs rhs, AdmissibleFor request logical lhs → AdmissibleFor request logical rhs →
    pathSetKey (setFor request lhs) = pathSetKey (setFor request rhs) → lhs.Perm rhs
  apart : ∀ source target, BoundTo request logical.src source → BoundTo request logical.dst target → source.node ≠ target.node

-- The alternatives of a logical edge that passed its analysis.
structure Stocked (request : PlanningRequest) (cap : Nat) (logical : LogicalEdge) (plan : EdgePlan) : Prop where
  nonempty : plan.alternatives ≠ []
  short : plan.alternatives.length ≤ cap
  sound : ∀ set ∈ plan.alternatives, ∃ routes, AdmissibleFor request logical routes ∧ set = setFor request routes ∧
    canonicalOrder request routes = routes
  complete : plan.setsExhaustive = true → Complete request cap logical plan.alternatives

variable {state : PlannerState} {limits : PlannerLimits} {task : EnumerationTask} {logical : LogicalEdge}

theorem retained_complete (stateSound : PlannerState.Sound state) (edgeTask : EdgeTask state logical task) (sets : List PathSet)
    (retained : Analyse.Retained state limits task true sets) (apart : task.sourceBinding.node ≠ task.targetBinding.node) :
    Complete state.request limits.maxSetAlternatives logical sets := by
  obtain ⟨items, best, distinct, sound, complete⟩ := retained.best
  have narrow : ∀ routes, AdmissibleFor state.request logical routes →
      AdmissibleSet state.request task.sourceBinding task.targetBinding routes := by
    rintro routes ⟨source, target, left, right, admissible⟩
    obtain ⟨rfl, rfl⟩ := edgeTask.bindings_unique stateSound source target left right
    exact admissible
  have widen : ∀ routes, AdmissibleSet state.request task.sourceBinding task.targetBinding routes →
      AdmissibleFor state.request logical routes := fun routes admissible =>
    ⟨_, _, edgeTask.source, edgeTask.target, admissible⟩
  have listed : ∀ routes, AdmissibleFor state.request logical routes → setFor state.request routes ∈ items := by
    intro routes admissible
    obtain ⟨order, perm, _, member⟩ := complete rfl routes (narrow routes admissible)
    rwa [set_of_state state stateSound, set_for_congr order routes perm] at member
  have shown : ∀ set ∈ items, ∃ routes, AdmissibleFor state.request logical routes ∧ set = setFor state.request routes := by
    intro set member
    obtain ⟨routes, setSound⟩ := sound set member
    exact ⟨routes, widen routes setSound.admissible, by rw [setSound.built, set_of_state state stateSound]⟩
  have unique : ∀ lhs rhs, AdmissibleFor state.request logical lhs → AdmissibleFor state.request logical rhs →
      pathSetKey (setFor state.request lhs) = pathSetKey (setFor state.request rhs) → lhs.Perm rhs := by
    intro lhs rhs left right same
    have signature := congrArg (fun key : PathSetKey => (ofLex (ofLex (ofLex (ofLex key).2).2).2).2) same
    exact set_for_reordered lhs rhs signature _ _ apart (narrow lhs left) (narrow rhs right)
  have keys : ∀ a ∈ items, ∀ b ∈ items, pathSetKey a = pathSetKey b → a = b := by
    intro a left b right same
    obtain ⟨lhs, lhsGood, rfl⟩ := shown a left
    obtain ⟨rhs, rhsGood, rfl⟩ := shown b right
    exact set_for_congr lhs rhs (unique lhs rhs lhsGood rhsGood same)
  obtain ⟨dropped, perm, lower, full⟩ := best.split
  have keptDistinct : sets.Nodup := ((perm.nodup_iff.mpr distinct).of_append_left)
  refine ⟨?_, fun routes admissible => ⟨fun member => ?_, fun free => ?_⟩, fun routes admissible front rest starts => ?_, unique, fun source target left right => ?_⟩
  · refine (best.sorted.and keptDistinct).imp_of_mem fun {a b} left right both => ?_
    exact lt_of_le_of_ne both.1 fun same => both.2 (keys a (best.mem a left) b (best.mem b right) same)
  · rintro ⟨others, count, apartOthers, others_before⟩
    have inside : ∀ set ∈ others.map (setFor state.request), set ∈ sets := by
      intro set picked
      obtain ⟨other, inOthers, rfl⟩ := List.mem_map.mp picked
      obtain ⟨good, before⟩ := others_before other inOthers
      rcases List.mem_append.mp (perm.mem_iff.mpr (listed other good)) with here | lost
      · exact here
      · exact absurd ((before_key other routes).mp before) (not_lt.mpr (lower _ member _ lost))
    have fresh : setFor state.request routes ∉ others.map (setFor state.request) := by
      intro picked
      obtain ⟨other, inOthers, same⟩ := List.mem_map.mp picked
      have before := (before_key other routes).mp (others_before other inOthers).2
      rw [same] at before
      exact lt_irrefl _ before
    have distinctOthers : (others.map (setFor state.request)).Nodup :=
      List.pairwise_map.mpr (apartOthers.imp fun {lhs rhs} differ same => differ (set_for_injective lhs rhs same))
    have listedAll : setFor state.request routes :: others.map (setFor state.request) ⊆ sets := by
      intro set picked
      rcases List.mem_cons.mp picked with rfl | later
      · exact member
      · exact inside set later
    have crowd := ((List.nodup_cons.mpr ⟨fresh, distinctOthers⟩).subperm listedAll).length_le
    have short := best.short
    rw [List.length_cons, List.length_map, count] at crowd
    omega
  · by_contra missing
    apply free
    have lost : setFor state.request routes ∈ dropped := by
      rcases List.mem_append.mp (perm.mem_iff.mpr (listed routes admissible)) with here | lost
      · exact absurd here missing
      · exact lost
    have filled := full (List.ne_nil_of_mem lost)
    have short := best.short
    have chosen : ∃ others : List (List Route), sets = others.map (setFor state.request) ∧
        ∀ other ∈ others, AdmissibleFor state.request logical other := by
      have each : ∀ set ∈ sets, ∃ other, AdmissibleFor state.request logical other ∧ set = setFor state.request other :=
        fun set member => shown set (best.mem set member)
      generalize sets = list at each
      induction list with
      | nil => exact ⟨[], rfl, by simp⟩
      | cons set rest ih =>
          obtain ⟨other, good, rfl⟩ := each set (by simp)
          obtain ⟨others, rfl, allGood⟩ := ih fun later member => each later (List.mem_cons_of_mem _ member)
          exact ⟨other :: others, rfl, by simpa using ⟨good, allGood⟩⟩
    obtain ⟨others, setsEq, allGood⟩ := chosen
    refine ⟨others, ?_, ?_, fun other inOthers => ⟨allGood other inOthers, ?_⟩⟩
    · have length := congrArg List.length setsEq
      rw [List.length_map] at length
      omega
    · rw [setsEq] at keptDistinct
      exact (List.pairwise_map.mp keptDistinct).imp fun {lhs rhs} differ perm => differ (set_for_congr lhs rhs perm)
    · have here : setFor state.request other ∈ sets := by
        rw [setsEq]
        exact List.mem_map_of_mem inOthers
      refine (before_key other routes).mpr (lt_of_le_of_ne (lower _ here _ lost) fun same => ?_)
      have equal := keys _ (best.mem _ here) _ (listed routes admissible) same
      exact missing (equal ▸ here)
  · exact best.front_least front rest starts _ (listed routes admissible)
  · obtain ⟨rfl, rfl⟩ := edgeTask.bindings_unique stateSound source target left right
    exact apart

theorem verdict_stocked (stateSound : PlannerState.Sound state) (edgeTask : EdgeTask state logical task) (plan : EdgePlan)
    (passed : plan.failed = false) (verdict : Analyse.Verdict state limits task plan) :
    Stocked state.request limits.maxSetAlternatives logical plan := by
  obtain ⟨nonempty, retained, apart⟩ := verdict.kept passed
  obtain ⟨items, best, _, sound, _⟩ := retained.best
  refine ⟨nonempty, best.short, fun set member => ?_, fun exhaustive => ?_⟩
  · obtain ⟨routes, setSound⟩ := sound set (best.mem set member)
    have built : set = setFor state.request routes := by rw [setSound.built, set_of_state state stateSound]
    refine ⟨routes, ⟨_, _, edgeTask.source, edgeTask.target, setSound.admissible⟩, built, ?_⟩
    have paths := setSound.paths
    rw [built, set_for_paths] at paths
    have edges := congrArg (List.map Candidate.edges) paths
    simpa [List.map_map, Function.comp_def, PlannerState.candidateOf] using edges
  · rw [exhaustive] at retained
    exact retained_complete stateSound edgeTask _ retained (apart exhaustive)

end Ranking

end PathPlanner

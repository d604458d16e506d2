import PathPlanner.Planner.Budgets

set_option autoImplicit false

namespace PathPlanner

open Mapping Budget

namespace Enumerate

variable (state : PlannerState) (blocks : BlockSet) (task : EnumerationTask)

-- The edges a sweep without budgets tries.
def edgeSteps (descend : NodeIndex → Nat → Nat) (last : Bool) (node : NodeIndex) (visited : List NodeIndex) (cost : Nat)
    (index : EdgeIndex) : Nat :=
  match extend state blocks task node visited cost index with
  | none => 1
  | some (next, nextCost) => if next = task.target then 1 else if last then 1 else 1 + descend next nextCost

def depthSteps : Nat → NodeIndex → List NodeIndex → Nat → Nat
  | 0, _, _, _ => 0
  | remaining + 1, node, visited, cost =>
      ((state.fabric.outEdges node).map (edgeSteps state blocks task
        (fun next nextCost => depthSteps remaining next (next :: visited) nextCost) (decide (remaining = 0)) node visited cost)).sum

def sweepSteps : Nat → Nat → Nat
  | 0, _ => 0
  | left + 1, limit => depthSteps state blocks task limit task.source [task.source] 0 + sweepSteps left (limit + 1)

-- What a piece of the enumeration charges: the whole of it unless it was stopped.
structure Metered (full : Nat) (before after : EnumerationRun) : Prop where
  steps : after.out.steps ≤ before.out.steps + full
  total : after.scratch.enumerationSteps ≤ before.scratch.enumerationSteps + full
  whole : ¬ stopped state task after → after.out.steps = before.out.steps + full ∧
    after.scratch.enumerationSteps = before.scratch.enumerationSteps + full
  limited : after.out.stepLimited = true → before.out.stepLimited = true ∨ stopped state task after
  monotone : stopped state task before → stopped state task after

variable {state blocks task}

theorem metered_nothing (run : EnumerationRun) : Metered state task 0 run run :=
  ⟨le_refl _, le_refl _, fun _ => ⟨rfl, rfl⟩, Or.inl, id⟩

theorem metered_stopped (full : Nat) (run : EnumerationRun) (halted : stopped state task run) : Metered state task full run run :=
  ⟨Nat.le_add_right _ _, Nat.le_add_right _ _, fun running => absurd halted running, Or.inl, id⟩

theorem metered_trans (first second : Nat) (before middle after : EnumerationRun) (left : Metered state task first before middle)
    (right : Metered state task second middle after) : Metered state task (first + second) before after := by
  have steps := left.steps
  have total := left.total
  refine ⟨right.steps.trans (by omega), right.total.trans (by omega), fun running => ?_, fun limited => ?_,
    fun halted => right.monotone (left.monotone halted)⟩
  · obtain ⟨laterSteps, laterTotal⟩ := right.whole running
    obtain ⟨earlierSteps, earlierTotal⟩ := left.whole fun halted => running (right.monotone halted)
    omega
  · rcases right.limited limited with middleLimited | halted
    · exact (left.limited middleLimited).imp id right.monotone
    · exact Or.inr halted

theorem metered_one (before after : EnumerationRun) (steps : after.out.steps = before.out.steps + 1)
    (total : after.scratch.enumerationSteps = before.scratch.enumerationSteps + 1)
    (limited : after.out.stepLimited = before.out.stepLimited)
    (paths : before.out.paths.length ≤ after.out.paths.length) : Metered state task 1 before after := by
  refine ⟨steps.le, total.le, fun _ => ⟨steps, total⟩, fun spent => Or.inl (limited ▸ spent), ?_⟩
  unfold stopped
  omega

theorem enumerate_edges_metered (descend : NodeIndex → List EdgeIndex → Nat → EnumerationRun → EnumerationRun)
    (full : NodeIndex → Nat → Nat) (last : Bool) (node : NodeIndex) (visited : List NodeIndex) (current : List EdgeIndex)
    (cost : Nat) (deeper : ∀ next path nextCost run, Metered state task (full next nextCost) run (descend next path nextCost run))
    (outgoing : List EdgeIndex) (run : EnumerationRun) :
    Metered state task (outgoing.map (edgeSteps state blocks task full last node visited cost)).sum run
      (enumerateEdges state blocks task descend last node visited current cost outgoing run) := by
  induction outgoing generalizing run with
  | nil => exact metered_nothing run
  | cons index rest ih =>
      rw [enumerateEdges, List.map_cons, List.sum_cons]
      by_cases halted : run.out.steps ≥ task.maxSteps ∨ run.out.paths.length > task.maxPaths
      · rw [if_pos halted]
        exact metered_stopped _ run (halted.imp id Or.inl)
      · rw [if_neg halted]
        by_cases spent : run.scratch.enumerationSteps ≥ state.enumerationBudget
        · rw [if_pos spent]
          have over' : stopped state task run.exhaust := Or.inr (Or.inr spent)
          exact ⟨Nat.le_add_right _ _, Nat.le_add_right _ _, fun running => absurd over' running, fun _ => Or.inr over',
            fun _ => over'⟩
        · rw [if_neg spent]
          refine metered_trans _ _ run _ _ ?_ (ih _)
          have charged : Metered state task 1 run run.charge := metered_one _ _ rfl rfl rfl (le_refl _)
          unfold edgeSteps
          cases extend state blocks task node visited cost index with
          | none => exact charged
          | some target =>
              obtain ⟨next, nextCost⟩ := target
              dsimp only
              split_ifs
              · exact metered_one _ _ rfl rfl rfl (by simp [EnumerationRun.found, EnumerationRun.charge])
              · exact charged
              · exact charged
              · exact metered_trans 1 _ run run.charge _ charged (deeper next (current ++ [index]) nextCost run.charge)

theorem enumerate_depth_metered (remaining : Nat) (node : NodeIndex) (visited : List NodeIndex) (current : List EdgeIndex)
    (cost : Nat) (run : EnumerationRun) : Metered state task (depthSteps state blocks task remaining node visited cost) run
      (enumerateDepth state blocks task remaining node visited current cost run) := by
  induction remaining generalizing node visited current cost run with
  | zero => exact metered_nothing run
  | succ remaining ih =>
      exact enumerate_edges_metered _ _ _ node visited current cost
        (fun next path nextCost run => ih next (next :: visited) path nextCost run) _ run

-- Room for what is left of the sweeps in every bound.
def RoomFor (state : PlannerState) (task : EnumerationTask) (steps : Nat) (paths : Nat) (run : EnumerationRun) : Prop :=
  run.out.steps + steps < task.maxSteps ∧ run.scratch.enumerationSteps + steps < state.enumerationBudget ∧
    run.out.paths.length + paths ≤ task.maxPaths

-- The sweeps run to their end exactly when every bound has room for them.
theorem deepen_exhaustive_iff (left limit : Nat) (run : EnumerationRun) (unproven : run.out.exhaustive = false)
    (fresh : run.out.stepLimited = false) (running : ¬ stopped state task run) :
    ((deepen state blocks task left limit run).out.exhaustive = true ↔ RoomFor state task (sweepSteps state blocks task left limit)
      (sweepPaths state blocks task left limit).length run) ∧
    ((deepen state blocks task left limit run).out.exhaustive = true →
      (deepen state blocks task left limit run).out.stepLimited = false ∧
        (deepen state blocks task left limit run).out.paths.length ≤ task.maxPaths) := by
  induction left generalizing limit run with
  | zero =>
      have room : RoomFor state task 0 0 run := by
        unfold stopped at running
        unfold RoomFor
        omega
      exact ⟨⟨fun _ => room, fun _ => rfl⟩, fun _ => ⟨fresh, by simpa [deepen] using room.2.2⟩⟩
  | succ left ih =>
      rw [deepen, sweepSteps, sweepPaths, List.length_append]
      obtain ⟨⟨first, part, view, all⟩, _⟩ := enumerate_depth_swept state blocks task limit task.source [task.source] [] 0 run
      have metered := @enumerate_depth_metered state blocks task limit task.source [task.source] [] 0 run
      obtain ⟨_, sameVerdict⟩ := enumerate_depth_framed state blocks task limit task.source [task.source] [] 0 run
      generalize enumerateDepth state blocks task limit task.source [task.source] [] 0 run = swept at *
      have length : swept.out.paths.length = run.out.paths.length + first.length := by
        rw [show swept.out.paths = _ from view, snoc_fold, List.length_append]
      dsimp only
      by_cases halted : stopped state task swept
      · rw [if_pos halted]
        have never : swept.out.exhaustive = false := sameVerdict.trans unproven
        have steps := metered.steps
        have total := metered.total
        have few := part.length_le
        refine ⟨⟨fun proven => absurd (never.symm.trans proven) Bool.false_ne_true, fun room => ?_⟩,
          fun proven => absurd (never.symm.trans proven) Bool.false_ne_true⟩
        unfold RoomFor at room
        unfold stopped at halted
        omega
      · rw [if_neg halted]
        obtain ⟨steps, total⟩ := metered.whole halted
        have unlimited : swept.out.stepLimited = false := by
          by_contra limited
          rcases metered.limited (by simpa using limited) with early | late
          · rw [fresh] at early
            exact Bool.noConfusion early
          · exact halted late
        have every := congrArg List.length (all halted)
        obtain ⟨iff, clean⟩ := ih (limit + 1) swept (sameVerdict.trans unproven) unlimited halted
        refine ⟨iff.trans ?_, clean⟩
        unfold RoomFor
        omega

end Enumerate

namespace Analyse

open Enumerate

def sweepDepth (state : PlannerState) : Nat := min state.hopLimit state.fabric.nodes.length

variable {state : PlannerState} {task : EnumerationTask}

theorem enumerated_exhaustive_iff (scratch : SearchScratch) (deep : 0 < sweepDepth state) :
    (enumerated state task scratch).out.exhaustive = true ↔ RoomFor state task
      (sweepSteps state scratch.blocks.reset task (sweepDepth state) 1)
      (sweepPaths state scratch.blocks.reset task (sweepDepth state) 1).length ⟨scratch, {}⟩ := by
  have unfolded : (enumerated state task scratch).out.exhaustive =
      ((deepen state scratch.blocks.reset task (sweepDepth state) 1 ⟨{ scratch with blocks := scratch.blocks.reset }, {}⟩).out.exhaustive &&
        !(deepen state scratch.blocks.reset task (sweepDepth state) 1 ⟨{ scratch with blocks := scratch.blocks.reset }, {}⟩).out.stepLimited &&
        decide ((deepen state scratch.blocks.reset task (sweepDepth state) 1
          ⟨{ scratch with blocks := scratch.blocks.reset }, {}⟩).out.paths.length ≤ task.maxPaths)) := rfl
  rw [unfolded]
  by_cases running : stopped state task ⟨{ scratch with blocks := scratch.blocks.reset }, {}⟩
  · obtain ⟨left, depth⟩ := Nat.exists_eq_add_of_lt deep
    rw [show sweepDepth state = left + 1 by omega, deepen]
    have halted := (@enumerate_depth_metered state scratch.blocks.reset task 1 task.source [task.source] [] 0
      ⟨{ scratch with blocks := scratch.blocks.reset }, {}⟩).monotone running
    obtain ⟨_, sameVerdict⟩ := enumerate_depth_framed state scratch.blocks.reset task 1 task.source [task.source] [] 0
      ⟨{ scratch with blocks := scratch.blocks.reset }, {}⟩
    dsimp only
    rw [if_pos halted]
    dsimp only
    rw [sameVerdict]
    refine ⟨fun never => by simp at never, fun room => ?_⟩
    unfold RoomFor at room
    unfold stopped at running
    dsimp only at room running
    omega
  · obtain ⟨iff, clean⟩ := @deepen_exhaustive_iff state scratch.blocks.reset task (sweepDepth state) 1
      ⟨{ scratch with blocks := scratch.blocks.reset }, {}⟩ rfl rfl running
    constructor
    · intro proven
      simp only [Bool.and_eq_true] at proven
      exact iff.mp proven.1.1
    · intro room
      have proven := iff.mpr room
      obtain ⟨unlimited, few⟩ := clean proven
      simp [proven, unlimited, few]

end Analyse

end PathPlanner

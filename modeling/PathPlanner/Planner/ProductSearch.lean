import PathPlanner.Planner.GlobalSound

set_option autoImplicit false

namespace PathPlanner.SolveGlobal

open Footprint Pick

def starting (spare : Remaining) : Explorer := ⟨[], 0, spare, none, 0⟩

def exploring (plans : List EdgePlan) (spare : Remaining) (budget : Nat) : Step :=
  explore plans budget (2 * budget + 1) (starting spare)

-- The states at the head of the loop.
inductive Visited (plans : List EdgePlan) (spare : Remaining) (budget : Nat) : Explorer → Prop where
  | start : Visited plans spare budget (starting spare)
  | turn (before after : Explorer) (visited : Visited plans spare budget before)
      (goes : step plans budget before = .running after) : Visited plans spare budget after

-- What remains and what the applied sets claim make up the spare capacity.
def Balanced (plans : List EdgePlan) (spare : Remaining) (explorer : Explorer) : Prop :=
  ∀ edge, explorer.remaining edge + claim (chosenSets plans explorer.chosen) edge = spare edge

def BalancedStep (plans : List EdgePlan) (spare : Remaining) : Step → Prop
  | .running explorer | .finished explorer | .limited explorer => Balanced plans spare explorer

variable {plans : List EdgePlan} {spare : Remaining} {budget : Nat}

theorem chosen_sets_snoc (lower : List Nat) (last : Nat) :
    chosenSets plans (lower ++ [last]) = chosenSets plans lower ++ [setAt plans lower.length last] := by
  rw [chosenSets, List.mapIdx_append, List.mapIdx_singleton, Nat.zero_add]
  rfl

theorem claim_snoc (sets : List PathSet) (set : PathSet) (edge : EdgeIndex) :
    claim (sets ++ [set]) edge = claim sets edge + amount set.usage edge := by
  unfold claim amount
  simp

theorem retreat_balanced (explorer : Explorer) (balanced : Balanced plans spare explorer) :
    BalancedStep plans spare (retreat plans explorer) := by
  unfold retreat
  cases top : explorer.chosen.getLast? with
  | none => exact balanced
  | some last =>
      obtain ⟨lower, split⟩ := List.getLast?_eq_some_iff.mp top
      intro edge
      have before := balanced edge
      rw [split, chosen_sets_snoc, claim_snoc] at before
      simp only [split, List.dropLast_concat, unapply_eq, refund_apply]
      omega

-- The alternative under the cursor, and its place in the lists.
theorem set_under_cursor (level cursor : Nat) (set : PathSet) (rest : List PathSet)
    (here : (plans.getD level {}).alternatives.drop cursor = set :: rest) :
    setAt plans level cursor = set ∧ ∃ plan ∈ plans, set ∈ plan.alternatives := by
  have found : (plans.getD level {}).alternatives[cursor]? = some set := by
    rw [← List.head?_drop, here, List.head?_cons]
  refine ⟨by rw [setAt, List.getD_eq_getElem?_getD, found, Option.getD_some], ?_⟩
  by_cases inside : level < plans.length
  · exact ⟨_, (drop_level level inside).2, List.mem_of_getElem? found⟩
  · rw [List.getD_eq_default _ _ (not_lt.mp inside)] at found
    simp at found

theorem next_under_cursor (level cursor : Nat) (set : PathSet) (rest : List PathSet)
    (here : (plans.getD level {}).alternatives.drop cursor = set :: rest) :
    (plans.getD level {}).alternatives.drop (cursor + 1) = rest := by
  rw [← List.tail_drop, here, List.tail_cons]

theorem apply_balanced (distinct : Distinct plans) (explorer : Explorer) (set : PathSet) (rest : List PathSet)
    (here : (plans.getD explorer.chosen.length {}).alternatives.drop explorer.cursor = set :: rest)
    (room : fits explorer.remaining set = true) (balanced : Balanced plans spare explorer) :
    Balanced plans spare { explorer with
      chosen := explorer.chosen ++ [explorer.cursor]
      cursor := 0
      remaining := apply explorer.remaining set
      nodes := explorer.nodes + 1 } := by
  obtain ⟨placed, plan, listed, stored⟩ := set_under_cursor _ _ _ _ here
  have covered := (fits_iff explorer.remaining set.usage (distinct plan listed set stored)).mp room
  intro edge
  have before := balanced edge
  have enough := covered edge
  dsimp only
  rw [chosen_sets_snoc, claim_snoc, placed, apply_eq, charge_apply]
  omega

theorem advance_balanced (distinct : Distinct plans) (sets : List PathSet) (explorer : Explorer)
    (here : (plans.getD explorer.chosen.length {}).alternatives.drop explorer.cursor = sets)
    (balanced : Balanced plans spare explorer) : BalancedStep plans spare (advance plans budget sets explorer) := by
  induction sets generalizing explorer with
  | nil => exact retreat_balanced explorer balanced
  | cons set rest ih =>
      rw [advance]
      by_cases spent : explorer.nodes ≥ budget
      · rw [if_pos spent]
        exact balanced
      · rw [if_neg spent]
        by_cases full : fits explorer.remaining set = false
        · rw [if_pos full]
          exact ih { explorer with cursor := explorer.cursor + 1, nodes := explorer.nodes + 1 }
            (next_under_cursor _ _ _ _ here) balanced
        · rw [if_neg full]
          exact apply_balanced distinct explorer set rest here (by simpa using full) balanced

theorem step_balanced (distinct : Distinct plans) (explorer : Explorer) (balanced : Balanced plans spare explorer) :
    BalancedStep plans spare (step plans budget explorer) := by
  unfold step
  by_cases leaf : explorer.chosen.length = plans.length
  · rw [if_pos leaf]
    exact retreat_balanced _ balanced
  · rw [if_neg leaf]
    exact advance_balanced distinct _ explorer rfl balanced

theorem starting_balanced : Balanced plans spare (starting spare) := by
  intro edge
  simp [starting, chosenSets, claim, amount]

theorem visited_balanced (distinct : Distinct plans) (explorer : Explorer) (visited : Visited plans spare budget explorer) :
    Balanced plans spare explorer := by
  induction visited with
  | start => exact starting_balanced
  | turn before after visited goes ih =>
      have kept := @step_balanced plans spare budget distinct before ih
      rwa [goes] at kept

-- The sets a turn applies are subtracted entry by entry, and every entry is there.
theorem advance_covered (distinct : Distinct plans) (sets : List PathSet) (before after : Explorer)
    (here : (plans.getD before.chosen.length {}).alternatives.drop before.cursor = sets)
    (goes : advance plans budget sets before = .running after)
    (deeper : after.chosen.length = before.chosen.length + 1) : ∃ index, after.chosen = before.chosen ++ [index] ∧
      takeUsage before.remaining (setAt plans before.chosen.length index).usage = some after.remaining := by
  induction sets generalizing before with
  | nil =>
      unfold advance retreat at goes
      cases top : before.chosen.getLast? with
      | none => simp [top] at goes
      | some last =>
          rw [top] at goes
          have fewer := congrArg (fun explorer : Explorer => explorer.chosen.length) (Step.running.inj goes)
          simp only [List.length_dropLast] at fewer
          omega
  | cons set rest ih =>
      rw [advance] at goes
      split_ifs at goes with spent full
      · exact ih { before with cursor := before.cursor + 1, nodes := before.nodes + 1 } (next_under_cursor _ _ _ _ here) goes deeper
      · obtain ⟨placed, plan, listed, stored⟩ := set_under_cursor _ _ _ _ here
        simp only [Step.running.injEq] at goes
        subst goes
        have covered := (fits_iff before.remaining set.usage (distinct plan listed set stored)).mp (by simpa only [fits_eq, Bool.not_eq_false] using full)
        exact ⟨before.cursor, rfl, by rw [placed, take_usage_eq, take_iff]; exact ⟨covered, rfl⟩⟩

theorem step_covered (distinct : Distinct plans) (before after : Explorer) (goes : step plans budget before = .running after)
    (deeper : after.chosen.length = before.chosen.length + 1) : ∃ index, after.chosen = before.chosen ++ [index] ∧
      takeUsage before.remaining (setAt plans before.chosen.length index).usage = some after.remaining := by
  unfold step at goes
  split_ifs at goes with leaf
  · unfold retreat at goes
    cases top : before.chosen.getLast? with
    | none => simp [top] at goes
    | some last =>
        simp only [top, Step.running.injEq] at goes
        subst goes
        simp only [List.length_dropLast] at deeper
        omega
  · exact advance_covered distinct _ before after rfl goes deeper

-- The loop ends one turn after a state at its head.
theorem explore_visited (turns : Nat) (explorer : Explorer) (visited : Visited plans spare budget explorer)
    (last : Step) (ends : explore plans budget turns explorer = last) (halts : ∀ after, last ≠ .running after) :
    ∃ before, Visited plans spare budget before ∧ step plans budget before = last := by
  induction turns generalizing explorer with
  | zero => exact absurd ends.symm (halts explorer)
  | succ turns ih =>
      rw [explore] at ends
      cases stepped : step plans budget explorer with
      | running middle =>
          rw [stepped] at ends
          exact ih middle (Visited.turn explorer middle visited stepped) ends
      | finished after =>
          rw [stepped] at ends
          exact ⟨explorer, visited, stepped.trans ends⟩
      | limited after =>
          rw [stepped] at ends
          exact ⟨explorer, visited, stepped.trans ends⟩

theorem finished_chosen (before last : Explorer) (goes : step plans budget before = .finished last) : last.chosen = [] := by
  have retreats : ∀ explorer, retreat plans explorer = .finished last → last.chosen = [] := by
    intro explorer left
    unfold retreat at left
    cases top : explorer.chosen.getLast? with
    | none =>
        simp only [top, Step.finished.injEq] at left
        exact left ▸ List.getLast?_eq_none_iff.mp top
    | some choice => simp [top] at left
  have advances : ∀ sets explorer, advance plans budget sets explorer = .finished last → last.chosen = [] := by
    intro sets
    induction sets with
    | nil => exact retreats
    | cons set rest ih =>
        intro explorer left
        rw [advance] at left
        split_ifs at left
        exact ih _ left
  unfold step at goes
  split_ifs at goes
  · exact retreats _ goes
  · exact advances _ _ goes

-- No fitting combination is better, and of the equally good ones none comes earlier.
structure FirstBest (plans : List EdgePlan) (spare : Remaining) (choice : List Nat) : Prop where
  fitting : Feasible plans spare choice
  minimal : ∀ other, Feasible plans spare other → ¬ globalBetter (result plans spare other) (result plans spare choice)
  earliest : ∀ other, Feasible plans spare other → ¬ globalBetter (result plans spare choice) (result plans spare other) →
    choice ≤ other

theorem leading_first_best (choice : List Nat) (leading : Leading plans spare choice) : FirstBest plans spare choice := by
  refine ⟨leading.feasible, fun other fitting better => ?_, fun other fitting even => ?_⟩
  · rw [global_better_key] at better
    rcases leading.best other fitting with less | ⟨same, _⟩
    · exact lt_asymm less better
    · exact ne_of_lt better same.symm
  · rw [global_better_key] at even
    rcases leading.best other fitting with less | ⟨_, earlier⟩
    · exact absurd less even
    · exact earlier

structure ProductSearch (plans : List EdgePlan) (spare : Remaining) (budget : Nat) : Prop where
  ends : ∃ last, exploring plans spare budget = .finished last ∨ exploring plans spare budget = .limited last
  balanced : ∀ explorer, Visited plans spare budget explorer → Balanced plans spare explorer
  covered : ∀ before after, Visited plans spare budget before → step plans budget before = .running after →
    after.chosen.length = before.chosen.length + 1 → ∃ index, after.chosen = before.chosen ++ [index] ∧
      takeUsage before.remaining (setAt plans before.chosen.length index).usage = some after.remaining
  restored : ∀ last, exploring plans spare budget = .finished last → last.remaining = spare
  limited : ∀ last, exploring plans spare budget = .limited last → budget ≤ last.nodes ∧ Balanced plans spare last
  found : ∀ last, exploring plans spare budget = .finished last →
    (last.best.isSome = true ↔ ∃ choice, Feasible plans spare choice)
  best : ∀ last candidate, exploring plans spare budget = .finished last → last.best = some candidate →
    ∃ choice, candidate = result plans spare choice ∧ FirstBest plans spare choice
  reported : plans ≠ [] → fastPath plans spare = none → ∀ last,
    exploring plans spare budget = .finished last ∨ exploring plans spare budget = .limited last →
      (solveGlobal plans spare budget).best = last.best ∧ (solveGlobal plans spare budget).nodes = last.nodes

theorem starting_pending : pending plans (starting spare) = events plans plans.length [] spare := by
  have level := @events_level plans plans.length [] spare (by simp)
  simp only [starting, pending, current, below, List.reverse_nil, List.append_nil]
  exact level.symm

-- A search that ran to its end has offered every fitting combination, the best one first kept.
theorem exploring_finished (distinct : Distinct plans) (last : Explorer) (ends : exploring plans spare budget = .finished last) :
    match last.best with
    | none => ∀ choice, ¬ Feasible plans spare choice
    | some candidate => ∃ choice, candidate = result plans spare choice ∧ Leading plans spare choice := by
  have outcome := explore_outcome distinct budget (2 * budget + 1) (starting spare) (Nat.zero_le _)
  have ended : explore plans budget (2 * budget + 1) (starting spare) = .finished last := ends
  rw [starting_pending, ended] at outcome
  obtain ⟨done, split, best, _⟩ := outcome
  rw [List.append_nil] at split
  subst split
  have first := pick_all_first globalBetter globalKey global_better_key (offersOf (events plans plans.length [] spare))
  rw [← offer_eq, show none = (starting spare).best from rfl, ← best] at first
  cases found : last.best with
  | none =>
      rw [found] at first
      intro choice feasible
      have listed := (all_offers distinct spare _).mpr ⟨choice, feasible, rfl⟩
      rw [first] at listed
      simp at listed
  | some candidate =>
      rw [found] at first
      exact first_leading distinct spare candidate first

theorem exploring_ends (plans : List EdgePlan) (spare : Remaining) (budget : Nat) :
    ∃ last, exploring plans spare budget = .finished last ∨ exploring plans spare budget = .limited last := by
  have never := @explore_ends plans budget (2 * budget + 1) (starting spare) (by simp [turnsLeft, starting])
  cases outcome : exploring plans spare budget with
  | running after => exact absurd outcome (never after)
  | finished last => exact ⟨last, Or.inl rfl⟩
  | limited last => exact ⟨last, Or.inr rfl⟩

theorem product_search_correct (plans : List EdgePlan) (spare : Remaining) (budget : Nat) (distinct : Distinct plans) :
    ProductSearch plans spare budget := by
  have fromHead : ∀ last, exploring plans spare budget = last → (∀ after, last ≠ .running after) →
      ∃ before, Visited plans spare budget before ∧ step plans budget before = last := fun last ends halts =>
    explore_visited _ _ Visited.start last ends halts
  refine ⟨?_, fun explorer visited => visited_balanced distinct explorer visited, fun before after _ goes deeper =>
    step_covered distinct before after goes deeper, fun last ends => ?_, fun last ends => ?_, fun last ends => ?_,
    fun last candidate ends found => ?_, fun some crowded last ends => ?_⟩
  · exact exploring_ends plans spare budget
  · obtain ⟨before, visited, goes⟩ := fromHead _ ends (fun _ same => Step.noConfusion same)
    have balanced := @step_balanced plans spare budget distinct before (visited_balanced distinct before visited)
    rw [goes] at balanced
    funext edge
    have whole := balanced edge
    rw [finished_chosen before last goes] at whole
    simpa [chosenSets, claim, amount] using whole
  · obtain ⟨before, visited, goes⟩ := fromHead _ ends (fun _ same => Step.noConfusion same)
    have balanced := @step_balanced plans spare budget distinct before (visited_balanced distinct before visited)
    rw [goes] at balanced
    have outcome := explore_outcome distinct budget (2 * budget + 1) (starting spare) (Nat.zero_le _)
    have ended : explore plans budget (2 * budget + 1) (starting spare) = .limited last := ends
    rw [ended] at outcome
    exact ⟨outcome.2, balanced⟩
  · have kept := exploring_finished distinct last ends
    cases found : last.best with
    | none =>
        rw [found] at kept
        refine ⟨fun never => Bool.noConfusion never, ?_⟩
        rintro ⟨choice, feasible⟩
        exact absurd feasible (kept choice)
    | some candidate =>
        rw [found] at kept
        obtain ⟨choice, _, leading⟩ := kept
        exact ⟨fun _ => ⟨choice, leading.feasible⟩, fun _ => rfl⟩
  · have kept := exploring_finished distinct last ends
    rw [found] at kept
    obtain ⟨choice, same, leading⟩ := kept
    exact ⟨choice, same, leading_first_best choice leading⟩
  · unfold solveGlobal
    rw [if_neg some, crowded]
    have same : explore plans budget (2 * budget + 1) ⟨[], 0, spare, none, 0⟩ = exploring plans spare budget := rfl
    rw [same]
    cases ends with
    | inl ended => simp [ended]
    | inr ended => simp [ended]

-- Two logical edges that compete for the first of two physical edges.
def rivalPlans : List EdgePlan :=
  List.replicate 2 { alternatives := [{ usage := [(0, 10)] }, { usage := [(1, 10)] }], setsExhaustive := true }

theorem rival_plans_distinct : Distinct rivalPlans := by
  intro plan listed set stored
  rw [List.eq_of_mem_replicate listed] at stored
  have each : ∀ set ∈ [({ usage := [(0, 10)] } : PathSet), { usage := [(1, 10)] }], (set.usage.map Prod.fst).Nodup := by decide
  exact each set stored

theorem rival_plans_searched : ProductSearch rivalPlans (fun _ => 10) 100 :=
  product_search_correct rivalPlans (fun _ => 10) 100 rival_plans_distinct

example : (solveGlobal rivalPlans (fun _ => 10) 100).best.map GlobalCandidate.choice = some [0, 1] := by decide

end PathPlanner.SolveGlobal

import PathPlanner.Planner.Exploration

set_option autoImplicit false

namespace PathPlanner.SolveGlobal

open Footprint Pick

def setsOf (plans : List EdgePlan) (choice : List Nat) : List PathSet :=
  List.zipWith (fun plan index => plan.alternatives.getD index {}) plans choice

-- One stored alternative for every logical edge.
def Chosen (plans : List EdgePlan) (choice : List Nat) : Prop :=
  List.Forall₂ (fun plan index => index < plan.alternatives.length) plans choice

-- What a list of sets claims of one edge.
def claim (sets : List PathSet) (index : EdgeIndex) : Nat := amount (sets.flatMap PathSet.usage) index

def Affordable (remaining : Remaining) (sets : List PathSet) : Prop := ∀ index, claim sets index ≤ remaining index

def after (remaining : Remaining) (sets : List PathSet) : Remaining := fun index => remaining index - claim sets index

theorem claim_cons (set : PathSet) (rest : List PathSet) (index : EdgeIndex) :
    claim (set :: rest) index = amount set.usage index + claim rest index := by
  unfold claim amount
  rw [List.flatMap_cons, List.filter_append, List.map_append, List.sum_append]

theorem affordable_cons (remaining : Remaining) (set : PathSet) (rest : List PathSet)
    (distinct : (set.usage.map Prod.fst).Nodup) :
    Affordable remaining (set :: rest) ↔ fits remaining set = true ∧ Affordable (apply remaining set) rest := by
  rw [fits_eq, fits_iff _ _ distinct, apply_eq]
  simp only [Affordable, claim_cons, charge_apply]
  constructor
  · intro room
    exact ⟨fun index => by have := room index; omega, fun index => by have := room index; omega⟩
  · rintro ⟨first, later⟩ index
    have one := first index
    have two := later index
    omega

theorem after_cons (remaining : Remaining) (set : PathSet) (rest : List PathSet) :
    after remaining (set :: rest) = after (apply remaining set) rest := by
  funext index
  simp only [after, claim_cons, apply_eq, charge_apply]
  omega

theorem chosen_sets_eq (plans : List EdgePlan) (choice : List Nat) (short : choice.length ≤ plans.length) :
    chosenSets plans choice = setsOf plans choice := by
  refine List.ext_getElem? fun level => ?_
  rw [chosenSets, setsOf, List.getElem?_mapIdx, List.getElem?_zipWith']
  cases stored : choice[level]? with
  | none => simp
  | some index =>
      obtain ⟨bound, _⟩ := List.getElem?_eq_some_iff.mp stored
      have inside : level < plans.length := by omega
      simp [setAt, List.getD_eq_getElem?_getD, inside]

theorem scan_offers (deeper : Nat → Remaining → List Event) (remaining : Remaining) (cursor : Nat) (sets : List PathSet)
    (candidate : GlobalCandidate) : candidate ∈ offersOf (scanEvents deeper remaining cursor sets) ↔
      ∃ (position : Nat) (set : PathSet), sets[position]? = some set ∧ fits remaining set = true ∧
        candidate ∈ offersOf (deeper (cursor + position) (apply remaining set)) := by
  induction sets generalizing cursor with
  | nil => simp [scanEvents, offersOf]
  | cons set rest ih =>
      have split : offersOf (scanEvents deeper remaining cursor (set :: rest)) =
          offersOf (if fits remaining set = true then deeper cursor (apply remaining set) else []) ++
            offersOf (scanEvents deeper remaining (cursor + 1) rest) := by
        rw [scanEvents, ← offers_append]
        rfl
      rw [split, List.mem_append, ih]
      constructor
      · rintro (now | ⟨position, found, stored, room, later⟩)
        · split_ifs at now with room
          · exact ⟨0, set, rfl, room, now⟩
          · simp [offersOf] at now
        · exact ⟨position + 1, found, stored, room, by rwa [show cursor + (position + 1) = cursor + 1 + position by omega]⟩
      · rintro ⟨position, found, stored, room, later⟩
        cases position with
        | zero =>
            rw [List.getElem?_cons_zero, Option.some.injEq] at stored
            subst stored
            rw [if_pos room]
            exact Or.inl later
        | succ position =>
            exact Or.inr ⟨position, found, stored, room, by rwa [show cursor + 1 + position = cursor + (position + 1) by omega]⟩

theorem stored_set (sets : List PathSet) (index : Nat) (inside : index < sets.length) :
    sets[index]? = some (sets.getD index {}) := by
  rw [List.getD_eq_getElem?_getD, List.getElem?_eq_getElem inside, Option.getD_some]

variable {plans : List EdgePlan}

theorem drop_level (level : Nat) (bound : level < plans.length) :
    plans.drop level = plans.getD level {} :: plans.drop (level + 1) ∧ plans.getD level {} ∈ plans := by
  have stored : plans.getD level {} = plans[level] := by
    rw [List.getD_eq_getElem?_getD, List.getElem?_eq_getElem bound, Option.getD_some]
  rw [stored]
  exact ⟨List.drop_eq_getElem_cons bound, List.getElem_mem bound⟩

-- The assignments offered are those whose sets fit together.
theorem events_offers (distinct : Distinct plans) (left : Nat) (chosen : List Nat) (remaining : Remaining)
    (bound : chosen.length + left = plans.length) (candidate : GlobalCandidate) :
    candidate ∈ offersOf (events plans left chosen remaining) ↔ ∃ choice, Chosen (plans.drop chosen.length) choice ∧
      Affordable remaining (setsOf (plans.drop chosen.length) choice) ∧
      candidate = summarise (chosen ++ choice) (chosenSets plans (chosen ++ choice))
        (after remaining (setsOf (plans.drop chosen.length) choice)) := by
  induction left generalizing chosen remaining with
  | zero =>
      rw [List.drop_eq_nil_of_le (by omega)]
      have only : offersOf (events plans 0 chosen remaining) = [summarise chosen (chosenSets plans chosen) remaining] := rfl
      have spare : after remaining (setsOf [] []) = remaining := by
        funext index
        simp [after, setsOf, claim, amount]
      rw [only, List.mem_singleton]
      constructor
      · rintro rfl
        exact ⟨[], List.Forall₂.nil, fun index => by simp [setsOf, claim, amount], by rw [spare, List.append_nil]⟩
      · rintro ⟨choice, picked, _, eq⟩
        cases picked
        rwa [spare, List.append_nil] at eq
  | succ left ih =>
      obtain ⟨split, stored⟩ := @drop_level plans chosen.length (by omega)
      rw [events, scan_offers, split]
      have deeper : ∀ index remaining, candidate ∈ offersOf (events plans left (chosen ++ [index]) remaining) ↔
          ∃ choice, Chosen (plans.drop (chosen.length + 1)) choice ∧
            Affordable remaining (setsOf (plans.drop (chosen.length + 1)) choice) ∧
            candidate = summarise (chosen ++ index :: choice) (chosenSets plans (chosen ++ index :: choice))
              (after remaining (setsOf (plans.drop (chosen.length + 1)) choice)) := by
        intro index remaining
        rw [ih (chosen ++ [index]) remaining (by rw [List.length_append, List.length_singleton]; omega)]
        simp only [List.length_append, List.length_singleton, List.append_assoc, List.singleton_append]
      simp only [deeper, Nat.zero_add]
      constructor
      · rintro ⟨index, set, found, room, choice, picked, affordable, eq⟩
        obtain ⟨inside, here⟩ := List.getElem?_eq_some_iff.mp found
        have once := distinct _ stored set (here ▸ List.getElem_mem inside)
        have front : (plans.getD chosen.length {}).alternatives.getD index {} = set := by
          rw [List.getD_eq_getElem?_getD, found, Option.getD_some]
        refine ⟨index :: choice, List.Forall₂.cons inside picked, ?_, ?_⟩
        · rw [setsOf, List.zipWith_cons_cons, front]
          exact (affordable_cons remaining set _ once).mpr ⟨room, affordable⟩
        · rw [eq, setsOf, setsOf, List.zipWith_cons_cons, front, after_cons]
      · rintro ⟨choice, picked, affordable, eq⟩
        rcases picked with _ | ⟨inside, picked⟩
        rename_i index choice
        have found := stored_set _ index inside
        have once := distinct _ stored _ (List.mem_of_getElem? found)
        rw [setsOf, List.zipWith_cons_cons] at affordable eq
        obtain ⟨room, rest⟩ := (affordable_cons remaining _ _ once).mp affordable
        rw [after_cons] at eq
        exact ⟨index, _, found, room, choice, picked, rest, eq⟩

-- The assignments are offered in the lexicographic order of their choices.
theorem scan_ordered (deeper : Nat → Remaining → List Event) (chosen : List Nat) (remaining : Remaining) (cursor : Nat)
    (sets : List PathSet)
    (starts : ∀ index after, ∀ candidate ∈ offersOf (deeper index after), ∃ rest, candidate.choice = chosen ++ index :: rest)
    (ordered : ∀ index after, (offersOf (deeper index after)).Pairwise fun a b => a.choice < b.choice) :
    (offersOf (scanEvents deeper remaining cursor sets)).Pairwise fun a b => a.choice < b.choice := by
  induction sets generalizing cursor with
  | nil => exact List.Pairwise.nil
  | cons set rest ih =>
      have split : offersOf (scanEvents deeper remaining cursor (set :: rest)) =
          offersOf (if fits remaining set = true then deeper cursor (apply remaining set) else []) ++
            offersOf (scanEvents deeper remaining (cursor + 1) rest) := by
        rw [scanEvents, ← offers_append]
        rfl
      rw [split, List.pairwise_append]
      refine ⟨?_, ih (cursor + 1), fun first now second later => ?_⟩
      · split_ifs
        · exact ordered _ _
        · exact List.Pairwise.nil
      · split_ifs at now
        · obtain ⟨position, _, _, _, found⟩ := (scan_offers deeper remaining (cursor + 1) rest second).mp later
          obtain ⟨left, firstIs⟩ := starts _ _ first now
          obtain ⟨right, secondIs⟩ := starts _ _ second found
          rw [firstIs, secondIs]
          exact List.append_left_lt (List.cons_lt_cons_iff.mpr (Or.inl (by omega)))
        · simp [offersOf] at now

theorem events_ordered (distinct : Distinct plans) (left : Nat) (chosen : List Nat) (remaining : Remaining)
    (bound : chosen.length + left = plans.length) :
    (offersOf (events plans left chosen remaining)).Pairwise fun a b => a.choice < b.choice := by
  induction left generalizing chosen remaining with
  | zero => exact List.pairwise_singleton _ _
  | succ left ih =>
      have longer : ∀ index, (chosen ++ [index]).length + left = plans.length := by
        intro index
        rw [List.length_append, List.length_singleton]
        omega
      rw [events]
      refine scan_ordered _ chosen remaining 0 _ (fun index after candidate member => ?_) fun index after =>
        ih (chosen ++ [index]) after (longer index)
      obtain ⟨choice, _, _, rfl⟩ := (events_offers distinct left (chosen ++ [index]) after (longer index) candidate).mp member
      exact ⟨choice, by simp [summarise]⟩

abbrev GlobalKey := Nat ×ₗ Nat ×ₗ Nat ×ₗ Natᵒᵈ

def globalKey (candidate : GlobalCandidate) : GlobalKey :=
  toLex (candidate.totalCost, toLex (candidate.conflicts, toLex (candidate.maxPathCost, OrderDual.toDual candidate.minHeadroom)))

theorem global_better_key (lhs rhs : GlobalCandidate) : globalBetter lhs rhs ↔ globalKey lhs < globalKey rhs := by
  simp only [globalKey, Prod.Lex.toLex_lt_toLex]
  rfl

-- What an assignment of stored alternatives leaves of the spare capacity, summarised.
def result (plans : List EdgePlan) (spare : Remaining) (choice : List Nat) : GlobalCandidate :=
  summarise choice (setsOf plans choice) (after spare (setsOf plans choice))

def Feasible (plans : List EdgePlan) (spare : Remaining) (choice : List Nat) : Prop :=
  Chosen plans choice ∧ Affordable spare (setsOf plans choice)

-- The first choice, in lexicographic order, among the best feasible ones.
structure Leading (plans : List EdgePlan) (spare : Remaining) (choice : List Nat) : Prop where
  feasible : Feasible plans spare choice
  best : ∀ other, Feasible plans spare other → globalKey (result plans spare choice) < globalKey (result plans spare other) ∨
    globalKey (result plans spare choice) = globalKey (result plans spare other) ∧ choice ≤ other

theorem all_offers (distinct : Distinct plans) (spare : Remaining) (candidate : GlobalCandidate) :
    candidate ∈ offersOf (events plans plans.length [] spare) ↔
      ∃ choice, Feasible plans spare choice ∧ candidate = result plans spare choice := by
  rw [events_offers distinct plans.length [] spare (by simp)]
  simp only [List.length_nil, List.drop_zero, List.nil_append]
  constructor
  · rintro ⟨choice, picked, affordable, eq⟩
    exact ⟨choice, ⟨picked, affordable⟩, by rw [eq, result, chosen_sets_eq plans choice picked.length_eq.ge]⟩
  · rintro ⟨choice, ⟨picked, affordable⟩, eq⟩
    exact ⟨choice, picked, affordable, by rw [eq, result, chosen_sets_eq plans choice picked.length_eq.ge]⟩

theorem first_leading (distinct : Distinct plans) (spare : Remaining) (candidate : GlobalCandidate)
    (first : First globalKey (offersOf (events plans plans.length [] spare)) candidate) :
    ∃ choice, candidate = result plans spare choice ∧ Leading plans spare choice := by
  obtain ⟨choice, feasible, rfl⟩ := (all_offers distinct spare candidate).mp first.mem
  refine ⟨choice, rfl, feasible, fun other otherFeasible => ?_⟩
  have listed := (all_offers distinct spare _).mpr ⟨other, otherFeasible, rfl⟩
  rcases lt_or_eq_of_le (first.least _ listed) with less | same
  · exact Or.inl less
  · refine Or.inr ⟨same, ?_⟩
    obtain ⟨before, later, split, earlier⟩ := first.split
    have ordered := events_ordered distinct plans.length [] spare (by simp)
    rw [split] at ordered listed
    rcases List.mem_append.mp listed with early | late
    · exact absurd same (ne_of_lt (earlier _ early))
    · rcases List.mem_cons.mp late with here | after
      · exact le_of_eq (congrArg GlobalCandidate.choice here).symm
      · exact ((List.pairwise_cons.mp (List.pairwise_append.mp ordered).2.1).1 _ after).le

theorem take_usage_eq (trial : Remaining) (entries : List (EdgeIndex × Nat)) : takeUsage trial entries = take trial entries := by
  induction entries generalizing trial with
  | nil => rfl
  | cons entry rest ih => rw [takeUsage, take, ih]

def fronts (plans : List EdgePlan) : List Nat := List.replicate plans.length 0

theorem take_fronts_iff (spare : Remaining) (left : Remaining) :
    takeFronts spare plans = some left ↔ Feasible plans spare (fronts plans) ∧ left = after spare (setsOf plans (fronts plans)) := by
  induction plans generalizing spare with
  | nil =>
      have nothing : after spare (setsOf [] []) = spare := by
        funext index
        simp [after, setsOf, claim, amount]
      have free : Feasible [] spare [] := ⟨List.Forall₂.nil, fun index => by simp [setsOf, claim, amount]⟩
      change some spare = some left ↔ Feasible [] spare [] ∧ left = after spare (setsOf [] [])
      rw [nothing, Option.some.injEq, eq_comm, and_iff_right free]
  | cons plan rest ih =>
      have split : fronts (plan :: rest) = 0 :: fronts rest := rfl
      rw [takeFronts, split]
      cases stored : plan.alternatives with
      | nil =>
          refine ⟨fun found => by simp at found, fun both => ?_⟩
          have inside := (List.forall₂_cons.mp both.1.1).1
          simp [stored] at inside
      | cons front others =>
          have sets : setsOf (plan :: rest) (0 :: fronts rest) = front :: setsOf rest (fronts rest) := by
            simp [setsOf, stored]
          have room : 0 < plan.alternatives.length := by simp [stored]
          have affordable : Affordable spare (front :: setsOf rest (fronts rest)) ↔
              (∀ index, amount front.usage index ≤ spare index) ∧
                Affordable (charge spare front.usage) (setsOf rest (fronts rest)) := by
            simp only [Affordable, claim_cons, charge_apply]
            refine ⟨fun room => ⟨fun index => by have := room index; omega, fun index => by have := room index; omega⟩, ?_⟩
            rintro ⟨first, later⟩ index
            have one := first index
            have two := later index
            omega
          simp only [take_usage_eq, Option.bind_eq_some_iff, take_iff]
          rw [Feasible, Chosen, List.forall₂_cons, sets, affordable, after_cons, apply_eq]
          constructor
          · rintro ⟨middle, ⟨fitsFront, rfl⟩, later⟩
            obtain ⟨⟨picked, fitsRest⟩, eq⟩ := (ih _).mp later
            exact ⟨⟨⟨room, picked⟩, fitsFront, fitsRest⟩, eq⟩
          · rintro ⟨⟨⟨_, picked⟩, fitsFront, fitsRest⟩, eq⟩
            exact ⟨_, ⟨fitsFront, rfl⟩, (ih _).mpr ⟨⟨picked, fitsRest⟩, eq⟩⟩

theorem fast_path_some (spare : Remaining) (feasible : Feasible plans spare (fronts plans)) :
    fastPath plans spare = some (result plans spare (fronts plans)) := by
  rw [fastPath, (take_fronts_iff spare _).mpr ⟨feasible, rfl⟩, Option.map_some, result, fronts,
    chosen_sets_eq _ _ (by simp)]

theorem fast_path_none (spare : Remaining) (crowded : ¬ Feasible plans spare (fronts plans)) : fastPath plans spare = none := by
  rw [fastPath, Option.map_eq_none_iff]
  by_contra found
  obtain ⟨left, taken⟩ := Option.ne_none_iff_exists'.mp found
  exact crowded ((take_fronts_iff spare left).mp taken).1

-- The assignment taken when nothing bounds the search.
def Selected (plans : List EdgePlan) (spare : Remaining) (choice : List Nat) : Prop :=
  Feasible plans spare (fronts plans) ∧ choice = fronts plans ∨
    ¬ Feasible plans spare (fronts plans) ∧ Leading plans spare choice

theorem result_nothing (spare : Remaining) : result [] spare [] = {} := by
  simp [result, summarise, setsOf, saturatingSum]

structure Solved (plans : List EdgePlan) (spare : Remaining) (budget : Nat) (solution : GlobalResult) : Prop where
  found : ∀ candidate, solution.best = some candidate →
    ∃ choice, Feasible plans spare choice ∧ candidate = result plans spare choice
  missing : solution.best = none → solution.exhaustive = true → ∀ choice, ¬ Feasible plans spare choice
  optimal : ∀ candidate, solution.best = some candidate → solution.exhaustive = true →
    (plans.all EdgePlan.setsExhaustive = true) ∧ ∃ choice, candidate = result plans spare choice ∧ Selected plans spare choice
  enough : visits (events plans plans.length [] spare) ≤ budget → plans.all EdgePlan.setsExhaustive = true →
    solution.exhaustive = true

theorem solve_global_solved (distinct : Distinct plans) (spare : Remaining) (budget : Nat) :
    Solved plans spare budget (solveGlobal plans spare budget) := by
  unfold solveGlobal
  by_cases empty : plans = []
  · rw [if_pos empty]
    subst empty
    have free : Feasible [] spare [] := ⟨List.Forall₂.nil, fun index => by simp [setsOf, claim, amount]⟩
    refine ⟨fun candidate found => ⟨[], free, ?_⟩, fun none => ?_, fun candidate found _ => ⟨rfl, [], ?_, Or.inl ⟨free, rfl⟩⟩,
      fun _ _ => rfl⟩
    · rw [result_nothing]
      exact (Option.some.inj found).symm
    · exact absurd none (by simp)
    · rw [result_nothing]
      exact (Option.some.inj found).symm
  · rw [if_neg empty]
    by_cases quick : Feasible plans spare (fronts plans)
    · rw [fast_path_some spare quick]
      refine ⟨fun candidate found => ⟨fronts plans, quick, ?_⟩, by simp, fun candidate found exhaustive =>
        ⟨exhaustive, fronts plans, ?_, Or.inl ⟨quick, rfl⟩⟩, fun _ all => all⟩
      · exact (Option.some.inj found).symm
      · exact (Option.some.inj found).symm
    · rw [fast_path_none spare quick]
      dsimp only
      have start : pending plans ⟨[], 0, spare, none, 0⟩ = events plans plans.length [] spare := by
        have level := @events_level plans plans.length [] spare (by simp)
        simp only [pending, current, below, List.reverse_nil, List.append_nil]
        exact level.symm
      have outcome := explore_outcome distinct budget (2 * budget + 1) ⟨[], 0, spare, none, 0⟩ (Nat.zero_le _)
      have ends := @explore_ends plans budget (2 * budget + 1) ⟨[], 0, spare, none, 0⟩ (by simp [turnsLeft])
      rw [start] at outcome
      generalize explore plans budget (2 * budget + 1) ⟨[], 0, spare, none, 0⟩ = last at outcome ends
      have partial' : ∀ explorer rest, Continues (events plans plans.length [] spare) none 0 explorer rest →
          ∀ candidate, explorer.best = some candidate →
            ∃ choice, Feasible plans spare choice ∧ candidate = result plans spare choice := by
        rintro explorer rest ⟨done, split, best, _⟩ candidate found
        have first := pick_all_first globalBetter globalKey global_better_key (offersOf done)
        rw [← offer_eq, ← best, found] at first
        refine (all_offers distinct spare candidate).mp ?_
        rw [split, offers_append]
        exact List.mem_append_left _ first.mem
      cases last with
      | running explorer => exact absurd rfl (ends explorer)
      | limited explorer =>
          obtain ⟨⟨rest, reached⟩, halted⟩ := outcome
          refine ⟨partial' explorer _ reached, fun _ never => Bool.noConfusion never, fun _ _ never => Bool.noConfusion never,
            fun room => ?_⟩
          obtain ⟨done, split, _, nodes⟩ := reached
          have one : visits (Event.visit :: rest) = visits rest + 1 := by simp [visits, Event.offered]
          rw [split, visits_append, one] at room
          dsimp only at nodes
          omega
      | finished explorer =>
          have all := partial' explorer [] outcome
          obtain ⟨done, split, best, _⟩ := outcome
          rw [List.append_nil] at split
          subst split
          have first := pick_all_first globalBetter globalKey global_better_key (offersOf (events plans plans.length [] spare))
          rw [← offer_eq, ← best] at first
          refine ⟨all, fun nothing _ choice feasible => ?_, fun candidate found exhaustive => ?_, fun _ every => by simp [every]⟩
          · dsimp only at nothing
            rw [nothing] at first
            have listed := (all_offers distinct spare _).mpr ⟨choice, feasible, rfl⟩
            rw [first] at listed
            simp at listed
          · dsimp only at found exhaustive
            rw [found] at first exhaustive
            obtain ⟨choice, eq, leading⟩ := first_leading distinct spare candidate first
            exact ⟨by simpa using exhaustive, choice, eq, Or.inr ⟨quick, leading⟩⟩

end PathPlanner.SolveGlobal

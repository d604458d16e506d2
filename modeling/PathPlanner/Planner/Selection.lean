import PathPlanner.Planner.Assignments

set_option autoImplicit false

namespace PathPlanner

open Mapping EnumerateSets SolveGlobal

namespace Ranking

variable {request : PlanningRequest} {cap : Nat} {logicals : List LogicalEdge} {plans : List EdgePlan}

abbrev Stocks (request : PlanningRequest) (cap : Nat) (logicals : List LogicalEdge) (plans : List EdgePlan) : Prop :=
  List.Forall₂ (Stocked request cap) logicals plans

-- No budget cut the analysis of any logical edge short.
abbrev AllComplete (request : PlanningRequest) (cap : Nat) (logicals : List LogicalEdge) (plans : List EdgePlan) : Prop :=
  List.Forall₂ (fun logical plan => Stocked request cap logical plan ∧ Complete request cap logical plan.alternatives) logicals plans

theorem stocks_distinct (stocks : Stocks request cap logicals plans) : Distinct plans := by
  intro plan member set stored
  induction stocks with
  | nil => simp at member
  | cons here _ ih =>
      rcases List.mem_cons.mp member with rfl | later
      · obtain ⟨routes, _, rfl, _⟩ := here.sound set stored
        exact usage_distinct _
      · exact ih later

theorem chosen_routes (stocks : Stocks request cap logicals plans) (choice : List Nat) (chosen : Chosen plans choice) :
    ∃ assignment : Assignment, setsOf plans choice = assignment.map (setFor request) ∧
      List.Forall₂ (AdmissibleFor request) logicals assignment ∧ ∀ routes ∈ assignment, canonicalOrder request routes = routes := by
  induction stocks generalizing choice with
  | nil =>
      cases chosen
      exact ⟨[], rfl, List.Forall₂.nil, by simp⟩
  | @cons logical plan _ _ here _ ih =>
      rcases chosen with _ | ⟨inside, chosen⟩
      rename_i index choice
      obtain ⟨assignment, sets, admissible, ordered⟩ := ih choice chosen
      obtain ⟨routes, good, built, sorted⟩ := here.sound _ (List.mem_of_getElem? (stored_set plan.alternatives index inside))
      refine ⟨routes :: assignment, ?_, List.Forall₂.cons good admissible, by simpa using ⟨sorted, ordered⟩⟩
      rw [setsOf, List.zipWith_cons_cons, built, List.map_cons, ← sets, setsOf]

theorem feasible_assignment (sound : PlanningRequest.Sound request)
    (stocks : Stocks request cap request.collective.logicalEdges plans) (choice : List Nat)
    (feasible : Feasible plans (stateOf request).spare choice) :
    ∃ assignment : Assignment, setsOf plans choice = assignment.map (setFor request) ∧ FittingAssignment request assignment ∧
      ∀ routes ∈ assignment, canonicalOrder request routes = routes := by
  obtain ⟨assignment, sets, admissible, ordered⟩ := chosen_routes stocks choice feasible.1
  have affordable := feasible.2
  rw [sets, affordable_iff sound] at affordable
  exact ⟨assignment, sets, ⟨admissible, affordable⟩, ordered⟩

theorem within_choice (complete : AllComplete request cap logicals plans) (assignment : Assignment)
    (admissible : List.Forall₂ (AdmissibleFor request) logicals assignment)
    (within : List.Forall₂ (fun logical routes => ¬ Outranked request cap logical routes) logicals assignment) :
    ∃ choice, Chosen plans choice ∧ setsOf plans choice = assignment.map (setFor request) := by
  induction complete generalizing assignment with
  | nil =>
      cases admissible
      exact ⟨[], List.Forall₂.nil, rfl⟩
  | cons here _ ih =>
      rcases admissible with _ | ⟨good, admissible⟩
      rcases within with _ | ⟨free, within⟩
      obtain ⟨choice, chosen, sets⟩ := ih _ admissible within
      obtain ⟨index, bound, stored⟩ := List.getElem_of_mem ((here.2.kept _ good).mpr free)
      refine ⟨index :: choice, List.Forall₂.cons bound chosen, ?_⟩
      rw [setsOf, List.zipWith_cons_cons, List.getD_eq_getElem?_getD, List.getElem?_eq_getElem bound, Option.getD_some, stored,
        List.map_cons, ← sets, setsOf]

theorem choice_within (complete : AllComplete request cap logicals plans) (assignment : Assignment) (choice : List Nat)
    (admissible : List.Forall₂ (AdmissibleFor request) logicals assignment) (chosen : Chosen plans choice)
    (sets : setsOf plans choice = assignment.map (setFor request)) :
    List.Forall₂ (fun logical routes => ¬ Outranked request cap logical routes) logicals assignment := by
  induction complete generalizing assignment choice with
  | nil =>
      cases admissible
      exact List.Forall₂.nil
  | cons here _ ih =>
      rcases admissible with _ | ⟨good, admissible⟩
      rcases chosen with _ | ⟨inside, chosen⟩
      rw [setsOf, List.zipWith_cons_cons, List.map_cons, List.cons.injEq] at sets
      refine List.Forall₂.cons ((here.2.kept _ good).mp ?_) (ih _ _ admissible chosen sets.2)
      rw [← sets.1]
      exact List.mem_of_getElem? (stored_set _ _ inside)

-- The first alternatives are the sets nothing comes before.
theorem fronts_local (complete : AllComplete request cap logicals plans) (assignment : Assignment)
    (admissible : List.Forall₂ (AdmissibleFor request) logicals assignment) :
    setsOf plans (fronts plans) = assignment.map (setFor request) ↔ List.Forall₂ (LocalFirst request) logicals assignment := by
  induction complete generalizing assignment with
  | nil =>
      cases admissible
      exact ⟨fun _ => List.Forall₂.nil, fun _ => rfl⟩
  | @cons logical plan _ plans here _ ih =>
      rcases admissible with _ | ⟨good, admissible⟩
      rename_i routes _
      obtain ⟨front, others, starts⟩ := List.exists_cons_of_ne_nil here.1.nonempty
      have least := fun other otherGood => here.2.front other otherGood front others starts
      have first : setFor request routes = front ↔ LocalFirst request logical routes := by
        constructor
        · intro same
          refine ⟨good, fun other otherGood before => ?_⟩
          have low := (before_key other routes).mp before
          rw [same] at low
          exact absurd low (not_lt.mpr (least other otherGood))
        · intro local'
          obtain ⟨known, knownGood, knownIs, _⟩ := here.1.sound front (by simp [starts])
          have upper : pathSetKey (setFor request routes) ≤ pathSetKey (setFor request known) :=
            not_lt.mp fun less => local'.2 known knownGood ((before_key known routes).mpr less)
          have lower := least routes good
          rw [knownIs] at lower ⊢
          exact set_for_congr _ _ (here.2.unique routes known good knownGood (le_antisymm upper lower))
      have split : fronts (plan :: plans) = 0 :: fronts plans := rfl
      rw [split, setsOf, List.zipWith_cons_cons, List.map_cons, List.cons.injEq, List.forall₂_cons, ← first, ← ih _ admissible,
        starts]
      exact and_congr_left fun _ => eq_comm

theorem choice_order (complete : AllComplete request cap logicals plans) (lhs rhs : List Nat) (left : Chosen plans lhs)
    (right : Chosen plans rhs) (less : lhs < rhs) :
    (setsOf plans lhs).map pathSetKey < (setsOf plans rhs).map pathSetKey := by
  induction complete generalizing lhs rhs with
  | nil =>
      cases left
      cases right
      exact absurd less (lt_irrefl _)
  | @cons logical plan _ plans here _ ih =>
      rcases left with _ | ⟨leftInside, left⟩
      rcases right with _ | ⟨rightInside, right⟩
      rename_i i lhs j rhs
      simp only [setsOf, List.zipWith_cons_cons, List.map_cons]
      rcases List.cons_lt_cons_iff.mp less with lower | ⟨rfl, later⟩
      · refine List.cons_lt_cons_iff.mpr (Or.inl ?_)
        have ordered := List.pairwise_iff_getElem.mp here.2.strict i j leftInside rightInside lower
        simpa [List.getD_eq_getElem?_getD, leftInside, rightInside] using ordered
      · exact List.cons_lt_cons_iff.mpr (Or.inr ⟨rfl, ih lhs rhs left right later⟩)

theorem choice_order_le (complete : AllComplete request cap logicals plans) (lhs rhs : List Nat) (left : Chosen plans lhs)
    (right : Chosen plans rhs) : lhs ≤ rhs ↔ (setsOf plans lhs).map pathSetKey ≤ (setsOf plans rhs).map pathSetKey := by
  constructor
  · intro below
    rcases lt_or_eq_of_le below with less | rfl
    · exact (choice_order complete lhs rhs left right less).le
    · exact le_refl _
  · intro below
    by_contra above
    exact absurd (choice_order complete rhs lhs right left (not_le.mp above)) (not_lt.mpr below)

theorem firsts_fit_iff (sound : PlanningRequest.Sound request)
    (complete : AllComplete request cap request.collective.logicalEdges plans) :
    FirstsFit request ↔ Feasible plans (stateOf request).spare (fronts plans) := by
  have stocks : Stocks request cap request.collective.logicalEdges plans := complete.imp fun _ _ both => both.1
  have chosen : Chosen plans (fronts plans) := by
    have each : ∀ {logicals : List LogicalEdge} {plans : List EdgePlan}, Stocks request cap logicals plans →
        Chosen plans (fronts plans) := by
      intro logicals plans stocks
      induction stocks with
      | nil => exact List.Forall₂.nil
      | cons here _ ih => exact List.Forall₂.cons (List.length_pos_iff.mpr here.nonempty) ih
    exact each stocks
  constructor
  · rintro ⟨firsts, locals, fits⟩
    have sets := (fronts_local complete firsts (locals.imp fun _ _ first => first.1)).mpr locals
    refine ⟨chosen, ?_⟩
    rw [sets, affordable_iff sound]
    exact fits
  · intro feasible
    obtain ⟨assignment, sets, fitting, _⟩ := feasible_assignment sound stocks (fronts plans) feasible
    exact ⟨assignment, (fronts_local complete assignment fitting.admissible).mp sets, fitting.fits⟩

-- What an unbounded search selects is foremost.
theorem selected_foremost (sound : PlanningRequest.Sound request)
    (complete : AllComplete request cap request.collective.logicalEdges plans) (choice : List Nat)
    (selected : Selected plans (stateOf request).spare choice) (assignment : Assignment)
    (sets : setsOf plans choice = assignment.map (setFor request)) (fitting : FittingAssignment request assignment) :
    Foremost request cap assignment := by
  rcases selected with ⟨feasible, rfl⟩ | ⟨crowded, leading⟩
  · exact Or.inl ⟨(fronts_local complete assignment fitting.admissible).mp sets, (firsts_fit_iff sound complete).mpr feasible⟩
  · refine Or.inr ⟨fun firsts => crowded ((firsts_fit_iff sound complete).mp firsts),
      choice_within complete assignment choice fitting.admissible leading.feasible.1 sets, fun other otherFitting within => ?_⟩
    obtain ⟨picked, chosen, otherSets⟩ := within_choice complete other otherFitting.admissible within
    have affordable := (affordable_iff sound other).mpr otherFitting.fits
    rw [← otherSets] at affordable
    have better := leading.best picked ⟨chosen, affordable⟩
    rw [result_key sound plans choice assignment sets fitting.fits,
      result_key sound plans picked other otherSets otherFitting.fits] at better
    refine better.imp id fun both => ⟨both.1, ?_⟩
    have keys := (choice_order_le complete choice picked leading.feasible.1 chosen).mp both.2
    rw [sets, otherSets, List.map_map, List.map_map] at keys
    exact keys

theorem keys_perm (complete : AllComplete request cap logicals plans) (lhs rhs : Assignment)
    (left : List.Forall₂ (AdmissibleFor request) logicals lhs) (right : List.Forall₂ (AdmissibleFor request) logicals rhs)
    (same : setKeys request lhs = setKeys request rhs) : List.Forall₂ List.Perm lhs rhs := by
  induction complete generalizing lhs rhs with
  | nil =>
      cases left
      cases right
      exact List.Forall₂.nil
  | cons here _ ih =>
      rcases left with _ | ⟨leftGood, left⟩
      rcases right with _ | ⟨rightGood, right⟩
      rw [setKeys, setKeys, List.map_cons, List.map_cons, List.cons.injEq] at same
      exact List.Forall₂.cons (here.2.unique _ _ leftGood rightGood same.1) (ih _ _ left right same.2)

theorem foremost_unique (complete : AllComplete request cap request.collective.logicalEdges plans) (lhs rhs : Assignment)
    (leftFitting : FittingAssignment request lhs) (rightFitting : FittingAssignment request rhs)
    (left : Foremost request cap lhs) (right : Foremost request cap rhs) : List.Forall₂ List.Perm lhs rhs := by
  refine keys_perm complete lhs rhs leftFitting.admissible rightFitting.admissible ?_
  rcases left with ⟨leftLocal, firsts⟩ | ⟨crowded, leftWithin, leftBest⟩
  · rcases right with ⟨rightLocal, _⟩ | ⟨crowded, _⟩
    · have one := (fronts_local complete lhs leftFitting.admissible).mpr leftLocal
      have two := (fronts_local complete rhs rightFitting.admissible).mpr rightLocal
      have keys := congrArg (List.map pathSetKey) (one.symm.trans two)
      rw [List.map_map, List.map_map] at keys
      exact keys
    · exact absurd firsts crowded
  · rcases right with ⟨_, firsts⟩ | ⟨_, rightWithin, rightBest⟩
    · exact absurd firsts crowded
    · rcases leftBest rhs rightFitting rightWithin with less | ⟨same, below⟩
      · rcases rightBest lhs leftFitting leftWithin with more | ⟨same, _⟩
        · exact absurd less (not_lt.mpr more.le)
        · exact absurd less (same ▸ lt_irrefl _)
      · rcases rightBest lhs leftFitting leftWithin with more | ⟨_, above⟩
        · exact absurd more (same ▸ lt_irrefl _)
        · exact le_antisymm below above

end Ranking

end PathPlanner

import PathPlanner.Planner.PoolSound

set_option autoImplicit false

namespace PathPlanner

open Sequence Mapping Walk Budget

abbrev PathSetKey := Nat ×ₗ Nat ×ₗ Nat ×ₗ Natᵒᵈ ×ₗ List EdgeIndex

def pathSetKey (set : PathSet) : PathSetKey :=
  toLex (set.totalCost, toLex (set.domainConflicts, toLex (set.maxPathCost,
    toLex (OrderDual.toDual set.headroom, set.signature))))

theorem path_set_less_key (lhs rhs : PathSet) : pathSetLess lhs rhs ↔ pathSetKey lhs < pathSetKey rhs := by
  simp only [pathSetKey, Prod.Lex.toLex_lt_toLex]
  rfl

namespace EnumerateSets

variable (state : PlannerState) (wanted cap budget : Nat)

def Compatible (existing candidate : Candidate) : Prop := rejectPair state 0 existing candidate = .none

instance : DecidableRel (Compatible state) := fun existing candidate =>
  inferInstanceAs (Decidable (rejectPair state 0 existing candidate = .none))

-- The check that depends on the number of chosen paths rejects nothing the others accept.
theorem reject_pair_count (chosenCount : Nat) (existing candidate : Candidate) :
    rejectPair state chosenCount existing candidate = .none ↔ Compatible state existing candidate := by
  have implied : ∀ count, state.policy.domainDiversity = .required ∧ count > 1 ∧ candidate.domainKnown = false →
      state.policy.domainDiversity = .required ∧ domainsIndependent existing candidate = false :=
    fun _ unknown => ⟨unknown.1, by simp [domainsIndependent, unknown.2.2]⟩
  unfold Compatible rejectPair
  by_cases edges : state.policy.disjointness ≠ .none ∧ pathsEdgeDisjoint existing candidate = false
  · simp [if_pos edges]
  · rw [if_neg edges, if_neg edges]
    by_cases nodes : state.policy.disjointness = .node ∧ pathsNodeDisjoint state.fabric existing candidate = false
    · simp [if_pos nodes]
    · rw [if_neg nodes, if_neg nodes]
      by_cases domains : state.policy.domainDiversity = .required ∧ domainsIndependent existing candidate = false
      · simp [if_pos domains]
      · rw [if_neg domains, if_neg domains, if_neg fun bad => domains (implied _ bad),
          if_neg fun bad => domains (implied _ bad)]

theorem first_reject_none (chosenCount : Nat) (candidate : Candidate) (chosen : List Candidate) :
    firstReject state chosenCount candidate chosen = .none ↔ ∀ existing ∈ chosen, Compatible state existing candidate := by
  induction chosen with
  | nil => simp [firstReject]
  | cons existing rest ih =>
      rw [firstReject]
      by_cases accepted : rejectPair state chosenCount existing candidate = .none
      · rw [if_pos accepted, ih]
        simp [(reject_pair_count state chosenCount existing candidate).mp accepted]
      · rw [if_neg accepted]
        have bad : ¬ Compatible state existing candidate :=
          fun good => accepted ((reject_pair_count state chosenCount existing candidate).mpr good)
        simp [accepted, bad]

-- The choices a search without a budget completes, in its order.
def choices : List Candidate → List Candidate → List (List Candidate)
  | [], chosen => if chosen.length = wanted then [chosen] else []
  | candidate :: rest, chosen =>
      if chosen.length = wanted then [chosen]
      else (if firstReject state chosen.length candidate chosen = .none then choices rest (chosen ++ [candidate]) else []) ++
        choices rest chosen

theorem choices_complete (pool chosen : List Candidate) (complete : chosen.length = wanted) :
    choices state wanted pool chosen = [chosen] := by
  cases pool with
  | nil => rw [choices, if_pos complete]
  | cons candidate rest => rw [choices, if_pos complete]

theorem choices_mem (pool chosen : List Candidate) (result : List Candidate) (room : chosen.length ≤ wanted) :
    result ∈ choices state wanted pool chosen ↔ ∃ picked, picked.Sublist pool ∧ result = chosen ++ picked ∧
      result.length = wanted ∧ picked.Pairwise (Compatible state) ∧
      ∀ existing ∈ chosen, ∀ candidate ∈ picked, Compatible state existing candidate := by
  induction pool generalizing chosen with
  | nil =>
      rw [choices]
      constructor
      · intro member
        split_ifs at member with complete
        · rw [List.mem_singleton] at member
          exact ⟨[], by simp, by simp [member], member ▸ complete, by simp, by simp⟩
        · simp at member
      · rintro ⟨picked, part, rfl, length, _⟩
        have nothing : picked = [] := List.sublist_nil.mp part
        subst nothing
        simp at length
        simp [length]
  | cons candidate rest ih =>
      by_cases complete : chosen.length = wanted
      · rw [choices_complete state wanted _ _ complete, List.mem_singleton]
        constructor
        · rintro rfl
          exact ⟨[], by simp, by simp, complete, by simp, by simp⟩
        · rintro ⟨picked, _, rfl, length, _⟩
          have nothing : picked = [] := by
            rw [List.length_append] at length
            exact List.length_eq_zero_iff.mp (by omega)
          simp [nothing]
      · rw [choices, if_neg complete, List.mem_append, ih chosen room]
        constructor
        · rintro (taken | ⟨picked, part, facts⟩)
          · split_ifs at taken with accepted
            · obtain ⟨picked, part, eq, length, pairwise, cross⟩ := (ih (chosen ++ [candidate])
                (by rw [List.length_append, List.length_singleton]; omega)).mp taken
              have before := (first_reject_none state _ candidate chosen).mp accepted
              refine ⟨candidate :: picked, part.cons_cons candidate, by simp [eq], length, ?_, ?_⟩
              · rw [List.pairwise_cons]
                exact ⟨fun other member => cross candidate (by simp) other member, pairwise⟩
              · intro existing old other member
                rcases List.mem_cons.mp member with rfl | later
                · exact before existing old
                · exact cross existing (List.mem_append_left _ old) other later
            · simp at taken
          · exact ⟨picked, part.cons candidate, facts⟩
        · rintro ⟨picked, part, eq, length, pairwise, cross⟩
          rcases List.sublist_cons_iff.mp part with later | ⟨tail, rfl, tailPart⟩
          · exact Or.inr ⟨picked, later, eq, length, pairwise, cross⟩
          · left
            have accepted : firstReject state chosen.length candidate chosen = .none :=
              (first_reject_none state _ candidate chosen).mpr fun existing old => cross existing old candidate (by simp)
            rw [if_pos accepted]
            rw [List.pairwise_cons] at pairwise
            refine (ih (chosen ++ [candidate]) (by rw [List.length_append, List.length_singleton]; omega)).mpr
              ⟨tail, tailPart, by simp [eq], length, pairwise.2, ?_⟩
            intro existing old other member
            rcases List.mem_append.mp old with before | new
            · exact cross existing before other (List.mem_cons_of_mem _ member)
            · rw [List.mem_singleton.mp new]
              exact pairwise.1 other member

-- A search that needs more paths than the pool has left completes nothing.
theorem choices_short (pool chosen : List Candidate) (short : pool.length < wanted - chosen.length) :
    choices state wanted pool chosen = [] := by
  rw [List.eq_nil_iff_forall_not_mem]
  intro result member
  obtain ⟨picked, part, eq, length, _⟩ := (choices_mem state wanted pool chosen result (by omega)).mp member
  have size := part.length_le
  rw [eq, List.length_append] at length
  omega

def setOf (chosen : List Candidate) : PathSet := buildPathSet state chosen state.perPathDemand

-- The sets of the choices that fit on their own.
def offered (choices : List (List Candidate)) : List PathSet := (choices.map (setOf state)).filter (fitsSpare state)

abbrev Gathered (full : List PathSet) (before after : SetEnumeration) : Prop :=
  Covers (fun out => out.stepLimited = true) SetEnumeration.best (Ranked.insert pathSetLess cap) full before after

theorem consider_gathered (chosen : List Candidate) (out : SetEnumeration) :
    Gathered cap (offered state [chosen]) out (consider state cap chosen out) := by
  unfold consider offered
  by_cases fits : fitsSpare state (buildPathSet state chosen state.perPathDemand) = true
  · simp only [if_pos fits, List.map_singleton, List.filter_singleton]
    have kept : fitsSpare state (setOf state chosen) = true := fits
    rw [kept]
    exact covers_one _ _ _ rfl id
  · have dropped : fitsSpare state (setOf state chosen) = false := Bool.eq_false_iff.mpr fits
    simp only [if_neg fits, List.map_singleton, List.filter_singleton, dropped]
    exact covers_nothing _ _ rfl id

theorem enter_sets_gathered (loop : SetEnumeration → SetEnumeration) (pool chosen : List Candidate)
    (room : chosen.length ≤ wanted) (out : SetEnumeration)
    (inner : chosen.length ≠ wanted → Gathered cap (offered state (choices state wanted pool chosen)) out (loop out)) :
    Gathered cap (offered state (choices state wanted pool chosen)) out
      (enterSets state wanted cap budget loop pool.length chosen out) := by
  unfold enterSets
  by_cases spent : out.considered ≥ budget
  · rw [if_pos spent]
    exact covers_stopped _ _ _ rfl rfl
  · rw [if_neg spent]
    by_cases complete : chosen.length = wanted
    · rw [if_pos complete, choices_complete state wanted pool chosen complete]
      exact consider_gathered state cap chosen out
    · rw [if_neg complete]
      by_cases short : pool.length = 0 ∨ pool.length < wanted - chosen.length
      · rw [if_pos short, choices_short state wanted pool chosen (by omega)]
        exact covers_nothing _ _ rfl id
      · rw [if_neg short]
        exact inner complete

theorem reject_frame (out : SetEnumeration) (reason : SetReject) :
    (reject out reason).best = out.best ∧ (reject out reason).stepLimited = out.stepLimited := by
  cases reason <;> exact ⟨rfl, rfl⟩

theorem sets_loop_gathered (pool chosen : List Candidate) (room : chosen.length < wanted) (out : SetEnumeration) :
    Gathered cap (offered state (choices state wanted pool chosen)) out (setsLoop state wanted cap budget pool chosen out) := by
  induction pool generalizing chosen out with
  | nil =>
      have incomplete : chosen.length ≠ wanted := by omega
      rw [choices, if_neg incomplete]
      exact covers_nothing _ _ rfl id
  | cons candidate rest ih =>
      have incomplete : chosen.length ≠ wanted := by omega
      rw [setsLoop, choices, if_neg incomplete]
      by_cases spent : out.considered ≥ budget
      · rw [if_pos spent]
        exact covers_stopped _ _ _ rfl rfl
      · rw [if_neg spent, offered, List.map_append, List.filter_append]
        by_cases accepted : firstReject state chosen.length candidate chosen = .none
        · rw [if_pos accepted, accepted]
          refine covers_trans _ _ out _ _ ?_ (ih chosen room _)
          refine enter_sets_gathered state wanted cap budget _ rest (chosen ++ [candidate])
            (by rw [List.length_append, List.length_singleton]; omega) out fun unfinished => ?_
          exact ih (chosen ++ [candidate]) (by rw [List.length_append, List.length_singleton] at unfinished ⊢; omega) out
        · rw [if_neg accepted]
          have skipped := covers_trans [] _ out (reject out (firstReject state chosen.length candidate chosen)) _
            (covers_nothing _ _ (reject_frame _ _).1 fun limited => (reject_frame _ _).2.trans limited) (ih chosen room _)
          generalize firstReject state chosen.length candidate chosen = reason at accepted skipped
          cases reason with
          | none => exact absurd rfl accepted
          | disjointness => exact skipped
          | domainDiversity => exact skipped
          | capacity => exact skipped

theorem enumerate_sets_gathered (pool : List Candidate) :
    Gathered cap (offered state (choices state wanted pool [])) {} (enumerateSets state pool wanted cap budget) :=
  enter_sets_gathered state wanted cap budget _ pool [] (Nat.zero_le _) {}
    fun unfinished => sets_loop_gathered state wanted cap budget pool [] (Nat.pos_of_ne_zero unfinished.symm) {}

-- What is kept is the best of what was offered, and that is everything unless the budget ran out.
theorem enumerate_sets_best (pool : List Candidate) :
    ∃ taken : List PathSet, taken.Sublist (offered state (choices state wanted pool [])) ∧
      Ranked.Best pathSetKey cap taken (enumerateSets state pool wanted cap budget).best ∧
      ((enumerateSets state pool wanted cap budget).stepLimited = false →
        taken = offered state (choices state wanted pool [])) := by
  obtain ⟨⟨taken, part, view, all⟩, _⟩ := enumerate_sets_gathered state wanted cap budget pool
  refine ⟨taken, part, ?_, fun running => all (by simp [running])⟩
  rw [view]
  simpa using Ranked.best_insert_all pathSetLess pathSetKey path_set_less_key cap taken [] [] (Ranked.best_nothing pathSetKey cap)

end EnumerateSets

end PathPlanner

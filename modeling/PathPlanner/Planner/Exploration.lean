import PathPlanner.Planner.Global
import PathPlanner.Lib.Footprint
import PathPlanner.Lib.Pick

set_option autoImplicit false

namespace PathPlanner.SolveGlobal

open Footprint Pick

theorem offer_eq : offer = pick globalBetter := by
  funext best candidate
  cases best <;> rfl

-- What the exploration does, in order: it visits an alternative or offers an assignment.
inductive Event where
  | visit
  | offer (candidate : GlobalCandidate)

def Event.offered : Event → Option GlobalCandidate
  | .visit => none
  | .offer candidate => some candidate

def offersOf (events : List Event) : List GlobalCandidate := events.filterMap Event.offered

def visits (events : List Event) : Nat := events.countP fun event => event.offered.isNone

theorem offers_append (first second : List Event) : offersOf (first ++ second) = offersOf first ++ offersOf second :=
  List.filterMap_append

theorem visits_append (first second : List Event) : visits (first ++ second) = visits first + visits second :=
  List.countP_append

variable (plans : List EdgePlan)

-- The scan of a level's alternatives from a cursor on, and everything it leads to.
def scanEvents (deeper : Nat → Remaining → List Event) (remaining : Remaining) : Nat → List PathSet → List Event
  | _, [] => []
  | cursor, set :: rest =>
      Event.visit :: ((if fits remaining set = true then deeper cursor (apply remaining set) else []) ++
        scanEvents deeper remaining (cursor + 1) rest)

def events : Nat → List Nat → Remaining → List Event
  | 0, chosen, remaining => [Event.offer (summarise chosen (chosenSets plans chosen) remaining)]
  | left + 1, chosen, remaining =>
      scanEvents (fun index after => events left (chosen ++ [index]) after) remaining 0
        (plans.getD chosen.length {}).alternatives

def levelEvents (chosen : List Nat) (cursor : Nat) (remaining : Remaining) : List Event :=
  scanEvents (fun index after => events plans (plans.length - (chosen.length + 1)) (chosen ++ [index]) after) remaining cursor
    ((plans.getD chosen.length {}).alternatives.drop cursor)

-- What is still to be done at the levels below; the choices come with the last one first.
def below : List Nat → Remaining → List Event
  | [], _ => []
  | last :: lower, remaining =>
      levelEvents plans lower.reverse (last + 1) (unapply remaining (setAt plans lower.length last)) ++
        below lower (unapply remaining (setAt plans lower.length last))

def current (explorer : Explorer) : List Event :=
  if explorer.chosen.length = plans.length then
    [Event.offer (summarise explorer.chosen (chosenSets plans explorer.chosen) explorer.remaining)]
  else levelEvents plans explorer.chosen explorer.cursor explorer.remaining

def pending (explorer : Explorer) : List Event := current plans explorer ++ below plans explorer.chosen.reverse explorer.remaining

-- A state that has done the first part of some events and has the rest before it.
def Continues (all : List Event) (best : Option GlobalCandidate) (nodes : Nat) (explorer : Explorer) (rest : List Event) : Prop :=
  ∃ done, all = done ++ rest ∧ explorer.best = (offersOf done).foldl offer best ∧ explorer.nodes = nodes + visits done

theorem continues_refl (rest : List Event) (explorer : Explorer) : Continues rest explorer.best explorer.nodes explorer rest :=
  ⟨[], rfl, rfl, rfl⟩

theorem continues_trans (all : List Event) (best : Option GlobalCandidate) (nodes : Nat) (middle last : Explorer)
    (some rest : List Event) (first : Continues all best nodes middle some)
    (second : Continues some middle.best middle.nodes last rest) : Continues all best nodes last rest := by
  obtain ⟨done, rfl, bestDone, nodesDone⟩ := first
  obtain ⟨more, rfl, bestMore, nodesMore⟩ := second
  refine ⟨done ++ more, by simp, ?_, ?_⟩
  · rw [bestMore, bestDone, offers_append, List.foldl_append]
  · rw [nodesMore, nodesDone, visits_append]
    omega

def Outcome (budget : Nat) (all : List Event) (best : Option GlobalCandidate) (nodes : Nat) : Step → Prop
  | .running explorer => explorer.chosen.length ≤ plans.length ∧ Continues all best nodes explorer (pending plans explorer)
  | .finished explorer => Continues all best nodes explorer []
  | .limited explorer => (∃ rest, Continues all best nodes explorer (Event.visit :: rest)) ∧ budget ≤ explorer.nodes

theorem retreat_outcome (budget : Nat) (explorer : Explorer) (bound : explorer.chosen.length ≤ plans.length) :
    Outcome plans budget (below plans explorer.chosen.reverse explorer.remaining) explorer.best explorer.nodes
      (retreat plans explorer) := by
  unfold retreat
  cases top : explorer.chosen.getLast? with
  | none =>
      have empty : explorer.chosen = [] := List.getLast?_eq_none_iff.mp top
      rw [empty]
      exact continues_refl [] explorer
  | some last =>
      obtain ⟨lower, split⟩ := List.getLast?_eq_some_iff.mp top
      have shorter : lower.length + 1 ≤ plans.length := by simpa [split] using bound
      have dropped : explorer.chosen.dropLast = lower := by rw [split, List.dropLast_concat]
      dsimp only
      rw [dropped]
      refine ⟨by dsimp only; omega, [], ?_, rfl, rfl⟩
      have open' : lower.length ≠ plans.length := by omega
      simp only [pending, current, if_neg open', split, List.reverse_append, List.reverse_cons, List.reverse_nil,
        List.nil_append, List.singleton_append, below, List.reverse_reverse, List.length_reverse]

theorem fits_eq (remaining : Remaining) (set : PathSet) : fits remaining set = Footprint.fits remaining set.usage := rfl

theorem apply_eq (remaining : Remaining) (set : PathSet) : apply remaining set = charge remaining set.usage := rfl

theorem unapply_eq (remaining : Remaining) (set : PathSet) : unapply remaining set = refund remaining set.usage := rfl

-- No alternative claims one edge twice.
def Distinct : Prop := ∀ plan ∈ plans, ∀ set ∈ plan.alternatives, (set.usage.map Prod.fst).Nodup

variable {plans}

theorem unapply_apply (remaining : Remaining) (set : PathSet) (distinct : (set.usage.map Prod.fst).Nodup)
    (room : fits remaining set = true) : unapply (apply remaining set) set = remaining := by
  rw [unapply_eq, apply_eq]
  exact refund_charge _ _ ((fits_iff _ _ distinct).mp room)

theorem events_level (left : Nat) (chosen : List Nat) (remaining : Remaining) (bound : chosen.length + left = plans.length) :
    events plans left chosen remaining =
      if chosen.length = plans.length then [Event.offer (summarise chosen (chosenSets plans chosen) remaining)]
      else levelEvents plans chosen 0 remaining := by
  cases left with
  | zero => rw [events, if_pos (by omega)]
  | succ left =>
      rw [events, if_neg (by omega), levelEvents, List.drop_zero]
      have same : plans.length - (chosen.length + 1) = left := by omega
      rw [same]

theorem advance_outcome (distinct : Distinct plans) (budget : Nat) (sets : List PathSet) (explorer : Explorer)
    (bound : explorer.chosen.length < plans.length)
    (here : (plans.getD explorer.chosen.length {}).alternatives.drop explorer.cursor = sets) :
    Outcome plans budget (levelEvents plans explorer.chosen explorer.cursor explorer.remaining ++
      below plans explorer.chosen.reverse explorer.remaining) explorer.best explorer.nodes (advance plans budget sets explorer) := by
  have levelIs : levelEvents plans explorer.chosen explorer.cursor explorer.remaining =
      scanEvents (fun index after => events plans (plans.length - (explorer.chosen.length + 1)) (explorer.chosen ++ [index]) after)
        explorer.remaining explorer.cursor sets := by rw [levelEvents, here]
  induction sets generalizing explorer with
  | nil =>
      rw [levelIs, scanEvents, List.nil_append]
      exact retreat_outcome plans budget explorer bound.le
  | cons set rest ih =>
      have next : (plans.getD explorer.chosen.length {}).alternatives.drop (explorer.cursor + 1) = rest := by
        rw [← List.tail_drop, here, List.tail_cons]
      have placed : setAt plans explorer.chosen.length explorer.cursor = set := by
        have found : (plans.getD explorer.chosen.length {}).alternatives[explorer.cursor]? = some set := by
          rw [← List.head?_drop, here, List.head?_cons]
        rw [setAt, List.getD_eq_getElem?_getD, found, Option.getD_some]
      rw [levelIs, scanEvents, advance]
      by_cases spent : explorer.nodes ≥ budget
      · rw [if_pos spent]
        exact ⟨⟨_, continues_refl _ explorer⟩, spent⟩
      · rw [if_neg spent]
        by_cases full : fits explorer.remaining set = false
        · rw [if_pos full, if_neg (by simp [full]), List.nil_append]
          have later := ih { explorer with cursor := explorer.cursor + 1, nodes := explorer.nodes + 1 } bound next
            (by rw [levelEvents, next])
          have visited : Continues (Event.visit :: (levelEvents plans explorer.chosen (explorer.cursor + 1) explorer.remaining ++
              below plans explorer.chosen.reverse explorer.remaining)) explorer.best explorer.nodes
              { explorer with cursor := explorer.cursor + 1, nodes := explorer.nodes + 1 }
              (levelEvents plans explorer.chosen (explorer.cursor + 1) explorer.remaining ++
                below plans explorer.chosen.reverse explorer.remaining) := ⟨[Event.visit], rfl, rfl, rfl⟩
          rw [List.cons_append]
          have sameLevel : levelEvents plans explorer.chosen (explorer.cursor + 1) explorer.remaining =
              scanEvents (fun index after => events plans (plans.length - (explorer.chosen.length + 1))
                (explorer.chosen ++ [index]) after) explorer.remaining (explorer.cursor + 1) rest := by rw [levelEvents, next]
          rw [← sameLevel]
          generalize advance plans budget rest { explorer with cursor := explorer.cursor + 1, nodes := explorer.nodes + 1 } = outcome
            at later
          cases outcome with
          | running after => exact ⟨later.1, continues_trans _ _ _ _ _ _ _ visited later.2⟩
          | finished after => exact continues_trans _ _ _ _ _ _ _ visited later
          | limited after =>
              obtain ⟨⟨left, reached⟩, halted⟩ := later
              exact ⟨⟨left, continues_trans _ _ _ _ _ _ _ visited reached⟩, halted⟩
        · have room : fits explorer.remaining set = true := by simpa using full
          rw [if_neg full, if_pos room]
          refine ⟨by simp only [List.length_append, List.length_singleton]; omega, [Event.visit], ?_, rfl, rfl⟩
          have once : (set.usage.map Prod.fst).Nodup := by
            have stored : plans.getD explorer.chosen.length {} ∈ plans := by
              rw [List.getD_eq_getElem?_getD, List.getElem?_eq_getElem bound, Option.getD_some]
              exact List.getElem_mem bound
            refine distinct _ stored set (List.mem_of_mem_drop (i := explorer.cursor) ?_)
            rw [here]
            exact List.mem_cons_self
          have entered := @events_level plans (plans.length - (explorer.chosen.length + 1))
            (explorer.chosen ++ [explorer.cursor]) (apply explorer.remaining set)
            (by rw [List.length_append, List.length_singleton]; omega)
          simp only [pending, current, List.reverse_append, List.reverse_cons, List.reverse_nil, List.nil_append,
            List.singleton_append, below, List.reverse_reverse, List.length_reverse]
          rw [← entered, placed, unapply_apply _ _ once room]
          simp only [levelEvents, next, List.append_assoc, List.cons_append]

theorem step_outcome (distinct : Distinct plans) (budget : Nat) (explorer : Explorer)
    (bound : explorer.chosen.length ≤ plans.length) :
    Outcome plans budget (pending plans explorer) explorer.best explorer.nodes (step plans budget explorer) := by
  unfold step pending current
  by_cases leaf : explorer.chosen.length = plans.length
  · rw [if_pos leaf, if_pos leaf]
    have left := retreat_outcome plans budget { explorer with best := offer explorer.best (summarise explorer.chosen
      (chosenSets plans explorer.chosen) explorer.remaining) } bound
    have offered : Continues (Event.offer (summarise explorer.chosen (chosenSets plans explorer.chosen) explorer.remaining) ::
        below plans explorer.chosen.reverse explorer.remaining) explorer.best explorer.nodes
        { explorer with best := offer explorer.best (summarise explorer.chosen (chosenSets plans explorer.chosen)
          explorer.remaining) } (below plans explorer.chosen.reverse explorer.remaining) := ⟨[Event.offer _], rfl, rfl, rfl⟩
    rw [List.singleton_append]
    dsimp only
    generalize retreat plans { explorer with best := offer explorer.best (summarise explorer.chosen
      (chosenSets plans explorer.chosen) explorer.remaining) } = outcome at left
    cases outcome with
    | running after => exact ⟨left.1, continues_trans _ _ _ _ _ _ _ offered left.2⟩
    | finished after => exact continues_trans _ _ _ _ _ _ _ offered left
    | limited after =>
        obtain ⟨⟨rest, reached⟩, halted⟩ := left
        exact ⟨⟨rest, continues_trans _ _ _ _ _ _ _ offered reached⟩, halted⟩
  · rw [if_neg leaf, if_neg leaf]
    exact advance_outcome distinct budget _ explorer (by omega) rfl

-- Every turn follows the events still pending.
theorem explore_outcome (distinct : Distinct plans) (budget turns : Nat) (explorer : Explorer)
    (bound : explorer.chosen.length ≤ plans.length) :
    Outcome plans budget (pending plans explorer) explorer.best explorer.nodes (explore plans budget turns explorer) := by
  induction turns generalizing explorer with
  | zero => exact ⟨bound, continues_refl _ explorer⟩
  | succ turns ih =>
      rw [explore]
      have first := step_outcome distinct budget explorer bound
      generalize step plans budget explorer = outcome at first
      cases outcome with
      | finished after => exact first
      | limited after => exact first
      | running middle =>
          have rest := ih middle first.1
          dsimp only
          generalize explore plans budget turns middle = last at rest
          cases last with
          | running after => exact ⟨rest.1, continues_trans _ _ _ _ _ _ _ first.2 rest.2⟩
          | finished after => exact continues_trans _ _ _ _ _ _ _ first.2 rest
          | limited after =>
              obtain ⟨⟨left, reached⟩, halted⟩ := rest
              exact ⟨⟨left, continues_trans _ _ _ _ _ _ _ first.2 reached⟩, halted⟩

-- A turn that goes on visits a node and goes up a level, or goes down one.
def turnsLeft (budget : Nat) (explorer : Explorer) : Nat := 2 * (budget - explorer.nodes) + explorer.chosen.length

theorem retreat_turns (budget : Nat) (explorer after : Explorer) (goes : retreat plans explorer = .running after) :
    turnsLeft budget after + 1 = turnsLeft budget explorer := by
  unfold retreat at goes
  cases top : explorer.chosen.getLast? with
  | none => simp [top] at goes
  | some last =>
      obtain ⟨lower, split⟩ := List.getLast?_eq_some_iff.mp top
      rw [top] at goes
      simp only [Step.running.injEq] at goes
      subst goes
      simp only [turnsLeft, split, List.dropLast_concat, List.length_append, List.length_singleton]
      omega

theorem advance_turns (budget : Nat) (sets : List PathSet) (explorer after : Explorer)
    (goes : advance plans budget sets explorer = .running after) : turnsLeft budget after + 1 ≤ turnsLeft budget explorer := by
  induction sets generalizing explorer with
  | nil => exact (retreat_turns budget explorer after goes).le
  | cons set rest ih =>
      rw [advance] at goes
      split_ifs at goes with spent full
      · have later := ih _ goes
        simp only [turnsLeft] at later ⊢
        omega
      · simp only [Step.running.injEq] at goes
        subst goes
        simp only [turnsLeft, List.length_append, List.length_singleton]
        omega

theorem step_turns (budget : Nat) (explorer after : Explorer) (goes : step plans budget explorer = .running after) :
    turnsLeft budget after + 1 ≤ turnsLeft budget explorer := by
  unfold step at goes
  split_ifs at goes
  · exact (retreat_turns budget _ after goes).le
  · exact advance_turns budget _ explorer after goes

-- The turns given to the exploration never run out.
theorem explore_ends (budget turns : Nat) (explorer : Explorer) (enough : turnsLeft budget explorer < turns) (after : Explorer) :
    explore plans budget turns explorer ≠ .running after := by
  induction turns generalizing explorer with
  | zero => omega
  | succ turns ih =>
      rw [explore]
      cases stepped : step plans budget explorer with
      | finished last => simp
      | limited last => simp
      | running middle =>
          have fewer := step_turns budget explorer middle stepped
          exact ih middle (by omega)

end PathPlanner.SolveGlobal

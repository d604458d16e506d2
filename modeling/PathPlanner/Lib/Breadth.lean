import Mathlib

set_option autoImplicit false
set_option linter.unusedSectionVars false

namespace PathPlanner.Breadth

variable {α : Type} [DecidableEq α]

-- The queue keeps every node met so far in the order of its discovery.
structure Sweep (α : Type) where
  distance : α → Option Nat
  queue : List α

def begin (source : α) : Sweep α where
  distance := Function.update (fun _ => none) source (some 0)
  queue := [source]

-- An error carries the distance at which a goal was met.
def visit (goal : α → Bool) (depth : Nat) : List α → Sweep α → Except Nat (Sweep α)
  | [], sweep => .ok sweep
  | node :: rest, sweep =>
      if (sweep.distance node).isSome then visit goal depth rest sweep
      else if goal node then .error depth
      else visit goal depth rest
        ⟨Function.update sweep.distance node (some depth), sweep.queue ++ [node]⟩

-- The first number bounds the nodes still to be taken, the second counts those taken.
def explore (next : α → List α) (goal : α → Bool) : Nat → Nat → Sweep α → Except Nat (Sweep α)
  | 0, _, sweep => .ok sweep
  | fuel + 1, head, sweep =>
      match sweep.queue[head]? with
      | none => .ok sweep
      | some node => do
          let sweep ← visit goal ((sweep.distance node).getD 0 + 1) (next node) sweep
          explore next goal fuel (head + 1) sweep

def search (next : α → List α) (goal : α → Bool) (nodes : Nat) (source : α) : Except Nat (Sweep α) :=
  explore next goal nodes 0 (begin source)

-- b is a steps-long walk away from a.
def Reaches (next : α → List α) : Nat → α → α → Prop
  | 0, a, b => a = b
  | steps + 1, a, b => ∃ middle, Reaches next steps a middle ∧ b ∈ next middle

section Visit

variable (goal : α → Bool) (depth : Nat)

-- What visiting the successors of one node adds to a sweep.
structure Extends (met : List α) (before after : Sweep α) : Prop where
  queue : ∃ fresh, after.queue = before.queue ++ fresh ∧ fresh.Nodup ∧
    ∀ a ∈ fresh, a ∈ met ∧ goal a = false ∧ before.distance a = none ∧ after.distance a = some depth
  kept : ∀ a d, before.distance a = some d → after.distance a = some d
  fresh : ∀ a, before.distance a = none → after.distance a ≠ none → a ∈ after.queue
  found : ∀ a ∈ met, after.distance a ≠ none

theorem visit_extends (met : List α) (before after : Sweep α) (visited : visit goal depth met before = .ok after) :
    Extends goal depth met before after := by
  induction met generalizing before with
  | nil =>
      rw [visit, Except.ok.injEq] at visited
      subst visited
      exact ⟨⟨[], by simp⟩, fun _ _ known => known, fun _ missing known => absurd missing known, by simp⟩
  | cons head tail ih =>
      rw [visit] at visited
      by_cases known : (before.distance head).isSome
      · rw [if_pos known] at visited
        have rest := ih before visited
        obtain ⟨fresh, grown, distinct, added⟩ := rest.queue
        refine ⟨⟨fresh, grown, distinct, fun a member => ?_⟩, rest.kept, rest.fresh, ?_⟩
        · have facts := added a member
          exact ⟨List.mem_cons_of_mem _ facts.1, facts.2⟩
        · intro a member
          rcases List.mem_cons.mp member with rfl | inTail
          · obtain ⟨d, here⟩ := Option.isSome_iff_exists.mp known
            simp [rest.kept a d here]
          · exact rest.found a inTail
      · rw [if_neg known] at visited
        by_cases reached : goal head
        · simp [if_pos reached] at visited
        · rw [if_neg reached] at visited
          have missing : before.distance head = none := by simpa using known
          have rest := ih _ visited
          obtain ⟨fresh, grown, distinct, added⟩ := rest.queue
          have headKept : after.distance head = some depth := rest.kept head depth (by simp)
          refine ⟨⟨head :: fresh, by simp [grown], ?_, ?_⟩, ?_, ?_, ?_⟩
          · rw [List.nodup_cons]
            refine ⟨fun member => ?_, distinct⟩
            have absent := (added head member).2.2.1
            simp at absent
          · intro a member
            rcases List.mem_cons.mp member with rfl | inFresh
            · exact ⟨by simp, by simpa using reached, missing, headKept⟩
            · obtain ⟨inTail, notGoal, absent, placed⟩ := added a inFresh
              refine ⟨List.mem_cons_of_mem _ inTail, notGoal, ?_, placed⟩
              by_cases same : a = head
              · subst same
                exact missing
              · simpa [Function.update_of_ne same] using absent
          · intro a d kept
            by_cases same : a = head
            · subst same
              simp [missing] at kept
            · exact rest.kept a d (by simpa [Function.update_of_ne same] using kept)
          · intro a absent present
            by_cases same : a = head
            · subst same
              simp [grown]
            · exact rest.fresh a (by simpa [Function.update_of_ne same] using absent) present
          · intro a member
            rcases List.mem_cons.mp member with rfl | inTail
            · simp [headKept]
            · exact rest.found a inTail

theorem visit_goal (met : List α) (before : Sweep α) (hops : Nat)
    (visited : visit goal depth met before = .error hops) :
    hops = depth ∧ ∃ a ∈ met, goal a = true ∧ before.distance a = none := by
  induction met generalizing before with
  | nil => simp [visit] at visited
  | cons head tail ih =>
      rw [visit] at visited
      by_cases known : (before.distance head).isSome
      · rw [if_pos known] at visited
        obtain ⟨eq, a, member, facts⟩ := ih before visited
        exact ⟨eq, a, List.mem_cons_of_mem _ member, facts⟩
      · rw [if_neg known] at visited
        have missing : before.distance head = none := by simpa using known
        by_cases reached : goal head
        · rw [if_pos reached, Except.error.injEq] at visited
          exact ⟨visited.symm, head, by simp, reached, missing⟩
        · rw [if_neg reached] at visited
          obtain ⟨eq, a, member, isGoal, absent⟩ := ih _ visited
          refine ⟨eq, a, List.mem_cons_of_mem _ member, isGoal, ?_⟩
          by_cases same : a = head
          · subst same
            exact missing
          · simpa [Function.update_of_ne same] using absent

end Visit

section Explore

variable (next : α → List α) (goal : α → Bool) (source : α)

def depthOf (sweep : Sweep α) (a : α) : Nat := (sweep.distance a).getD 0

-- The first head nodes of the queue have been expanded.
structure Invariant (head : Nat) (sweep : Sweep α) : Prop where
  distinct : sweep.queue.Nodup
  known : ∀ a, a ∈ sweep.queue ↔ sweep.distance a ≠ none
  start : sweep.distance source = some 0
  goals : ∀ a ∈ sweep.queue, a = source ∨ goal a = false
  sound : ∀ a d, sweep.distance a = some d → Reaches next d source a
  shallow : ∀ position (bound : position < sweep.queue.length), depthOf sweep sweep.queue[position] ≤ position
  ordered : sweep.queue.Pairwise fun a b => depthOf sweep a ≤ depthOf sweep b
  span : ∀ a ∈ sweep.queue, ∀ b ∈ sweep.queue.drop head, depthOf sweep a ≤ depthOf sweep b + 1
  closed : ∀ a ∈ sweep.queue.take head, ∀ b ∈ next a, ∃ d, sweep.distance b = some d ∧ d ≤ depthOf sweep a + 1

theorem begin_invariant : Invariant next goal source 0 (begin source) := by
  have others : ∀ a, (begin source).distance a ≠ none → a = source := by
    intro a known
    by_contra differ
    simp [begin, Function.update_of_ne differ] at known
  refine ⟨by simp [begin], ?_, by simp [begin], by simp [begin], ?_, ?_, by simp [begin], ?_, by simp⟩
  · intro a
    constructor
    · intro member
      simp only [begin, List.mem_singleton] at member
      simp [begin, member]
    · intro known
      simp [begin, others a known]
  · intro a d placed
    have same := others a (by simp [placed])
    subst same
    simp only [begin, Function.update_self, Option.some.injEq] at placed
    subst placed
    rfl
  · intro position bound
    simp only [begin, List.length_singleton] at bound
    have first : position = 0 := by omega
    subst first
    simp [begin, depthOf]
  · intro a left b right
    simp only [begin, List.drop_zero, List.mem_singleton] at left right
    subst left right
    omega

-- While every node still in the queue is at least as far as the bound, every walk within it is known.
theorem invariant_reaches (head : Nat) (sweep : Sweep α) (invariant : Invariant next goal source head sweep)
    (bound : Nat) (far : ∀ a ∈ sweep.queue.drop head, bound ≤ depthOf sweep a) (steps : Nat) (within : steps ≤ bound)
    (b : α) (walk : Reaches next steps source b) : ∃ d, sweep.distance b = some d ∧ d ≤ steps := by
  induction steps generalizing b with
  | zero =>
      have same : source = b := walk
      subst same
      exact ⟨0, invariant.start, le_refl 0⟩
  | succ steps ih =>
      obtain ⟨middle, shorter, edge⟩ := walk
      obtain ⟨d, placed, low⟩ := ih (by omega) middle shorter
      have inQueue : middle ∈ sweep.queue := (invariant.known middle).mpr (by simp [placed])
      have depth : depthOf sweep middle = d := by simp [depthOf, placed]
      have expanded : middle ∈ sweep.queue.take head := by
        rcases List.mem_append.mp (by rwa [List.take_append_drop] : middle ∈ sweep.queue.take head ++ sweep.queue.drop head)
          with taken | waiting
        · exact taken
        · have := far middle waiting
          omega
      obtain ⟨e, reached, le⟩ := invariant.closed middle expanded b edge
      exact ⟨e, reached, by omega⟩

theorem invariant_step (head : Nat) (sweep after : Sweep α) (node : α) (invariant : Invariant next goal source head sweep)
    (here : sweep.queue[head]? = some node)
    (extended : Extends goal (depthOf sweep node + 1) (next node) sweep after) :
    Invariant next goal source (head + 1) after := by
  obtain ⟨fresh, grown, freshDistinct, added⟩ := extended.queue
  obtain ⟨bound, atHead⟩ := List.getElem?_eq_some_iff.mp here
  have nodeKnown : node ∈ sweep.queue := List.mem_of_getElem? here
  have waiting : sweep.queue.drop head = node :: sweep.queue.drop (head + 1) := by
    rw [← atHead, List.drop_eq_getElem_cons bound]
  have oldDepth : ∀ a ∈ sweep.queue, depthOf after a = depthOf sweep a := by
    intro a member
    obtain ⟨d, placed⟩ := Option.ne_none_iff_exists'.mp ((invariant.known a).mp member)
    simp [depthOf, placed, extended.kept a d placed]
  have freshDepth : ∀ a ∈ fresh, depthOf after a = depthOf sweep node + 1 := by
    intro a member
    simp [depthOf, (added a member).2.2.2]
  have below : ∀ a ∈ sweep.queue, depthOf sweep a ≤ depthOf sweep node + 1 := fun a member =>
    invariant.span a member node (by simp [waiting])
  have beyond : ∀ b ∈ sweep.queue.drop (head + 1), depthOf sweep node ≤ depthOf sweep b := by
    have sorted := invariant.ordered.sublist (List.drop_sublist head sweep.queue)
    rw [waiting, List.pairwise_cons] at sorted
    exact sorted.1
  refine {
    distinct := ?_
    known := ?_
    start := extended.kept source 0 invariant.start
    goals := ?_
    sound := ?_
    shallow := ?_
    ordered := ?_
    span := ?_
    closed := ?_ }
  · rw [grown, List.nodup_append]
    refine ⟨invariant.distinct, freshDistinct, fun a old b new same => ?_⟩
    subst same
    exact (invariant.known a).mp old (added a new).2.2.1
  · intro a
    constructor
    · intro member
      rw [grown, List.mem_append] at member
      rcases member with old | new
      · obtain ⟨d, placed⟩ := Option.ne_none_iff_exists'.mp ((invariant.known a).mp old)
        simp [extended.kept a d placed]
      · simp [(added a new).2.2.2]
    · intro present
      by_cases old : sweep.distance a = none
      · exact extended.fresh a old present
      · rw [grown]
        exact List.mem_append_left _ ((invariant.known a).mpr old)
  · intro a member
    rw [grown, List.mem_append] at member
    rcases member with old | new
    · exact invariant.goals a old
    · exact Or.inr (added a new).2.1
  · intro a d placed
    by_cases old : sweep.distance a = none
    · have member := extended.fresh a old (by simp [placed])
      rw [grown, List.mem_append] at member
      rcases member with inOld | new
      · exact absurd old ((invariant.known a).mp inOld)
      · obtain ⟨met, _, _, there⟩ := added a new
        rw [there, Option.some.injEq] at placed
        subst placed
        obtain ⟨e, nodePlaced⟩ := Option.ne_none_iff_exists'.mp ((invariant.known node).mp nodeKnown)
        have depth : depthOf sweep node = e := by simp [depthOf, nodePlaced]
        rw [depth]
        exact ⟨node, invariant.sound node e nodePlaced, met⟩
    · obtain ⟨e, oldPlaced⟩ := Option.ne_none_iff_exists'.mp old
      rw [extended.kept a e oldPlaced, Option.some.injEq] at placed
      subst placed
      exact invariant.sound a e oldPlaced
  · intro position inside
    by_cases early : position < sweep.queue.length
    · have same : after.queue[position] = sweep.queue[position] := by simp [grown, List.getElem_append_left early]
      rw [same, oldDepth _ (List.getElem_mem early)]
      exact invariant.shallow position early
    · have later : after.queue[position] ∈ fresh := by
        simp only [grown]
        rw [List.getElem_append_right (by omega)]
        exact List.getElem_mem _
      rw [freshDepth _ later]
      have first := invariant.shallow head bound
      rw [atHead] at first
      omega
  · rw [grown, List.pairwise_append]
    refine ⟨?_, ?_, ?_⟩
    · refine invariant.ordered.imp_of_mem fun left right le => ?_
      rwa [oldDepth _ left, oldDepth _ right]
    · refine List.pairwise_of_forall_mem_list fun a left b right => ?_
      rw [freshDepth a left, freshDepth b right]
    · intro a old b new
      rw [oldDepth a old, freshDepth b new]
      exact below a old
  · intro a member b later
    have high : depthOf after a ≤ depthOf sweep node + 1 := by
      rw [grown, List.mem_append] at member
      rcases member with old | new
      · rw [oldDepth a old]
        exact below a old
      · rw [freshDepth a new]
    have low : depthOf sweep node ≤ depthOf after b := by
      rw [grown, List.drop_append_of_le_length (by omega), List.mem_append] at later
      rcases later with old | new
      · rw [oldDepth b (List.mem_of_mem_drop old)]
        exact beyond b old
      · rw [freshDepth b new]
        omega
    omega
  · intro a taken b edge
    rw [grown, List.take_append_of_le_length (by omega), List.take_succ_eq_append_getElem bound, atHead,
      List.mem_append, List.mem_singleton] at taken
    rcases taken with old | rfl
    · obtain ⟨d, placed, le⟩ := invariant.closed a old b edge
      refine ⟨d, extended.kept b d placed, ?_⟩
      rw [oldDepth a (List.mem_of_mem_take old)]
      exact le
    · obtain ⟨d, placed⟩ := Option.ne_none_iff_exists'.mp (extended.found b edge)
      refine ⟨d, placed, ?_⟩
      rw [oldDepth a nodeKnown]
      have inQueue : b ∈ after.queue := by
        by_cases old : sweep.distance b = none
        · exact extended.fresh b old (by simp [placed])
        · rw [grown]
          exact List.mem_append_left _ ((invariant.known b).mpr old)
      have depth : depthOf after b = d := by simp [depthOf, placed]
      rw [← depth]
      rw [grown, List.mem_append] at inQueue
      rcases inQueue with old | new
      · rw [oldDepth b old]
        exact below b old
      · rw [freshDepth b new]

variable (area : List α)

theorem invariant_inside (head : Nat) (sweep : Sweep α) (invariant : Invariant next goal source head sweep)
    (member : source ∈ area) (inside : ∀ a ∈ area, ∀ b ∈ next a, b ∈ area) :
    ∀ a ∈ sweep.queue, a ∈ area := by
  have reached : ∀ steps b, Reaches next steps source b → b ∈ area := by
    intro steps
    induction steps with
    | zero =>
        intro b walk
        have same : source = b := walk
        exact same ▸ member
    | succ steps ih =>
        rintro b ⟨middle, shorter, edge⟩
        exact inside middle (ih middle shorter) b edge
  intro a known
  obtain ⟨d, placed⟩ := Option.ne_none_iff_exists'.mp ((invariant.known a).mp known)
  exact reached d a (invariant.sound a d placed)

theorem queue_length_le (head : Nat) (sweep : Sweep α) (invariant : Invariant next goal source head sweep)
    (member : source ∈ area) (inside : ∀ a ∈ area, ∀ b ∈ next a, b ∈ area) :
    sweep.queue.length ≤ area.length :=
  (invariant.distinct.subperm (invariant_inside next goal source area head sweep invariant member inside)).length_le

-- The fuel never binds: the queue cannot outgrow the area.
theorem explore_exact (fuel head : Nat) (sweep : Sweep α) (invariant : Invariant next goal source head sweep)
    (member : source ∈ area) (inside : ∀ a ∈ area, ∀ b ∈ next a, b ∈ area) (enough : area.length ≤ head + fuel) :
    match explore next goal fuel head sweep with
    | .ok after => ∃ taken, after.queue.length ≤ taken ∧ Invariant next goal source taken after
    | .error hops => (∃ a, goal a = true ∧ Reaches next hops source a) ∧
        ∀ a, a ≠ source → goal a = true → ∀ steps, Reaches next steps source a → hops ≤ steps := by
  induction fuel generalizing head sweep with
  | zero =>
      have short := queue_length_le next goal source area head sweep invariant member inside
      exact ⟨head, by omega, invariant⟩
  | succ fuel ih =>
      rw [explore]
      cases taken : sweep.queue[head]? with
      | none => exact ⟨head, List.getElem?_eq_none_iff.mp taken, invariant⟩
      | some node =>
          cases visited : visit goal (depthOf sweep node + 1) (next node) sweep with
          | ok after =>
              have stepped := invariant_step next goal source head sweep after node invariant taken
                (visit_extends goal _ _ _ _ visited)
              have rest := ih (head + 1) after stepped (by omega)
              have unfolded : visit goal ((sweep.distance node).getD 0 + 1) (next node) sweep = .ok after := visited
              simpa only [bind, Except.bind, unfolded] using rest
          | error hops =>
              obtain ⟨eq, found, met, isGoal, _⟩ := visit_goal goal _ _ _ _ visited
              obtain ⟨d, placed⟩ := Option.ne_none_iff_exists'.mp
                ((invariant.known node).mp (List.mem_of_getElem? taken))
              have depth : depthOf sweep node = d := by simp [depthOf, placed]
              have answer : (∃ a, goal a = true ∧ Reaches next hops source a) ∧
                  ∀ a, a ≠ source → goal a = true → ∀ steps, Reaches next steps source a → hops ≤ steps := by
                refine ⟨⟨found, isGoal, ?_⟩, ?_⟩
                · rw [eq, depth]
                  exact ⟨node, invariant.sound node d placed, met⟩
                · intro a differ reached steps walk
                  by_contra shorter
                  obtain ⟨bound, atHead⟩ := List.getElem?_eq_some_iff.mp taken
                  have sorted := invariant.ordered.sublist (List.drop_sublist head sweep.queue)
                  rw [List.drop_eq_getElem_cons bound, atHead, List.pairwise_cons] at sorted
                  have far : ∀ b ∈ sweep.queue.drop head, depthOf sweep node ≤ depthOf sweep b := by
                    rw [List.drop_eq_getElem_cons bound, atHead]
                    intro b waiting
                    rcases List.mem_cons.mp waiting with rfl | later
                    · exact le_refl _
                    · exact sorted.1 b later
                  obtain ⟨e, known, _⟩ := invariant_reaches next goal source head sweep invariant _ far steps
                    (by omega) a walk
                  rcases invariant.goals a ((invariant.known a).mpr (by simp [known])) with same | other
                  · exact differ same
                  · simp [reached] at other
              have unfolded : visit goal ((sweep.distance node).getD 0 + 1) (next node) sweep = .error hops := visited
              simpa only [bind, Except.bind, unfolded] using answer

-- A search that ends without a goal knows the exact distance of everything it can reach.
theorem search_ok (nodes : Nat) (sweep : Sweep α) (member : source ∈ area)
    (inside : ∀ a ∈ area, ∀ b ∈ next a, b ∈ area) (enough : area.length ≤ nodes)
    (searched : search next goal nodes source = .ok sweep) :
    (∀ a d, sweep.distance a = some d → Reaches next d source a ∧ d < area.length) ∧
      (∀ a steps, Reaches next steps source a → ∃ d, sweep.distance a = some d ∧ d ≤ steps) ∧
      ∀ a steps, a ≠ source → Reaches next steps source a → goal a = false := by
  have outcome := explore_exact next goal source area nodes 0 (begin source)
    (begin_invariant next goal source) member inside (by omega)
  rw [search] at searched
  rw [searched] at outcome
  obtain ⟨taken, all, invariant⟩ := outcome
  have none : sweep.queue.drop taken = [] := List.drop_eq_nil_of_le all
  have known : ∀ a steps, Reaches next steps source a → ∃ d, sweep.distance a = some d ∧ d ≤ steps :=
    fun a steps walk => invariant_reaches next goal source taken sweep invariant steps (by simp [none]) steps
      (le_refl _) a walk
  refine ⟨fun a d placed => ⟨invariant.sound a d placed, ?_⟩, known, ?_⟩
  · have inQueue := (invariant.known a).mpr (by simp [placed])
    obtain ⟨position, bound, eq⟩ := List.getElem_of_mem inQueue
    have low := invariant.shallow position bound
    have short := queue_length_le next goal source area taken sweep invariant member inside
    rw [eq, depthOf, placed, Option.getD_some] at low
    omega
  · intro a steps differ walk
    obtain ⟨d, placed, _⟩ := known a steps walk
    rcases invariant.goals a ((invariant.known a).mpr (by simp [placed])) with same | other
    · exact absurd same differ
    · exact other

-- A search that meets a goal meets one of the nearest.
theorem search_goal (nodes hops : Nat) (member : source ∈ area)
    (inside : ∀ a ∈ area, ∀ b ∈ next a, b ∈ area) (enough : area.length ≤ nodes)
    (searched : search next goal nodes source = .error hops) :
    (∃ a, goal a = true ∧ Reaches next hops source a) ∧
      ∀ a, a ≠ source → goal a = true → ∀ steps, Reaches next steps source a → hops ≤ steps := by
  have outcome := explore_exact next goal source area nodes 0 (begin source)
    (begin_invariant next goal source) member inside (by omega)
  rw [search] at searched
  rwa [searched] at outcome

end Explore

end PathPlanner.Breadth

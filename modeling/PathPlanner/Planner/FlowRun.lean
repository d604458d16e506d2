import PathPlanner.Planner.FlowCut

set_option autoImplicit false

namespace PathPlanner.MaxFlow

-- What a search for an augmenting path from a node of a given depth does to the flow.
structure Pushed (level : Nat → Option Nat) (sink node depth limit : Nat) (before : Flow) (result : Nat × Flow) : Prop where
  shape : SameShape before.graph result.2.graph
  cut : ∀ inside : Nat → Bool, cutWeight inside result.2.graph + (if inside node then result.1 else 0) =
    cutWeight inside before.graph + if inside sink then result.1 else 0
  small : result.1 ≤ limit
  frame : ∀ other d, level other = some d → d < depth →
    arcs result.2.graph other = arcs before.graph other ∧ result.2.cursor other = before.cursor other
  idle : result.1 = 0 → result.2.graph = before.graph

variable {level : Nat → Option Nat} {sink : Nat}

theorem pushed_nothing (node depth limit : Nat) (before after : Flow) (same : after.graph = before.graph)
    (cursors : ∀ other d, level other = some d → d < depth → after.cursor other = before.cursor other) :
    Pushed level sink node depth limit before (0, after) := by
  refine ⟨?_, fun inside => by simp [same], Nat.zero_le _, fun other d known below => ⟨by simp [same], cursors other d known below⟩,
    fun _ => same⟩
  simp only [same]
  exact same_shape_refl _

theorem advance_cursor (flow : Flow) (node other : Nat) (differ : other ≠ node) :
    (advance flow node).cursor other = flow.cursor other := by
  simp [advance, Function.update_of_ne differ]

-- A step that left the graph alone and the cursors of the nodes above hands its start on.
theorem pushed_after (node depth limit : Nat) (before middle : Flow) (result : Nat × Flow)
    (same : middle.graph = before.graph)
    (cursors : ∀ other d, level other = some d → d < depth → middle.cursor other = before.cursor other)
    (later : Pushed level sink node depth limit middle result) : Pushed level sink node depth limit before result := by
  refine ⟨same ▸ later.shape, fun inside => same ▸ later.cut inside, later.small, fun other d known below => ?_,
    fun none => (later.idle none).trans same⟩
  have facts := later.frame other d known below
  exact ⟨by rw [facts.1, same], facts.2.trans (cursors other d known below)⟩

theorem scan_pushed (descend : Nat → Nat → Flow → Nat × Flow) (node depth limit : Nat) (here : level node = some depth)
    (positive : 0 < limit)
    (deeper : ∀ child bound flow, Paired flow.graph → 0 < bound → level child = some (depth + 1) →
      Pushed level sink child (depth + 1) bound flow (descend child bound flow))
    (left : Nat) (flow : Flow) (paired : Paired flow.graph) :
    Pushed level sink node depth limit flow (scan level descend node limit left flow) := by
  have apart : ∀ other d, level other = some d → d < depth → other ≠ node := by
    rintro other d known below rfl
    rw [here, Option.some.injEq] at known
    omega
  induction left generalizing flow with
  | zero => exact pushed_nothing node depth limit flow flow rfl fun _ _ _ _ => rfl
  | succ left ih =>
      rw [scan]
      cases stored : (arcs flow.graph node)[flow.cursor node]? with
      | none => exact pushed_nothing node depth limit flow flow rfl fun _ _ _ _ => rfl
      | some arc =>
          dsimp only
          by_cases dead : arc.capacity = 0 ∨ level arc.target ≠ (level node).map (· + 1)
          · rw [if_pos dead]
            exact pushed_after node depth limit flow (advance flow node) _ rfl (fun other d known below =>
              advance_cursor flow node other (apart other d known below)) (ih (advance flow node) paired)
          · rw [if_neg dead]
            obtain ⟨capacity, next⟩ := not_or.mp dead
            have child : level arc.target = some (depth + 1) := by
              simpa [here] using not_not.mp next
            have sent := deeper arc.target (min limit arc.capacity) flow paired (by omega) child
            generalize descend arc.target (min limit arc.capacity) flow = outcome at sent
            obtain ⟨amount, after⟩ := outcome
            dsimp only at sent ⊢
            have same := sent.frame node depth here (Nat.lt_succ_self depth)
            dsimp only at same
            have kept : (arcs after.graph node)[after.cursor node]? = some arc := by rw [same.1, same.2]; exact stored
            have differ : arc.target ≠ node := by
              intro eq
              rw [eq, here, Option.some.injEq] at child
              omega
            by_cases gained : amount > 0
            · rw [if_pos gained]
              have small := sent.small
              dsimp only at small
              have pairedAfter := paired_same _ _ sent.shape paired
              obtain ⟨targetBound, _⟩ := pairedAfter node _ arc kept
              have bound := arcs_bound after.graph node _ arc kept
              refine ⟨same_shape_trans _ _ _ sent.shape (push_shape after node _ arc amount bound targetBound), ?_,
                by dsimp only; omega, ?_, fun none => absurd none (by dsimp only; omega)⟩
              · intro inside
                have moved := push_cut inside after node (after.cursor node) arc amount pairedAfter kept differ (by omega)
                have carried := sent.cut inside
                dsimp only at carried ⊢
                cases a : inside node <;> cases b : inside arc.target <;>
                  simp only [a, b, Bool.and_false, Bool.and_true, Bool.not_false, Bool.not_true, Bool.false_eq_true,
                    if_true, if_false] at moved carried ⊢ <;> omega
              · intro other d known below
                have facts := sent.frame other d known (by omega)
                dsimp only at facts ⊢
                refine ⟨?_, facts.2⟩
                rw [← facts.1]
                unfold push
                dsimp only
                have otherTarget : other ≠ arc.target := by
                  rintro rfl
                  rw [child, Option.some.injEq] at known
                  omega
                rw [arcs_modify _ _ _ _ (by rw [List.length_modify]; exact targetBound), if_neg otherTarget,
                  arcs_modify _ _ _ _ bound, if_neg (apart other d known below)]
            · rw [if_neg gained]
              have none : amount = 0 := by omega
              have idle := sent.idle none
              dsimp only at idle
              refine pushed_after node depth limit flow (advance after node) _ idle (fun other d known below => ?_)
                (ih (advance after node) (show Paired after.graph from idle ▸ paired))
              rw [advance_cursor after node other (apart other d known below)]
              exact (sent.frame other d known (by omega)).2

theorem augment_pushed (steps node depth limit : Nat) (here : level node = some depth) (positive : 0 < limit) (flow : Flow)
    (paired : Paired flow.graph) : Pushed level sink node depth limit flow (augment level sink steps node limit flow) := by
  have arrived : ∀ steps, node = sink → Pushed level sink node depth limit flow (augment level sink steps node limit flow) := by
    intro steps same
    unfold augment
    rw [if_pos same]
    exact ⟨same_shape_refl _, fun inside => by rw [same], le_refl _, fun _ _ _ _ => ⟨rfl, rfl⟩, fun _ => rfl⟩
  induction steps generalizing node depth limit flow with
  | zero =>
      by_cases same : node = sink
      · exact arrived 0 same
      · unfold augment
        rw [if_neg same]
        exact pushed_nothing node depth limit flow flow rfl fun _ _ _ _ => rfl
  | succ steps ih =>
      by_cases same : node = sink
      · exact arrived (steps + 1) same
      · unfold augment
        rw [if_neg same]
        refine scan_pushed _ node depth limit here positive (fun child bound flow paired positive known => ?_) _ flow paired
        refine ih child (depth + 1) bound known positive flow paired fun steps same => ?_
        unfold augment
        rw [if_pos same]
        exact ⟨same_shape_refl _, fun inside => by rw [same], le_refl _, fun _ _ _ _ => ⟨rfl, rfl⟩, fun _ => rfl⟩

-- One step of a path that rises by one level along residual capacity.
def Admissible (level : Nat → Option Nat) (graph : FlowGraph) (node next : Nat) : Prop :=
  ∃ (position : Nat) (arc : Arc), (arcs graph node)[position]? = some arc ∧ arc.capacity ≠ 0 ∧ arc.target = next ∧
    level next = (level node).map (· + 1)

def Blocked (level : Nat → Option Nat) (sink : Nat) (graph : FlowGraph) (node : Nat) : Prop :=
  ¬ Relation.ReflTransGen (Admissible level graph) node sink

-- No arc a cursor has passed starts such a path.
def CursorsDead (level : Nat → Option Nat) (sink : Nat) (flow : Flow) : Prop :=
  ∀ (node position : Nat) (arc : Arc), position < flow.cursor node → (arcs flow.graph node)[position]? = some arc →
    arc.capacity = 0 ∨ level arc.target ≠ (level node).map (· + 1) ∨ Blocked level sink flow.graph arc.target

theorem all_dead_blocked (flow : Flow) (node : Nat) (dead : CursorsDead level sink flow) (differ : node ≠ sink)
    (passed : (arcs flow.graph node).length ≤ flow.cursor node) : Blocked level sink flow.graph node := by
  intro reaches
  rcases Relation.ReflTransGen.cases_head reaches with same | ⟨next, ⟨position, arc, stored, capacity, rfl, rises⟩, rest⟩
  · exact differ same
  · obtain ⟨bound, _⟩ := List.getElem?_eq_some_iff.mp stored
    rcases dead node position arc (by omega) stored with empty | flat | blocked
    · exact capacity empty
    · exact flat rises
    · exact blocked rest

theorem advance_dead (flow : Flow) (node : Nat) (arc : Arc) (stored : (arcs flow.graph node)[flow.cursor node]? = some arc)
    (dead : CursorsDead level sink flow)
    (passed : arc.capacity = 0 ∨ level arc.target ≠ (level node).map (· + 1) ∨ Blocked level sink flow.graph arc.target) :
    CursorsDead level sink (advance flow node) := by
  intro other position probe before found
  have graphSame : (advance flow node).graph = flow.graph := rfl
  rw [graphSame] at found ⊢
  by_cases same : other = node
  · subst same
    have cursorIs : (advance flow other).cursor other = flow.cursor other + 1 := by simp [advance]
    rw [cursorIs] at before
    by_cases last : position = flow.cursor other
    · subst last
      rw [stored, Option.some.injEq] at found
      exact found ▸ passed
    · exact dead other position probe (by omega) found
  · rw [advance_cursor flow node other same] at before
    exact dead other position probe before found

theorem scan_blocked (descend : Nat → Nat → Flow → Nat × Flow) (node depth limit : Nat) (here : level node = some depth)
    (positive : 0 < limit) (differ : node ≠ sink)
    (deeper : ∀ child bound flow, Paired flow.graph → 0 < bound → level child = some (depth + 1) →
      Pushed level sink child (depth + 1) bound flow (descend child bound flow))
    (fails : ∀ child bound flow, Paired flow.graph → 0 < bound → level child = some (depth + 1) →
      CursorsDead level sink flow → (descend child bound flow).1 = 0 →
      CursorsDead level sink (descend child bound flow).2 ∧ Blocked level sink flow.graph child)
    (left : Nat) (flow : Flow) (paired : Paired flow.graph) (dead : CursorsDead level sink flow)
    (all : (arcs flow.graph node).length ≤ flow.cursor node + left)
    (failed : (scan level descend node limit left flow).1 = 0) :
    CursorsDead level sink (scan level descend node limit left flow).2 ∧ Blocked level sink flow.graph node := by
  induction left generalizing flow with
  | zero => exact ⟨dead, all_dead_blocked flow node dead differ all⟩
  | succ left ih =>
      rw [scan] at failed ⊢
      cases stored : (arcs flow.graph node)[flow.cursor node]? with
      | none => exact ⟨dead, all_dead_blocked flow node dead differ (List.getElem?_eq_none_iff.mp stored)⟩
      | some arc =>
          rw [stored] at failed
          dsimp only at failed ⊢
          by_cases useless : arc.capacity = 0 ∨ level arc.target ≠ (level node).map (· + 1)
          · rw [if_pos useless] at failed ⊢
            have passed := advance_dead flow node arc stored dead (useless.imp id Or.inl)
            exact ih (advance flow node) paired passed (by simp only [advance, Function.update_self]; omega) failed
          · rw [if_neg useless] at failed ⊢
            obtain ⟨capacity, next⟩ := not_or.mp useless
            have child : level arc.target = some (depth + 1) := by simpa [here] using not_not.mp next
            have sent := deeper arc.target (min limit arc.capacity) flow paired (by omega) child
            have missed := fails arc.target (min limit arc.capacity) flow paired (by omega) child dead
            generalize descend arc.target (min limit arc.capacity) flow = outcome at sent missed failed
            obtain ⟨amount, after⟩ := outcome
            dsimp only at sent missed failed ⊢
            by_cases gained : amount > 0
            · rw [if_pos gained] at failed
              dsimp only at failed
              omega
            · rw [if_neg gained] at failed ⊢
              have none : amount = 0 := by omega
              obtain ⟨afterDead, blocked⟩ := missed none
              have idle := sent.idle none
              have same := sent.frame node depth here (Nat.lt_succ_self depth)
              dsimp only at idle same
              have kept : (arcs after.graph node)[after.cursor node]? = some arc := by rw [same.1, same.2]; exact stored
              have passed := advance_dead after node arc kept afterDead (Or.inr (Or.inr (idle ▸ blocked)))
              have rest := ih (advance after node) (show Paired after.graph from idle ▸ paired) passed
                (by
                  simp only [advance, Function.update_self]
                  rw [same.1, same.2]
                  omega) failed
              exact ⟨rest.1, idle ▸ rest.2⟩

-- The depth bound never cuts a search short, so a search that fails has seen every path.
theorem augment_blocked (nodes : Nat) (shallow : ∀ node d, level node = some d → d < nodes) (steps node depth limit : Nat)
    (here : level node = some depth) (positive : 0 < limit) (enough : nodes ≤ depth + steps) (flow : Flow)
    (paired : Paired flow.graph) (dead : CursorsDead level sink flow)
    (failed : (augment level sink steps node limit flow).1 = 0) :
    CursorsDead level sink (augment level sink steps node limit flow).2 ∧ Blocked level sink flow.graph node := by
  induction steps generalizing node depth limit flow with
  | zero =>
      have := shallow node depth here
      omega
  | succ steps ih =>
      unfold augment at failed ⊢
      by_cases same : node = sink
      · rw [if_pos same] at failed
        dsimp only at failed
        omega
      · rw [if_neg same] at failed ⊢
        exact scan_blocked _ node depth limit here positive same
          (fun child bound flow paired positive known => augment_pushed steps child (depth + 1) bound known positive flow paired)
          (fun child bound flow paired positive known dead failed =>
            ih child (depth + 1) bound known positive (by omega) flow paired dead failed)
          _ flow paired dead (by omega) failed

end PathPlanner.MaxFlow

import PathPlanner.Planner.MaxFlow

set_option autoImplicit false

namespace PathPlanner.MaxFlow

-- The residual capacity that leaves a set of nodes.
def arcCut (inside : Nat → Bool) (node : Nat) (arc : Arc) : Nat :=
  if inside node && !inside arc.target then arc.capacity else 0

def nodeCut (inside : Nat → Bool) (node : Nat) (list : List Arc) : Nat := (list.map (arcCut inside node)).sum

def cutWeight (inside : Nat → Bool) (graph : FlowGraph) : Nat :=
  ∑ node ∈ Finset.range graph.length, nodeCut inside node (arcs graph node)

theorem sum_modify {α : Type} (weight : α → Nat) (change : α → α) (list : List α) (position : Nat) (item : α)
    (stored : list[position]? = some item) :
    ((list.modify position change).map weight).sum + weight item = (list.map weight).sum + weight (change item) := by
  induction list generalizing position with
  | nil => simp at stored
  | cons head tail ih =>
      cases position with
      | zero =>
          simp only [List.getElem?_cons_zero, Option.some.injEq] at stored
          subst stored
          simp only [List.modify_zero_cons, List.map_cons, List.sum_cons]
          omega
      | succ position =>
          have rest := ih position (by simpa using stored)
          simp only [List.modify_succ_cons, List.map_cons, List.sum_cons]
          omega

theorem arcs_modify (graph : FlowGraph) (node other : Nat) (change : List Arc → List Arc) (bound : node < graph.length) :
    arcs (graph.modify node change) other = if other = node then change (arcs graph node) else arcs graph other := by
  unfold arcs
  by_cases same : other = node
  · subst same
    simp [List.getD_eq_getElem?_getD, bound]
  · rw [if_neg same, List.getD_eq_getElem?_getD, List.getD_eq_getElem?_getD, List.getElem?_modify_ne _ _ (Ne.symm same)]

theorem arcs_bound (graph : FlowGraph) (node position : Nat) (arc : Arc) (stored : (arcs graph node)[position]? = some arc) :
    node < graph.length := by
  by_contra outside
  have nothing : arcs graph node = [] := by
    unfold arcs
    rw [List.getD_eq_getElem?_getD, List.getElem?_eq_none (not_lt.mp outside), Option.getD_none]
  simp [nothing] at stored

theorem cut_modify (inside : Nat → Bool) (graph : FlowGraph) (node position : Nat) (arc : Arc) (change : Arc → Arc)
    (stored : (arcs graph node)[position]? = some arc) :
    cutWeight inside (graph.modify node fun list => list.modify position change) + arcCut inside node arc =
      cutWeight inside graph + arcCut inside node (change arc) := by
  have bound := arcs_bound graph node position arc stored
  have member : node ∈ Finset.range graph.length := Finset.mem_range.mpr bound
  unfold cutWeight
  rw [List.length_modify, ← Finset.add_sum_erase _ _ member, ← Finset.add_sum_erase _ _ member]
  have others : ∑ other ∈ (Finset.range graph.length).erase node,
        nodeCut inside other (arcs (graph.modify node fun list => list.modify position change) other) =
      ∑ other ∈ (Finset.range graph.length).erase node, nodeCut inside other (arcs graph other) := by
    refine Finset.sum_congr rfl fun other listed => ?_
    rw [arcs_modify graph node other _ bound, if_neg (Finset.ne_of_mem_erase listed)]
  have here := sum_modify (arcCut inside node) change (arcs graph node) position arc stored
  rw [others, arcs_modify graph node node _ bound, if_pos rfl]
  unfold nodeCut
  omega

-- Every arc's partner leads back to the arc's own node.
def Paired (graph : FlowGraph) : Prop :=
  ∀ (node position : Nat) (arc : Arc), (arcs graph node)[position]? = some arc → arc.target < graph.length ∧
    ∃ back, (arcs graph arc.target)[arc.reverse]? = some back ∧ back.target = node

def shape (arc : Arc) : Nat × Nat := (arc.target, arc.reverse)

-- Same arcs up to their capacities.
def SameShape (before after : FlowGraph) : Prop :=
  after.length = before.length ∧
    ∀ node position : Nat, ((arcs after node)[position]?).map shape = ((arcs before node)[position]?).map shape

theorem same_shape_refl (graph : FlowGraph) : SameShape graph graph := ⟨rfl, fun _ _ => rfl⟩

theorem same_shape_trans (first second third : FlowGraph) (left : SameShape first second) (right : SameShape second third) :
    SameShape first third :=
  ⟨right.1.trans left.1, fun node position => (right.2 node position).trans (left.2 node position)⟩

theorem same_shape_arc (before after : FlowGraph) (same : SameShape before after) (node position : Nat) (arc : Arc)
    (stored : (arcs before node)[position]? = some arc) :
    ∃ other, (arcs after node)[position]? = some other ∧ other.target = arc.target ∧ other.reverse = arc.reverse := by
  have eq := same.2 node position
  rw [stored, Option.map_some] at eq
  obtain ⟨other, found, pair⟩ := Option.map_eq_some_iff.mp eq
  exact ⟨other, found, congrArg Prod.fst pair, congrArg Prod.snd pair⟩

theorem same_shape_back (before after : FlowGraph) (same : SameShape before after) : SameShape after before :=
  ⟨same.1.symm, fun node position => (same.2 node position).symm⟩

theorem paired_same (before after : FlowGraph) (same : SameShape before after) (paired : Paired before) : Paired after := by
  intro node position arc stored
  obtain ⟨old, oldStored, target, reverse⟩ := same_shape_arc after before (same_shape_back _ _ same) node position arc stored
  obtain ⟨bound, back, backStored, returns⟩ := paired node position old oldStored
  obtain ⟨fresh, freshStored, freshTarget, _⟩ := same_shape_arc before after same _ _ back backStored
  rw [target, reverse] at freshStored
  refine ⟨?_, fresh, freshStored, freshTarget.trans returns⟩
  rw [same.1, ← target]
  exact bound

theorem modify_same_shape (graph : FlowGraph) (node position : Nat) (change : Arc → Arc) (bound : node < graph.length)
    (keeps : ∀ arc, shape (change arc) = shape arc) :
    SameShape graph (graph.modify node fun list => list.modify position change) := by
  refine ⟨List.length_modify _ _ _, fun other place => ?_⟩
  rw [arcs_modify graph node other _ bound]
  by_cases same : other = node
  · subst same
    rw [if_pos rfl]
    by_cases here : position = place
    · subst here
      rw [List.getElem?_modify_eq]
      cases (arcs graph other)[position]? with
      | none => rfl
      | some arc => simp [keeps arc]
    · rw [List.getElem?_modify_ne _ _ here]
  · rw [if_neg same]

theorem push_shape (flow : Flow) (node position : Nat) (arc : Arc) (pushed : Nat) (bound : node < flow.graph.length)
    (targetBound : arc.target < flow.graph.length) : SameShape flow.graph (push flow node position arc pushed).graph :=
  same_shape_trans _ _ _
    (modify_same_shape flow.graph node position (fun arc => { arc with capacity := arc.capacity - pushed }) bound
      fun _ => rfl)
    (modify_same_shape _ arc.target arc.reverse (fun arc => { arc with capacity := arc.capacity + pushed })
      (by rw [List.length_modify]; exact targetBound) fun _ => rfl)

-- Pushing along an arc moves what crosses a cut by what is pushed, in the arc's direction.
theorem push_cut (inside : Nat → Bool) (flow : Flow) (node position : Nat) (arc : Arc) (pushed : Nat)
    (paired : Paired flow.graph) (stored : (arcs flow.graph node)[position]? = some arc) (differ : arc.target ≠ node)
    (room : pushed ≤ arc.capacity) :
    cutWeight inside (push flow node position arc pushed).graph +
        (if inside node && !inside arc.target then pushed else 0) =
      cutWeight inside flow.graph + if inside arc.target && !inside node then pushed else 0 := by
  obtain ⟨_, back, backStored, returns⟩ := paired node position arc stored
  have bound := arcs_bound flow.graph node position arc stored
  have lowered := cut_modify inside flow.graph node position arc
    (fun arc => { arc with capacity := arc.capacity - pushed }) stored
  have backAfter : (arcs (flow.graph.modify node fun list =>
      list.modify position fun arc => { arc with capacity := arc.capacity - pushed }) arc.target)[arc.reverse]? = some back := by
    rw [arcs_modify flow.graph node arc.target _ bound, if_neg differ]
    exact backStored
  have raised := cut_modify inside _ arc.target arc.reverse back
    (fun arc => { arc with capacity := arc.capacity + pushed }) backAfter
  simp only [arcCut, returns] at lowered raised
  unfold push
  dsimp only
  cases here : inside node <;> cases there : inside arc.target <;>
    simp only [here, there, Bool.and_false, Bool.and_true, Bool.not_false, Bool.not_true, Bool.false_eq_true, if_true,
      if_false] at lowered raised ⊢ <;> omega

end PathPlanner.MaxFlow

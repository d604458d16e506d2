import PathPlanner.Planner.FlowRun

set_option autoImplicit false

namespace PathPlanner.MaxFlow

theorem residual_mem (graph : FlowGraph) (node next : Nat) : next ∈ residual graph node ↔
    ∃ (position : Nat) (arc : Arc), (arcs graph node)[position]? = some arc ∧ arc.capacity ≠ 0 ∧ arc.target = next := by
  simp only [residual, List.mem_map, List.mem_filter, decide_eq_true_eq]
  constructor
  · rintro ⟨arc, ⟨member, capacity⟩, rfl⟩
    obtain ⟨position, stored⟩ := List.mem_iff_getElem?.mp member
    exact ⟨position, arc, stored, by omega, rfl⟩
  · rintro ⟨position, arc, stored, capacity, rfl⟩
    exact ⟨arc, ⟨List.mem_of_getElem? stored, by omega⟩, rfl⟩

theorem levels_exact (graph : FlowGraph) (source : Nat) (paired : Paired graph) (bound : source < graph.length) :
    (∀ node d, levels graph source node = some d → Breadth.Reaches (residual graph) d source node ∧ d < graph.length) ∧
      ∀ node steps, Breadth.Reaches (residual graph) steps source node → ∃ d, levels graph source node = some d ∧ d ≤ steps := by
  have member : source ∈ List.range graph.length := List.mem_range.mpr bound
  have inside : ∀ a ∈ List.range graph.length, ∀ b ∈ residual graph a, b ∈ List.range graph.length := by
    intro a _ b next
    obtain ⟨position, arc, stored, _, rfl⟩ := (residual_mem graph a b).mp next
    exact List.mem_range.mpr (paired a position arc stored).1
  have enough : (List.range graph.length).length ≤ graph.length := by simp
  unfold levels
  cases searched : Breadth.search (residual graph) (fun _ => false) graph.length source with
  | error hops =>
      obtain ⟨⟨_, goal, _⟩, _⟩ := Breadth.search_goal _ _ source _ graph.length hops member inside enough searched
      simp at goal
  | ok sweep =>
      obtain ⟨sound, known, _⟩ := Breadth.search_ok _ _ source _ graph.length sweep member inside enough searched
      exact ⟨fun node d placed => by simpa using sound node d placed, known⟩

-- A levelled node is reached along a path that rises at every step.
theorem level_rises (graph : FlowGraph) (source : Nat) (paired : Paired graph) (bound : source < graph.length) (d node : Nat)
    (placed : levels graph source node = some d) :
    Relation.ReflTransGen (Admissible (levels graph source) graph) source node := by
  obtain ⟨sound, known⟩ := levels_exact graph source paired bound
  induction d generalizing node with
  | zero =>
      have same : source = node := (sound node 0 placed).1
      exact same ▸ Relation.ReflTransGen.refl
  | succ d ih =>
      obtain ⟨middle, walk, next⟩ := (sound node (d + 1) placed).1
      obtain ⟨position, arc, stored, capacity, rfl⟩ := (residual_mem graph middle node).mp next
      obtain ⟨e, middlePlaced, short⟩ := known middle d walk
      obtain ⟨f, nodePlaced, later⟩ := known arc.target (e + 1)
        ⟨middle, (sound middle e middlePlaced).1, (residual_mem graph middle arc.target).mpr ⟨position, arc, stored, capacity, rfl⟩⟩
      have depths : f = d + 1 := Option.some.inj (nodePlaced.symm.trans placed)
      have exactly : e = d := by omega
      subst exactly
      exact (ih middle middlePlaced).tail ⟨position, arc, stored, capacity, rfl, by rw [placed, middlePlaced]; rfl⟩

theorem level_source (graph : FlowGraph) (source : Nat) (paired : Paired graph) (bound : source < graph.length) :
    levels graph source source = some 0 := by
  obtain ⟨d, placed, short⟩ := (levels_exact graph source paired bound).2 source 0 rfl
  rw [placed, Nat.le_zero.mp short]

-- The first search of a phase that can reach the sink finds a path.
theorem phase_augments (graph : FlowGraph) (source sink limit d : Nat) (paired : Paired graph) (bound : source < graph.length)
    (positive : 0 < limit) (reached : levels graph source sink = some d) :
    (augment (levels graph source) sink graph.length source limit ⟨graph, fun _ => 0⟩).1 ≠ 0 := by
  intro failed
  have fresh : CursorsDead (levels graph source) sink ⟨graph, fun _ => 0⟩ :=
    fun _ _ _ passed => absurd passed (Nat.not_lt_zero _)
  have blocked := (augment_blocked graph.length (fun node d placed => ((levels_exact graph source paired bound).1 node d placed).2)
    graph.length source 0 limit (level_source graph source paired bound) positive (by omega) ⟨graph, fun _ => 0⟩ paired fresh
    failed).2
  exact blocked (level_rises graph source paired bound d sink reached)

-- What augmenting does to the total and to every cut between source and sink.
structure Gained (source sink limit total : Nat) (before : FlowGraph) (result : Nat × FlowGraph) : Prop where
  shape : SameShape before result.2
  cut : ∀ inside : Nat → Bool, inside source = true → inside sink = false →
    cutWeight inside result.2 + result.1 = cutWeight inside before + total
  grows : total ≤ result.1
  small : total ≤ limit → result.1 ≤ limit

variable (source sink limit : Nat)

theorem gained_nothing (total : Nat) (graph : FlowGraph) : Gained source sink limit total graph (total, graph) :=
  ⟨same_shape_refl _, fun _ _ _ => rfl, le_refl _, id⟩

theorem gained_trans (total : Nat) (before : FlowGraph) (middle result : Nat × FlowGraph)
    (first : Gained source sink limit total before middle) (second : Gained source sink limit middle.1 middle.2 result) :
    Gained source sink limit total before result := by
  refine ⟨same_shape_trans _ _ _ first.shape second.shape, fun inside within without => ?_, first.grows.trans second.grows,
    fun room => second.small (first.small room)⟩
  have left := first.cut inside within without
  have right := second.cut inside within without
  omega

theorem augment_gained (level : Nat → Option Nat) (steps total : Nat) (here : level source = some 0) (missing : total < limit)
    (flow : Flow) (paired : Paired flow.graph) :
    Gained source sink limit total flow.graph
      (total + (augment level sink steps source (limit - total) flow).1, (augment level sink steps source (limit - total) flow).2.graph) := by
  have pushed := @augment_pushed level sink steps source 0 (limit - total) here (by omega) flow paired
  refine ⟨pushed.shape, fun inside within without => ?_, Nat.le_add_right _ _, fun _ => ?_⟩
  · have moved := pushed.cut inside
    simp only [within, without, if_true, Bool.false_eq_true, if_false] at moved
    dsimp only
    omega
  · have small := pushed.small
    dsimp only
    omega

theorem augment_all_gained (level : Nat → Option Nat) (here : level source = some 0) (rounds total : Nat) (flow : Flow)
    (paired : Paired flow.graph) :
    Gained source sink limit total flow.graph
      ((augmentAll level source sink limit rounds total flow).1, (augmentAll level source sink limit rounds total flow).2.graph) := by
  induction rounds generalizing total flow with
  | zero => exact gained_nothing source sink limit total flow.graph
  | succ rounds ih =>
      rw [augmentAll]
      by_cases full : total ≥ limit
      · rw [if_pos full]
        exact gained_nothing source sink limit total flow.graph
      · rw [if_neg full]
        dsimp only
        have first := augment_gained source sink limit level flow.graph.length total here (by omega) flow paired
        by_cases stuck : (augment level sink flow.graph.length source (limit - total) flow).1 = 0
        · rw [if_pos stuck]
          rwa [stuck, Nat.add_zero] at first
        · rw [if_neg stuck]
          exact gained_trans source sink limit total flow.graph _ _ first (ih _ _ (paired_same _ _ first.shape paired))

theorem augment_all_grows (graph : FlowGraph) (rounds total d : Nat) (paired : Paired graph) (bound : source < graph.length)
    (missing : total < limit) (left : 0 < rounds) (reached : levels graph source sink = some d) :
    total < (augmentAll (levels graph source) source sink limit rounds total ⟨graph, fun _ => 0⟩).1 := by
  obtain ⟨rounds, rfl⟩ := Nat.exists_eq_succ_of_ne_zero (Nat.pos_iff_ne_zero.mp left)
  have here := level_source graph source paired bound
  have found := phase_augments graph source sink (limit - total) d paired bound (by omega) reached
  have first := augment_gained source sink limit (levels graph source) graph.length total here missing ⟨graph, fun _ => 0⟩ paired
  rw [augmentAll, if_neg (by omega)]
  dsimp only
  rw [if_neg found]
  generalize augment (levels graph source) sink graph.length source (limit - total) ⟨graph, fun _ => 0⟩ = outcome at found first
  obtain ⟨pushed, flow⟩ := outcome
  have grown := (augment_all_gained source sink limit (levels graph source) here rounds (total + pushed) flow
    (paired_same _ _ first.shape paired)).grows
  dsimp only at found grown ⊢
  omega

-- A run that stays below its limit ends with a cut nothing crosses.
def Saturated (graph : FlowGraph) : Prop :=
  ∃ inside : Nat → Bool, inside source = true ∧ inside sink = false ∧ cutWeight inside graph = 0

theorem unreached_saturated (graph : FlowGraph) (paired : Paired graph) (bound : source < graph.length)
    (unreached : levels graph source sink = none) : Saturated source sink graph := by
  obtain ⟨sound, known⟩ := levels_exact graph source paired bound
  refine ⟨fun node => (levels graph source node).isSome, by simp [level_source graph source paired bound], by simp [unreached], ?_⟩
  refine Finset.sum_eq_zero fun node _ => List.sum_eq_zero fun weight listed => ?_
  obtain ⟨arc, member, rfl⟩ := List.mem_map.mp listed
  obtain ⟨position, stored⟩ := List.mem_iff_getElem?.mp member
  unfold arcCut
  by_cases crosses : ((levels graph source node).isSome && !(levels graph source arc.target).isSome) = true
  · rw [if_pos crosses]
    simp only [Bool.and_eq_true, Bool.not_eq_true', Option.isSome_iff_exists] at crosses
    obtain ⟨⟨d, placed⟩, missing⟩ := crosses
    by_contra capacity
    obtain ⟨e, known, _⟩ := known arc.target (d + 1)
      ⟨node, (sound node d placed).1, (residual_mem graph node arc.target).mpr ⟨position, arc, stored, capacity, rfl⟩⟩
    simp [known] at missing
  · rw [if_neg crosses]

theorem phases_exact (rounds total : Nat) (graph : FlowGraph) (paired : Paired graph) (bound : source < graph.length)
    (enough : limit ≤ total + rounds) :
    Gained source sink limit total graph (phases source sink limit rounds total graph) ∧
      ((phases source sink limit rounds total graph).1 < limit →
        Saturated source sink (phases source sink limit rounds total graph).2) := by
  induction rounds generalizing total graph with
  | zero => exact ⟨gained_nothing source sink limit total graph, fun low => absurd enough (by simpa [phases] using low)⟩
  | succ rounds ih =>
      rw [phases]
      by_cases full : total ≥ limit
      · rw [if_pos full]
        exact ⟨gained_nothing source sink limit total graph, fun low => absurd full (by simpa using low)⟩
      · rw [if_neg full]
        dsimp only
        cases reached : levels graph source sink with
        | none =>
            exact ⟨gained_nothing source sink limit total graph,
              fun _ => unreached_saturated source sink graph paired bound reached⟩
        | some d =>
            have grown := augment_all_grows source sink limit graph (limit - total) total d paired bound (by omega) (by omega) reached
            have first := augment_all_gained source sink limit (levels graph source) (level_source graph source paired bound)
              (limit - total) total ⟨graph, fun _ => 0⟩ paired
            generalize augmentAll (levels graph source) source sink limit (limit - total) total ⟨graph, fun _ => 0⟩ = outcome
              at grown first ⊢
            have rest := ih outcome.1 outcome.2.graph (paired_same _ _ first.shape paired) (first.shape.1 ▸ bound) (by omega)
            exact ⟨gained_trans source sink limit total graph _ _ first rest.1, rest.2⟩

-- Maximum flow, minimum cut: a value below the limit is the weight of some cut of the graph it started from.
theorem run_certificate (graph : FlowGraph) (paired : Paired graph) (bound : source < graph.length)
    (low : run graph source sink limit < limit) :
    ∃ inside : Nat → Bool, inside source = true ∧ inside sink = false ∧ cutWeight inside graph = run graph source sink limit := by
  obtain ⟨gained, saturated⟩ := phases_exact source sink limit limit 0 graph paired bound (by omega)
  obtain ⟨inside, within, without, empty⟩ := saturated low
  have cut := gained.cut inside within without
  exact ⟨inside, within, without, by unfold run; omega⟩

end PathPlanner.MaxFlow

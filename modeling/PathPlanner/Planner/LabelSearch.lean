import PathPlanner.Planner.CandidateSound
import PathPlanner.Planner.Search

set_option autoImplicit false

namespace PathPlanner

open Sequence Mapping Walk

theorem saturating_sum_snoc (values : List Nat) (value : Nat) :
    saturatingSum (values ++ [value]) = saturatingAdd (saturatingSum values) value kCostCeiling := by
  simp [saturatingSum]

theorem saturating_add_mono (a b value : Nat) (le : a ≤ b) :
    saturatingAdd a value kCostCeiling ≤ saturatingAdd b value kCostCeiling := by
  rw [saturating_add_clamps, saturating_add_clamps]
  exact Clamped.clamp_add_mono _ _ _ _ _ le (le_refl value)

namespace ShortestPath

-- One search: the blocks it respects, the bindings it serves and the nodes it joins.
structure Query where
  blocks : BlockSet
  sourceBinding : EndpointBinding
  targetBinding : EndpointBinding
  source : NodeIndex
  target : NodeIndex

variable (state : PlannerState) (query : Query)

structure Usable (index : EdgeIndex) : Prop where
  stored : index < state.fabric.edges.length
  passes : ∃ next, state.fabric.nodeIndex (headOf state.request index) = some next ∧
    hopUsable state query.blocks query.sourceBinding query.targetBinding index next = true

-- A walk the search may take, within its two limits.
structure OpenWalk (start finish : NodeId) (route : Route) : Prop where
  walk : IsWalk (tailOf state.request) (headOf state.request) start route finish
  usable : ∀ index ∈ route, Usable state query index
  hops : route.length ≤ state.hopLimit
  cost : routeCost state.request route ≤ state.policy.maxPathCost

-- How a key was reached: from a key one hop earlier, over a usable edge, at no higher cost.
structure Link (dist : StateKey → Option Nat) (key : StateKey) (cost : Nat) (before : StateKey) (index : EdgeIndex) : Prop where
  hops : before.2 + 1 = key.2
  leaves : state.fabric.nodeIndex (tailOf state.request index) = some before.1
  arrives : state.fabric.nodeIndex (headOf state.request index) = some key.1
  usable : Usable state query index
  earlier : ∃ earlier, dist before = some earlier ∧ saturatingAdd earlier (state.edgeCost index) kCostCeiling ≤ cost
  bounded : cost ≤ state.policy.maxPathCost

structure TablesSound (tables : SearchTables) : Prop where
  start : tables.dist (query.source, 0) = some 0
  linked : ∀ key cost, tables.dist key = some cost → key ≠ (query.source, 0) →
    ∃ before index, tables.prev key = some (before, index) ∧ Link state query tables.dist key cost before index
  labels : ∀ label ∈ tables.frontier, ∃ cost, tables.dist (label.node, label.hops) = some cost ∧ cost ≤ label.cost
  short : ∀ key cost, tables.dist key = some cost → key.2 ≤ state.hopLimit

variable {state query}

theorem pop_all (frontier : List Label) : popAll frontier = [] := by
  induction frontier with
  | nil => rfl
  | cons _ _ ih => exact ih

-- Nothing of the tables that an earlier search left is kept.
theorem start_tables_fresh (tables : SearchTables) (source : NodeIndex) : startTables tables source = startTables {} source := by
  simp only [startTables, clearTables, pop_all]

theorem start_tables_sound (tables : SearchTables) : TablesSound state query (startTables tables query.source) := by
  rw [start_tables_fresh]
  refine ⟨by simp [startTables], fun key cost placed differ => ?_, ?_, fun key cost placed => ?_⟩
  · simp [startTables, clearTables, Function.update_of_ne differ] at placed
  · intro label member
    simp only [startTables, clearTables, popAll, List.orderedInsert_nil, List.mem_singleton] at member
    subst member
    exact ⟨0, by simp [startTables], le_refl 0⟩
  · by_cases start : key = (query.source, 0)
    · rw [start]
      exact Nat.zero_le _
    · simp [startTables, clearTables, Function.update_of_ne start] at placed

theorem deeper_key (label : Label) (node next : NodeIndex) : ((node, label.hops) : StateKey) ≠ (next, label.hops + 1) := by
  intro same
  have := congrArg Prod.snd same
  simp at this

-- Distances only fall.
theorem record_falls (tables : SearchTables) (label : Label) (index : EdgeIndex) (next : NodeIndex) (nextCost : Nat)
    (better : ∀ cost, tables.dist (next, label.hops + 1) = some cost → nextCost ≤ cost) (key : StateKey) (cost : Nat)
    (placed : tables.dist key = some cost) :
    ∃ lower, (record label tables index next nextCost).dist key = some lower ∧ lower ≤ cost := by
  by_cases same : key = (next, label.hops + 1)
  · subst same
    exact ⟨nextCost, by simp [record], better cost placed⟩
  · exact ⟨cost, by simpa [record, Function.update_of_ne same] using placed, le_refl cost⟩

theorem record_sound (tables : SearchTables) (label : Label) (index : EdgeIndex) (next : NodeIndex)
    (sound : TablesSound state query tables) (known : ∃ cost, tables.dist (label.node, label.hops) = some cost ∧ cost ≤ label.cost)
    (leaves : state.fabric.nodeIndex (tailOf state.request index) = some label.node)
    (arrives : state.fabric.nodeIndex (headOf state.request index) = some next)
    (usable : Usable state query index) (room : label.hops < state.hopLimit)
    (bounded : saturatingAdd label.cost (state.edgeCost index) kCostCeiling ≤ state.policy.maxPathCost)
    (better : ∀ cost, tables.dist (next, label.hops + 1) = some cost →
      saturatingAdd label.cost (state.edgeCost index) kCostCeiling ≤ cost) :
    TablesSound state query (record label tables index next
      (saturatingAdd label.cost (state.edgeCost index) kCostCeiling)) := by
  obtain ⟨labelCost, labelKnown, labelLow⟩ := known
  have startApart : ((query.source, 0) : StateKey) ≠ (next, label.hops + 1) := by
    intro same
    have := congrArg Prod.snd same
    simp at this
  have falls := record_falls tables label index next _ better
  refine ⟨?_, ?_, ?_, ?_⟩
  · simpa [record, Function.update_of_ne startApart] using sound.start
  · intro key cost placed differ
    by_cases same : key = (next, label.hops + 1)
    · subst same
      have costIs : saturatingAdd label.cost (state.edgeCost index) kCostCeiling = cost := by
        simpa [record] using placed
      refine ⟨(label.node, label.hops), index, by simp [record], rfl, leaves, arrives, usable,
        ⟨labelCost, by simpa [record, Function.update_of_ne (deeper_key label _ next)] using labelKnown, ?_⟩, costIs ▸ bounded⟩
      rw [← costIs]
      exact saturating_add_mono _ _ _ labelLow
    · have old : tables.dist key = some cost := by simpa [record, Function.update_of_ne same] using placed
      obtain ⟨before, through, stored, link⟩ := sound.linked key cost old differ
      obtain ⟨earlier, earlierKnown, earlierLow⟩ := link.earlier
      obtain ⟨lower, lowerKnown, lowerLe⟩ := falls before earlier earlierKnown
      exact ⟨before, through, by simpa [record, Function.update_of_ne same] using stored,
        { link with earlier := ⟨lower, lowerKnown, (saturating_add_mono _ _ _ lowerLe).trans earlierLow⟩ }⟩
  · intro waiting member
    have split : waiting = ⟨saturatingAdd label.cost (state.edgeCost index) kCostCeiling, label.hops + 1, next⟩ ∨
        waiting ∈ tables.frontier := by
      simpa [record] using member
    rcases split with rfl | old
    · exact ⟨_, by simp [record], le_refl _⟩
    · obtain ⟨cost, placed, low⟩ := sound.labels waiting old
      obtain ⟨lower, lowerKnown, lowerLe⟩ := falls _ cost placed
      exact ⟨lower, lowerKnown, lowerLe.trans low⟩
  · intro key cost placed
    by_cases same : key = (next, label.hops + 1)
    · subst same
      exact room
    · exact sound.short key cost (by simpa [record, Function.update_of_ne same] using placed)

-- The walk back from a reached key ends at the start and costs no more than the key.
theorem trace_path_sound (fabricSound : FabricGraph.Sound state.fabric) (origin : NodeId)
    (startsAt : state.fabric.nodeIndex origin = some query.source) (tables : SearchTables) (sound : TablesSound state query tables)
    (hops : Nat) (node : NodeIndex) (cost : Nat) (id : NodeId) (placed : tables.dist (node, hops) = some cost)
    (found : state.fabric.nodeIndex id = some node) :
    ∃ edges, tracePath tables.prev (query.source, 0) hops (node, hops) = some edges ∧
      IsWalk (tailOf state.request) (headOf state.request) origin edges id ∧
      (∀ index ∈ edges, Usable state query index) ∧ edges.length = hops ∧ routeCost state.request edges ≤ cost := by
  induction hops generalizing node cost id with
  | zero =>
      by_cases start : ((node, 0) : StateKey) = (query.source, 0)
      · have here : node = query.source := congrArg Prod.fst start
        subst here
        refine ⟨[], by rw [tracePath, if_pos rfl], ?_, by simp, rfl, Nat.zero_le _⟩
        exact fabricSound.node_index_injective _ id _ startsAt found
      · obtain ⟨before, index, _, link⟩ := sound.linked _ cost placed start
        have := link.hops
        simp at this
  | succ hops ih =>
      have start : ((node, hops + 1) : StateKey) ≠ (query.source, 0) := by
        intro same
        have := congrArg Prod.snd same
        simp at this
      obtain ⟨⟨before, count⟩, index, stored, link⟩ := sound.linked _ cost placed start
      have countIs : count = hops := Nat.succ.inj link.hops
      subst countIs
      obtain ⟨earlier, earlierKnown, earlierLow⟩ := link.earlier
      obtain ⟨edges, traced, walk, usable, length, cheap⟩ := ih before earlier (tailOf state.request index) earlierKnown link.leaves
      refine ⟨edges ++ [index], ?_, ?_, ?_, by simp [length], ?_⟩
      · rw [tracePath, if_neg start, stored]
        simp [traced]
      · rw [walk_snoc]
        exact ⟨walk, fabricSound.node_index_injective _ id node link.arrives found⟩
      · intro other member
        rcases List.mem_append.mp member with old | new
        · exact usable other old
        · rw [List.mem_singleton.mp new]
          exact link.usable
      · rw [routeCost, List.map_append, List.map_singleton, saturating_sum_snoc]
        exact (saturating_add_mono _ _ _ cheap).trans earlierLow

variable (state query)

-- What a key offers its neighbours over some of its outgoing edges has arrived there.
def Relaxed (dist : StateKey → Option Nat) (key : StateKey) (cost : Nat) (outgoing : List EdgeIndex) : Prop :=
  ∀ index ∈ outgoing, ∀ next, state.fabric.nodeIndex (headOf state.request index) = some next →
    hopUsable state query.blocks query.sourceBinding query.targetBinding index next = true →
    saturatingAdd cost (state.edgeCost index) kCostCeiling ≤ state.policy.maxPathCost →
    ∃ later, dist (next, key.2 + 1) = some later ∧ later ≤ saturatingAdd cost (state.edgeCost index) kCostCeiling

def Settled (dist : StateKey → Option Nat) (key : StateKey) (cost : Nat) : Prop :=
  key.1 ≠ query.target ∧ (state.hopLimit ≤ key.2 ∨ Relaxed state query dist key cost (state.fabric.outEdges key.1))

-- Every reached key waits in the frontier or has been settled; the frontier is in order.
structure Progress (tables : SearchTables) : Prop where
  waiting : ∀ key cost, tables.dist key = some cost →
    ⟨cost, key.2, key.1⟩ ∈ tables.frontier ∨ Settled state query tables.dist key cost
  ordered : tables.frontier.Pairwise Label.notAfter

-- The same in the middle of settling a label, with the outgoing edges done so far.
structure Settling (label : Label) (done : List EdgeIndex) (tables : SearchTables) : Prop where
  here : tables.dist (label.node, label.hops) = some label.cost
  relaxed : Relaxed state query tables.dist (label.node, label.hops) label.cost done
  waiting : ∀ key cost, tables.dist key = some cost → key ≠ (label.node, label.hops) →
    ⟨cost, key.2, key.1⟩ ∈ tables.frontier ∨ Settled state query tables.dist key cost
  ordered : tables.frontier.Pairwise Label.notAfter

variable {state query}

theorem not_after_total (lhs rhs : Label) : Label.notAfter lhs rhs ∨ Label.notAfter rhs lhs := by
  unfold Label.notAfter
  grind

theorem not_after_trans (a b c : Label) (first : Label.notAfter a b) (second : Label.notAfter b c) : Label.notAfter a c := by
  unfold Label.notAfter at first second ⊢
  grind

theorem insert_ordered (label : Label) (frontier : List Label) (ordered : frontier.Pairwise Label.notAfter) :
    (frontier.orderedInsert Label.notAfter label).Pairwise Label.notAfter := by
  have total : Std.Total Label.notAfter := ⟨not_after_total⟩
  have trans : IsTrans Label Label.notAfter := ⟨not_after_trans⟩
  exact ordered.orderedInsert label frontier

theorem relaxed_falls (before after : StateKey → Option Nat) (key : StateKey) (cost : Nat) (outgoing : List EdgeIndex)
    (falls : ∀ other old, before other = some old → ∃ lower, after other = some lower ∧ lower ≤ old)
    (relaxed : Relaxed state query before key cost outgoing) : Relaxed state query after key cost outgoing := by
  intro index member next arrives usable cheap
  obtain ⟨later, placed, low⟩ := relaxed index member next arrives usable cheap
  obtain ⟨lower, lowerPlaced, lowerLe⟩ := falls _ later placed
  exact ⟨lower, lowerPlaced, lowerLe.trans low⟩

theorem settled_falls (before after : StateKey → Option Nat) (key : StateKey) (cost : Nat)
    (falls : ∀ other old, before other = some old → ∃ lower, after other = some lower ∧ lower ≤ old)
    (settled : Settled state query before key cost) : Settled state query after key cost :=
  ⟨settled.1, settled.2.imp id (relaxed_falls before after key cost _ falls)⟩

-- An edge that changes nothing either leads nowhere the search may go or has been used as well.
theorem relaxed_snoc (dist : StateKey → Option Nat) (key : StateKey) (cost : Nat) (done : List EdgeIndex) (index : EdgeIndex)
    (relaxed : Relaxed state query dist key cost done) (last : Relaxed state query dist key cost [index]) :
    Relaxed state query dist key cost (done ++ [index]) := by
  intro other member
  rcases List.mem_append.mp member with old | new
  · exact relaxed other old
  · exact last other new

theorem relax_edge_settling (label : Label) (done : List EdgeIndex) (tables : SearchTables) (index : EdgeIndex)
    (fabricSound : FabricGraph.Sound state.fabric) (sound : TablesSound state query tables)
    (settling : Settling state query label done tables) (room : label.hops < state.hopLimit)
    (outgoing : index ∈ state.fabric.outEdges label.node) :
    TablesSound state query (relaxEdge state query.blocks query.sourceBinding query.targetBinding label tables index) ∧
      Settling state query label (done ++ [index])
        (relaxEdge state query.blocks query.sourceBinding query.targetBinding label tables index) := by
  obtain ⟨stored, leaves⟩ := (fabricSound.mem_out_edges label.node index).mp outgoing
  have unchanged : Relaxed state query tables.dist (label.node, label.hops) label.cost [index] →
      Settling state query label (done ++ [index]) tables := fun last =>
    ⟨settling.here, relaxed_snoc _ _ _ done index settling.relaxed last, settling.waiting, settling.ordered⟩
  have only : ∀ other ∈ [index], other = index := fun other member => List.mem_singleton.mp member
  unfold relaxEdge
  split
  · rename_i nowhere
    refine ⟨sound, unchanged fun other member next arrives _ _ => ?_⟩
    rw [only other member] at arrives
    exact absurd (nowhere.symm.trans arrives) (by simp)
  · rename_i next arrives
    have same : ∀ there, state.fabric.nodeIndex (headOf state.request index) = some there → there = next := fun there found =>
      Option.some.inj (found.symm.trans arrives)
    dsimp only
    split_ifs with blocked costly better
    · refine ⟨sound, unchanged fun other member there found usable _ => ?_⟩
      rw [only other member] at found usable
      rw [same there found, blocked] at usable
      exact Bool.noConfusion usable
    · refine ⟨sound, unchanged fun other member there found _ cheap => ?_⟩
      rw [only other member] at cheap
      exact absurd cheap (not_le.mpr costly)
    · have lower : ∀ cost, tables.dist (next, label.hops + 1) = some cost →
          saturatingAdd label.cost (state.edgeCost index) kCostCeiling ≤ cost := by
        intro cost placed
        rw [placed, Option.all_some] at better
        exact (of_decide_eq_true better).le
      have falls := record_falls tables label index next (saturatingAdd label.cost (state.edgeCost index) kCostCeiling) lower
      have usable : Usable state query index := ⟨stored, next, arrives, by simpa using blocked⟩
      refine ⟨record_sound tables label index next sound ⟨label.cost, settling.here, le_refl _⟩ leaves arrives usable room
        (not_lt.mp costly) lower, ?_, ?_, fun key cost placed differ => ?_, insert_ordered _ _ settling.ordered⟩
      · simpa [record, Function.update_of_ne (deeper_key label _ next)] using settling.here
      · refine relaxed_snoc _ _ _ done index (relaxed_falls _ _ _ _ _ falls settling.relaxed) fun other member there found _ _ => ?_
        rw [only other member] at found ⊢
        rw [same there found]
        exact ⟨_, by simp [record], le_refl _⟩
      · by_cases reached : key = (next, label.hops + 1)
        · subst reached
          have costIs : saturatingAdd label.cost (state.edgeCost index) kCostCeiling = cost := by simpa [record] using placed
          exact Or.inl (by simp [record, costIs])
        · have old : tables.dist key = some cost := by simpa [record, Function.update_of_ne reached] using placed
          rcases settling.waiting key cost old differ with waits | settled
          · exact Or.inl (by simp [record, waits])
          · exact Or.inr (settled_falls _ _ _ _ falls settled)
    · refine ⟨sound, unchanged fun other member there found _ _ => ?_⟩
      rw [only other member] at found ⊢
      rw [same there found]
      cases placed : tables.dist (next, label.hops + 1) with
      | none => simp [placed] at better
      | some later => exact ⟨later, rfl, by simpa [placed] using better⟩

theorem relax_edges_settling (label : Label) (fabricSound : FabricGraph.Sound state.fabric) (room : label.hops < state.hopLimit)
    (outgoing done : List EdgeIndex) (tables : SearchTables) (sound : TablesSound state query tables)
    (settling : Settling state query label done tables) (inside : ∀ index ∈ outgoing, index ∈ state.fabric.outEdges label.node) :
    TablesSound state query (relaxEdges state query.blocks query.sourceBinding query.targetBinding label tables outgoing) ∧
      Settling state query label (done ++ outgoing)
        (relaxEdges state query.blocks query.sourceBinding query.targetBinding label tables outgoing) := by
  induction outgoing generalizing tables done with
  | nil => simpa [relaxEdges] using ⟨sound, settling⟩
  | cons index rest ih =>
      obtain ⟨kept, further⟩ := relax_edge_settling label done tables index fabricSound sound settling room (inside index (by simp))
      have later := ih (done ++ [index]) _ kept further fun other member => inside other (List.mem_cons_of_mem _ member)
      rwa [List.append_assoc] at later

-- Popping drops stale labels only, and what is popped is the first of the rest.
theorem settle_sound (dist : StateKey → Option Nat) (frontier : List Label) :
    (settle dist frontier).Sublist frontier ∧
      ∀ label ∈ frontier, dist (label.node, label.hops) = some label.cost → label ∈ settle dist frontier := by
  induction frontier with
  | nil => exact ⟨List.Sublist.refl _, by simp⟩
  | cons head rest ih =>
      rw [settle]
      split_ifs with stale
      · refine ⟨ih.1.cons head, fun label member fresh => ?_⟩
        rcases List.mem_cons.mp member with rfl | later
        · simp [fresh] at stale
        · exact ih.2 label later fresh
      · exact ⟨List.Sublist.refl _, fun label member _ => member⟩

theorem settle_fresh (dist : StateKey → Option Nat) (frontier : List Label) (label : Label) (rest : List Label)
    (settled : settle dist frontier = label :: rest) : ∃ cost, dist (label.node, label.hops) = some cost ∧ label.cost ≤ cost := by
  induction frontier with
  | nil => simp [settle] at settled
  | cons head tail ih =>
      rw [settle] at settled
      split_ifs at settled with stale
      · exact ih settled
      · obtain ⟨rfl, rfl⟩ := List.cons.inj settled
        cases placed : dist (head.node, head.hops) with
        | none => simp [placed] at stale
        | some cost => exact ⟨cost, rfl, by simpa [placed] using stale⟩

-- A popped label carries the distance of its key.
theorem popped_exact (tables : SearchTables) (label : Label) (rest : List Label) (sound : TablesSound state query tables)
    (settled : settle tables.dist tables.frontier = label :: rest) :
    tables.dist (label.node, label.hops) = some label.cost := by
  obtain ⟨cost, placed, low⟩ := settle_fresh _ _ label rest settled
  have inside : label ∈ tables.frontier := (settle_sound tables.dist tables.frontier).1.mem (by simp [settled])
  obtain ⟨other, same, high⟩ := sound.labels label inside
  rw [placed, Option.some.injEq] at same
  rw [placed, show cost = label.cost by omega]

-- Whatever walk the search may still find, some waiting label is at least as good.
theorem walk_waits (tables : SearchTables) (fabricSound : FabricGraph.Sound state.fabric) (origin : NodeId)
    (startsAt : state.fabric.nodeIndex origin = some query.source) (sound : TablesSound state query tables)
    (progress : Progress state query tables) (route : Route) (finish : NodeId) (node : NodeIndex)
    (found : state.fabric.nodeIndex finish = some node) (opens : OpenWalk state query origin finish route) :
    (∃ label ∈ tables.frontier, tables.dist (label.node, label.hops) = some label.cost ∧
      label.cost ≤ routeCost state.request route ∧ label.hops ≤ route.length) ∨
      ∃ cost, tables.dist (node, route.length) = some cost ∧ cost ≤ routeCost state.request route := by
  induction route using List.reverseRecOn generalizing finish node with
  | nil =>
      have same : origin = finish := opens.walk
      subst same
      rw [startsAt, Option.some.injEq] at found
      subst found
      exact Or.inr ⟨0, sound.start, Nat.zero_le _⟩
  | append_singleton route index ih =>
      obtain ⟨before, arrives⟩ := (walk_snoc _ _ _ _ _ _).mp opens.walk
      have usable := opens.usable index (by simp)
      obtain ⟨middle, leaves⟩ := fabricSound.sources _ (FabricGraph.edge_member _ index usable.stored)
      have total : routeCost state.request (route ++ [index]) =
          saturatingAdd (routeCost state.request route) (state.edgeCost index) kCostCeiling := by
        rw [routeCost, List.map_append, List.map_singleton, saturating_sum_snoc]
        rfl
      have grows : routeCost state.request route ≤ routeCost state.request (route ++ [index]) := by
        rw [total, saturating_add_clamps]
        exact Clamped.le_clamp_add _ _ _ (by rw [routeCost, saturating_sum_eq]; exact min_le_left _ _)
      have length : (route ++ [index]).length = route.length + 1 := by simp
      have hops := opens.hops
      rw [length] at hops ⊢
      have shorter : OpenWalk state query origin (tailOf state.request index) route :=
        ⟨before, fun other member => opens.usable other (by simp [member]), by omega, grows.trans opens.cost⟩
      rcases ih (tailOf state.request index) middle leaves shorter with ⟨label, waits, fresh, cheap, few⟩ | ⟨cost, placed, cheap⟩
      · exact Or.inl ⟨label, waits, fresh, cheap.trans grows, by omega⟩
      · rcases progress.waiting _ cost placed with waits | ⟨_, settled⟩
        · exact Or.inl ⟨_, waits, placed, cheap.trans grows, Nat.le_succ _⟩
        · rcases settled with deep | relaxed
          · dsimp only at deep
            omega
          · obtain ⟨next, known, passes⟩ := usable.passes
            have there : next = node := by
              rw [arrives, found, Option.some.injEq] at known
              exact known.symm
            subst there
            have low : saturatingAdd cost (state.edgeCost index) kCostCeiling ≤ routeCost state.request (route ++ [index]) := by
              rw [total]
              exact saturating_add_mono _ _ _ cheap
            obtain ⟨later, reached, lower⟩ := relaxed index ((fabricSound.mem_out_edges middle index).mpr ⟨usable.stored, leaves⟩)
              next known passes (low.trans opens.cost)
            exact Or.inr ⟨later, reached, lower.trans low⟩

variable (state query)

-- No walk the search may take is cheaper, and none as cheap is shorter.
def Best (origin finish : NodeId) (route : Route) : Prop := ∀ other, OpenWalk state query origin finish other →
  routeCost state.request route < routeCost state.request other ∨
    routeCost state.request route = routeCost state.request other ∧ route.length ≤ other.length

structure Exact (origin finish : NodeId) (outcome : SearchOutcome) : Prop where
  reached : outcome.found = true → OpenWalk state query origin finish outcome.edges ∧
    outcome.cost = routeCost state.request outcome.edges ∧ Best state query origin finish outcome.edges
  missed : outcome.found = false → outcome.budgetExceeded = false → ∀ other, ¬ OpenWalk state query origin finish other
  certain : outcome.found = true → outcome.budgetExceeded = false

variable {state query}

theorem exhausted_exact (tables : SearchTables) (fabricSound : FabricGraph.Sound state.fabric) (origin finish : NodeId)
    (startsAt : state.fabric.nodeIndex origin = some query.source) (endsAt : state.fabric.nodeIndex finish = some query.target)
    (sound : TablesSound state query tables) (progress : Progress state query tables)
    (empty : settle tables.dist tables.frontier = []) : Exact state query origin finish {} := by
  refine ⟨fun found => Bool.noConfusion found, fun _ _ other opens => ?_, fun found => Bool.noConfusion found⟩
  have none : ∀ label ∈ tables.frontier, tables.dist (label.node, label.hops) ≠ some label.cost := by
    intro label waits fresh
    have kept := (settle_sound tables.dist tables.frontier).2 label waits fresh
    simp [empty] at kept
  rcases walk_waits tables fabricSound origin startsAt sound progress other finish query.target endsAt opens with
    ⟨label, waits, fresh, _, _⟩ | ⟨cost, placed, _⟩
  · exact none label waits fresh
  · rcases progress.waiting _ cost placed with waits | ⟨elsewhere, _⟩
    · exact none _ waits placed
    · exact elsewhere rfl

-- The first label popped at the target is the best one.
theorem arrive_exact (tables : SearchTables) (fabricSound : FabricGraph.Sound state.fabric) (origin finish : NodeId)
    (startsAt : state.fabric.nodeIndex origin = some query.source) (endsAt : state.fabric.nodeIndex finish = some query.target)
    (sound : TablesSound state query tables) (progress : Progress state query tables) (label : Label) (rest : List Label)
    (settled : settle tables.dist tables.frontier = label :: rest) (arrived : label.node = query.target) :
    Exact state query origin finish (arrive query.source tables label) := by
  have placed := popped_exact tables label rest sound settled
  obtain ⟨edges, traced, walk, usable, length, cheap⟩ := trace_path_sound fabricSound origin startsAt tables sound label.hops
    label.node label.cost finish placed (arrived ▸ endsAt)
  have bounded : label.cost ≤ state.policy.maxPathCost := by
    by_cases start : (label.node, label.hops) = (query.source, 0)
    · rw [start, sound.start, Option.some.injEq] at placed
      omega
    · obtain ⟨_, _, _, link⟩ := sound.linked _ label.cost placed start
      exact link.bounded
  have ordered : (label :: rest).Pairwise Label.notAfter := settled ▸ progress.ordered.sublist (settle_sound _ _).1
  have first : ∀ other ∈ tables.frontier, tables.dist (other.node, other.hops) = some other.cost →
      label.cost < other.cost ∨ label.cost = other.cost ∧ label.hops ≤ other.hops := by
    intro other waits fresh
    have kept := (settle_sound tables.dist tables.frontier).2 other waits fresh
    rw [settled] at kept
    rcases List.mem_cons.mp kept with rfl | later
    · exact Or.inr ⟨rfl, le_refl _⟩
    · have below := (List.pairwise_cons.mp ordered).1 other later
      unfold Label.notAfter at below
      omega
  have best : ∀ other, OpenWalk state query origin finish other → label.cost < routeCost state.request other ∨
      label.cost = routeCost state.request other ∧ label.hops ≤ other.length := by
    intro other opens
    rcases walk_waits tables fabricSound origin startsAt sound progress other finish query.target endsAt opens with
      ⟨early, waits, fresh, low, few⟩ | ⟨cost, reached, low⟩
    · have earlier := first early waits fresh
      omega
    · rcases progress.waiting _ cost reached with waits | ⟨elsewhere, _⟩
      · have earlier := first _ waits reached
        dsimp only at earlier
        omega
      · exact absurd rfl elsewhere
  have opens : OpenWalk state query origin finish edges :=
    ⟨walk, usable, length ▸ sound.short _ _ placed, cheap.trans bounded⟩
  have same : label.cost = routeCost state.request edges := by
    rcases best edges opens with less | ⟨same, _⟩
    · omega
    · exact same
  unfold arrive
  rw [traced]
  refine ⟨fun _ => ⟨opens, same, fun other otherOpens => ?_⟩, fun never => Bool.noConfusion never, fun _ => rfl⟩
  dsimp only
  rw [← same, length]
  exact best other otherOpens

theorem popped_sound (tables : SearchTables) (label : Label) (rest : List Label) (sound : TablesSound state query tables)
    (settled : settle tables.dist tables.frontier = label :: rest) : TablesSound state query { tables with frontier := rest } := by
  have inside : ∀ other ∈ label :: rest, other ∈ tables.frontier := fun other member =>
    (settle_sound tables.dist tables.frontier).1.mem (settled ▸ member)
  exact ⟨sound.start, sound.linked, fun other member => sound.labels other (inside other (List.mem_cons_of_mem _ member)), sound.short⟩

theorem popped_settling (tables : SearchTables) (label : Label) (rest : List Label) (sound : TablesSound state query tables)
    (progress : Progress state query tables) (settled : settle tables.dist tables.frontier = label :: rest) :
    Settling state query label [] { tables with frontier := rest } := by
  have ordered : (label :: rest).Pairwise Label.notAfter := settled ▸ progress.ordered.sublist (settle_sound _ _).1
  refine ⟨popped_exact tables label rest sound settled, fun index member => by simp at member, fun key cost placed differ => ?_,
    (List.pairwise_cons.mp ordered).2⟩
  rcases progress.waiting key cost placed with waits | done
  · have kept := (settle_sound tables.dist tables.frontier).2 _ waits placed
    rw [settled] at kept
    rcases List.mem_cons.mp kept with same | later
    · exact absurd (by rw [← same]) differ
    · exact Or.inl later
  · exact Or.inr done

-- Once all its edges are done a settled label needs no further attention.
theorem settling_progress (tables : SearchTables) (label : Label) (elsewhere : label.node ≠ query.target)
    (settling : Settling state query label (state.fabric.outEdges label.node) tables) : Progress state query tables := by
  refine ⟨fun key cost placed => ?_, settling.ordered⟩
  by_cases same : key = (label.node, label.hops)
  · subst same
    have costIs := settling.here
    rw [placed, Option.some.injEq] at costIs
    subst costIs
    exact Or.inr ⟨elsewhere, Or.inr settling.relaxed⟩
  · exact settling.waiting key cost placed same

theorem deep_progress (tables : SearchTables) (label : Label) (elsewhere : label.node ≠ query.target)
    (deep : state.hopLimit ≤ label.hops) (settling : Settling state query label [] tables) : Progress state query tables := by
  refine ⟨fun key cost placed => ?_, settling.ordered⟩
  by_cases same : key = (label.node, label.hops)
  · subst same
    exact Or.inr ⟨elsewhere, Or.inl deep⟩
  · exact settling.waiting key cost placed same

theorem search_loop_exact (fabricSound : FabricGraph.Sound state.fabric) (origin finish : NodeId)
    (startsAt : state.fabric.nodeIndex origin = some query.source) (endsAt : state.fabric.nodeIndex finish = some query.target)
    (left : Nat) (tables : SearchTables) (sound : TablesSound state query tables) (progress : Progress state query tables) :
    Exact state query origin finish
      (searchLoop state query.blocks query.sourceBinding query.targetBinding query.source query.target left tables).1 := by
  induction left generalizing tables with
  | zero =>
      unfold searchLoop
      cases settled : settle tables.dist tables.frontier with
      | nil => exact exhausted_exact tables fabricSound origin finish startsAt endsAt sound progress settled
      | cons label rest =>
          by_cases arrived : label.node = query.target
          · simp only [if_pos arrived]
            exact arrive_exact tables fabricSound origin finish startsAt endsAt sound progress label rest settled arrived
          · simp only [if_neg arrived]
            exact ⟨fun found => Bool.noConfusion found, fun _ never => Bool.noConfusion never, fun found => Bool.noConfusion found⟩
  | succ left ih =>
      unfold searchLoop
      cases settled : settle tables.dist tables.frontier with
      | nil => exact exhausted_exact tables fabricSound origin finish startsAt endsAt sound progress settled
      | cons label rest =>
          have popped := popped_sound tables label rest sound settled
          have settling := popped_settling tables label rest sound progress settled
          by_cases arrived : label.node = query.target
          · simp only [if_pos arrived]
            exact arrive_exact tables fabricSound origin finish startsAt endsAt sound progress label rest settled arrived
          · by_cases deep : label.hops ≥ state.hopLimit
            · simp only [if_neg arrived, if_pos deep]
              exact ih _ popped (deep_progress _ label arrived deep settling)
            · simp only [if_neg arrived, if_neg deep]
              obtain ⟨kept, done⟩ := relax_edges_settling label fabricSound (not_le.mp deep) (state.fabric.outEdges label.node) []
                { tables with frontier := rest } popped settling fun index member => member
              exact ih _ kept (settling_progress _ label arrived done)

theorem start_progress (tables : SearchTables) : Progress state query (startTables tables query.source) := by
  rw [start_tables_fresh]
  refine ⟨fun key cost placed => ?_, List.pairwise_singleton _ _⟩
  by_cases start : key = (query.source, 0)
  · subst start
    simp only [startTables, Function.update_self, Option.some.injEq] at placed
    subst placed
    exact Or.inl (by simp [startTables, clearTables, popAll])
  · simp [startTables, clearTables, Function.update_of_ne start] at placed

-- Leaving a detour out makes a walk shorter and no dearer, so the best one has none.
theorem best_simple (origin finish : NodeId) (route : Route) (opens : OpenWalk state query origin finish route)
    (best : Best state query origin finish route) : (visited (headOf state.request) origin route).Nodup := by
  by_contra repeats
  obtain ⟨first, middle, last, split, nonempty, shorter⟩ := detour _ _ _ _ route opens.walk repeats
  subst split
  have cheaper : routeCost state.request (first ++ last) ≤ routeCost state.request (first ++ middle ++ last) := by
    rw [routeCost, routeCost, saturating_sum_eq, saturating_sum_eq]
    refine min_le_min_left _ ?_
    simp only [List.map_append, List.sum_append]
    omega
  have positive := List.length_pos_iff.mpr nonempty
  have hops := opens.hops
  have cost := opens.cost
  simp only [List.length_append] at hops
  have walk : OpenWalk state query origin finish (first ++ last) := by
    refine ⟨shorter, fun index member => opens.usable index ?_, by rw [List.length_append]; omega, cheaper.trans cost⟩
    rcases List.mem_append.mp member with early | late
    · simp [early]
    · simp [late]
  have least := best _ walk
  simp only [List.length_append] at least
  omega

end ShortestPath

theorem shortest_path_blocks (state : PlannerState) (scratch : SearchScratch) (source target : NodeIndex)
    (sourceBinding targetBinding : EndpointBinding) :
    (shortestPath state scratch source target sourceBinding targetBinding).2.blocks = scratch.blocks := by
  unfold shortestPath
  split_ifs <;> rfl

open ShortestPath in
-- The answer of a search between two allowed nodes, when its budget lasts, is exact.
theorem shortest_path_exact (state : PlannerState) (fabricSound : FabricGraph.Sound state.fabric) (query : Query)
    (scratch : SearchScratch) (blocks : scratch.blocks = query.blocks) (origin finish : NodeId)
    (startsAt : state.fabric.nodeIndex origin = some query.source) (endsAt : state.fabric.nodeIndex finish = some query.target)
    (allowed : state.nodeAllowed query.source = true) :
    Exact state query origin finish
      (shortestPath state scratch query.source query.target query.sourceBinding query.targetBinding).1 := by
  unfold shortestPath
  by_cases here : query.source = query.target
  · rw [if_pos here]
    have same : origin = finish := fabricSound.node_index_injective _ _ _ startsAt (here ▸ endsAt)
    refine ⟨fun _ => ⟨⟨same, by simp, Nat.zero_le _, Nat.zero_le _⟩, rfl, fun other _ => ?_⟩, fun never => Bool.noConfusion never,
      fun _ => rfl⟩
    have zero : routeCost state.request [] = 0 := rfl
    dsimp only
    rw [zero, List.length_nil]
    omega
  · rw [if_neg here]
    by_cases closed : state.nodeAllowed query.source = false ∨ state.nodeAllowed query.target = false
    · rw [if_pos closed]
      refine ⟨fun found => Bool.noConfusion found, fun _ _ other opens => ?_, fun found => Bool.noConfusion found⟩
      have barred : state.nodeAllowed query.target = false := closed.resolve_left (by simp [allowed])
      have nonempty : other ≠ [] := by
        rintro rfl
        have same : origin = finish := opens.walk
        rw [same, endsAt, Option.some.injEq] at startsAt
        exact here startsAt.symm
      have ending := finish_last _ _ _ _ other nonempty opens.walk
      obtain ⟨next, arrives, passes⟩ := (opens.usable _ (List.getLast_mem nonempty)).passes
      rw [ending, endsAt, Option.some.injEq] at arrives
      rw [← arrives] at passes
      simp [hopUsable, barred] at passes
    · rw [if_neg closed]
      dsimp only
      rw [blocks]
      exact search_loop_exact fabricSound origin finish startsAt endsAt _ _ (start_tables_sound _) (start_progress _)

end PathPlanner

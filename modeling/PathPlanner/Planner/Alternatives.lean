import PathPlanner.Planner.AnalyseSound

set_option autoImplicit false

namespace PathPlanner

open Mapping Walk

section

variable {α : Type}

-- Of two words of such a code that begin one text neither goes on past the other.
theorem prefix_free_decodable (code : Set (List α)) (nonempty : [] ∉ code)
    (free : ∀ a ∈ code, ∀ b ∈ code, a <+: b → a = b) : InformationTheory.UniquelyDecodable code := by
  intro lefts rights leftWords rightWords same
  induction lefts generalizing rights with
  | nil =>
      cases rights with
      | nil => rfl
      | cons word rest =>
          rw [List.flatten_nil, List.flatten_cons, eq_comm, List.append_eq_nil_iff] at same
          exact absurd (same.1 ▸ rightWords word List.mem_cons_self) nonempty
  | cons left lefts ih =>
      cases rights with
      | nil =>
          rw [List.flatten_nil, List.flatten_cons, List.append_eq_nil_iff] at same
          exact absurd (same.1 ▸ leftWords left List.mem_cons_self) nonempty
      | cons right rights =>
          rw [List.flatten_cons, List.flatten_cons] at same
          have leftIn := leftWords left List.mem_cons_self
          have rightIn := rightWords right List.mem_cons_self
          have begins : right <+: left ++ lefts.flatten := ⟨_, same.symm⟩
          have first : left = right := by
            rcases List.prefix_or_prefix_of_prefix (List.prefix_append left lefts.flatten) begins with part | part
            · exact free left leftIn right rightIn part
            · exact (free right rightIn left leftIn part).symm
          subst first
          rw [List.append_cancel_left_eq] at same
          rw [ih rights (fun word member => leftWords word (List.mem_cons_of_mem _ member))
            (fun word member => rightWords word (List.mem_cons_of_mem _ member)) same]

theorem sublists_equal (list left right : List α) (distinct : list.Nodup) (leftPart : left.Sublist list)
    (rightPart : right.Sublist list) (perm : left.Perm right) : left = right := by
  induction list generalizing left right with
  | nil => rw [List.sublist_nil.mp leftPart, List.sublist_nil.mp rightPart]
  | cons head tail ih =>
      obtain ⟨fresh, rest⟩ := List.nodup_cons.mp distinct
      rcases List.sublist_cons_iff.mp leftPart with leftLater | ⟨leftTail, rfl, leftLater⟩
      · rcases List.sublist_cons_iff.mp rightPart with rightLater | ⟨rightTail, rfl, rightLater⟩
        · exact ih left right rest leftLater rightLater perm
        · exact absurd (leftLater.mem (perm.mem_iff.mpr List.mem_cons_self)) fresh
      · rcases List.sublist_cons_iff.mp rightPart with rightLater | ⟨rightTail, rfl, rightLater⟩
        · exact absurd (rightLater.mem (perm.mem_iff.mp List.mem_cons_self)) fresh
        · rw [ih leftTail rightTail rest leftLater rightLater perm.cons_inv]

end

namespace Ranked

variable {α κ : Type} [LinearOrder κ] {key : α → κ}

-- Of distinct items the kept ones are the first of the sorted list.
theorem Best.first (cap : Nat) (items kept ordered : List α) (best : Best key cap items kept) (perm : ordered.Perm items)
    (strict : ordered.Pairwise fun a b => key a < key b) : kept = ordered.take cap := by
  obtain ⟨sorted, short, dropped, split, apart, full⟩ := best
  have : Std.Total fun a b : α => key a ≤ key b := ⟨fun a b => le_total (key a) (key b)⟩
  have : IsTrans α fun a b => key a ≤ key b := ⟨fun _ _ _ => le_trans⟩
  have later := List.perm_insertionSort (fun a b => key a ≤ key b) dropped
  have whole : kept ++ dropped.insertionSort (fun a b => key a ≤ key b) = ordered := by
    have same := (later.append_left kept).trans (split.trans perm.symm)
    have keys : (ordered.map key).Nodup := List.pairwise_map.mpr (strict.imp ne_of_lt)
    refine List.Perm.eq_of_pairwise ?_ ?_ (strict.imp le_of_lt) same
    · intro a b left right below above
      exact List.inj_on_of_nodup_map keys (same.mem_iff.mp left) right (le_antisymm below above)
    · rw [List.pairwise_append]
      exact ⟨sorted, List.pairwise_insertionSort _ dropped, fun a left b right => apart a left b (later.mem_iff.mp right)⟩
  rw [← whole]
  by_cases none : dropped = []
  · subst none
    rw [List.insertionSort_nil, List.append_nil, List.take_of_length_le short]
  · exact (List.take_left' (le_antisymm short (full none))).symm

end Ranked

-- A path from one node to another one that visits no node twice.
structure SimplePath (request : PlanningRequest) (source target : NodeId) (route : Route) : Prop where
  stored : ∀ index ∈ route, index < request.fabric.edges.length
  walk : IsWalk (tailOf request) (headOf request) source route target
  simple : (visited (headOf request) source route).Nodup

theorem simple_paths_decodable (request : PlanningRequest) (source target : NodeId) (apart : source ≠ target) :
    InformationTheory.UniquelyDecodable { route | SimplePath request source target route } := by
  have nonempty (route : Route) (path : SimplePath request source target route) : route ≠ [] := by
    rintro rfl
    exact apart path.walk
  apply prefix_free_decodable
  · exact fun empty => nonempty [] empty rfl
  · rintro short shortPath _ longPath ⟨more, rfl⟩
    have ended := simple_initial _ _ source target short more (nonempty short shortPath) shortPath.walk longPath.walk
      longPath.simple
    rw [ended, List.append_nil]

namespace EnumerateSets

variable {state : PlannerState}

def setOfRoutes (state : PlannerState) (routes : List Route) : PathSet := setOf state (routes.map state.candidateOf)

theorem sort_routes_perm (left right : List Route) (perm : left.Perm right) :
    sortCandidates (left.map state.candidateOf) = sortCandidates (right.map state.candidateOf) := by
  have leftPerm := sort_candidates_perm (left.map state.candidateOf)
  have rightPerm := sort_candidates_perm (right.map state.candidateOf)
  refine List.Perm.eq_of_pairwise ?_ (sort_candidates_sorted _) (sort_candidates_sorted _)
    (leftPerm.trans ((perm.map state.candidateOf).trans rightPerm.symm))
  intro a b inLeft inRight below above
  obtain ⟨first, _, rfl⟩ := List.mem_map.mp (leftPerm.mem_iff.mp inLeft)
  obtain ⟨second, _, rfl⟩ := List.mem_map.mp (rightPerm.mem_iff.mp inRight)
  have edges : first = second := candidate_key_edges _ _ (le_antisymm below above)
  rw [edges]

theorem set_of_routes_perm (left right : List Route) (perm : left.Perm right) :
    setOfRoutes state left = setOfRoutes state right := by
  unfold setOfRoutes setOf buildPathSet
  rw [sort_routes_perm left right perm]

-- The signature spells the chosen paths out.
theorem signature_routes (source target : NodeId) (apart : source ≠ target) (left right : List Route)
    (leftPaths : ∀ route ∈ left, SimplePath state.request source target route)
    (rightPaths : ∀ route ∈ right, SimplePath state.request source target route)
    (same : (setOfRoutes state left).signature = (setOfRoutes state right).signature) : left.Perm right := by
  have spelled (routes : List Route) :
      ((sortCandidates (routes.map state.candidateOf)).map Candidate.edges).Perm routes := by
    have perm := (sort_candidates_perm (routes.map state.candidateOf)).map Candidate.edges
    rwa [List.map_map, show Candidate.edges ∘ state.candidateOf = id from rfl, List.map_id] at perm
  have spelling : ((sortCandidates (left.map state.candidateOf)).map Candidate.edges).flatten =
      ((sortCandidates (right.map state.candidateOf)).map Candidate.edges).flatten := by
    rw [← List.flatMap_def, ← List.flatMap_def]
    exact same
  have words := simple_paths_decodable state.request source target apart _ _
    (fun route member => leftPaths route ((spelled left).mem_iff.mp member))
    (fun route member => rightPaths route ((spelled right).mem_iff.mp member)) spelling
  exact (spelled left).symm.trans (words ▸ spelled right)

-- A subset of the pool that may stand for a logical edge.
structure Choice (request : PlanningRequest) (wanted : Nat) (pool chosen : List Route) : Prop where
  part : chosen.Sublist pool
  count : chosen.length = wanted
  separate : chosen.Pairwise (Separate request)
  fits : Fits request chosen

theorem candidate_of_injective (state : PlannerState) : Function.Injective state.candidateOf :=
  fun _ _ same => congrArg Candidate.edges same

theorem offered_choices (sound : PlannerState.Sound state) (wanted : Nat) (pool : List Route)
    (stored : ∀ route ∈ pool, ∀ index ∈ route, index < state.fabric.edges.length) (chosen : List Candidate) :
    (chosen ∈ choices state wanted (pool.map state.candidateOf) [] ∧ fitsSpare state (setOf state chosen) = true) ↔
      ∃ routes, chosen = routes.map state.candidateOf ∧ Choice state.request wanted pool routes := by
  rw [choices_mem state wanted _ [] chosen (Nat.zero_le _)]
  constructor
  · rintro ⟨⟨picked, part, rfl, length, pairwise, _⟩, fits⟩
    obtain ⟨routes, inside, rfl⟩ := List.sublist_map_iff.mp part
    have storedPicked : ∀ index ∈ routes.flatten, index < state.fabric.edges.length := by
      intro index member
      obtain ⟨route, listed, here⟩ := List.mem_flatten.mp member
      exact stored route (inside.mem listed) index here
    exact ⟨routes, rfl, inside, by simpa using length, (compatible_pairwise sound routes).mp pairwise,
      (fits_spare_iff sound routes storedPicked).mp fits⟩
  · rintro ⟨routes, rfl, choice⟩
    have storedPicked : ∀ index ∈ routes.flatten, index < state.fabric.edges.length := by
      intro index member
      obtain ⟨route, listed, here⟩ := List.mem_flatten.mp member
      exact stored route (choice.part.mem listed) index here
    exact ⟨⟨_, choice.part.map state.candidateOf, rfl, by simpa using choice.count,
      (compatible_pairwise sound routes).mpr choice.separate, by simp⟩, (fits_spare_iff sound routes storedPicked).mpr choice.fits⟩

-- Different subsets of the pool have different keys.
theorem choice_key_injective (source target : NodeId) (apart : source ≠ target) (pool : List Route) (distinct : pool.Nodup)
    (paths : ∀ route ∈ pool, SimplePath state.request source target route) (left right : List Route)
    (leftPart : left.Sublist pool) (rightPart : right.Sublist pool)
    (same : pathSetKey (setOfRoutes state left) = pathSetKey (setOfRoutes state right)) : left = right := by
  have signature := congrArg (fun key => (ofLex (ofLex (ofLex (ofLex key).2).2).2).2) same
  exact sublists_equal pool left right distinct leftPart rightPart (signature_routes source target apart left right
    (fun route member => paths route (leftPart.mem member)) (fun route member => paths route (rightPart.mem member)) signature)

-- The admissible subsets of the pool, each once.
def fittingRoutes (state : PlannerState) (wanted : Nat) (pool : List Route) : List (List Route) :=
  ((choices state wanted (pool.map state.candidateOf) []).filter fun chosen => fitsSpare state (setOf state chosen)).map
    fun chosen => chosen.map Candidate.edges

theorem edges_of_candidates (state : PlannerState) (routes : List Route) :
    (routes.map state.candidateOf).map Candidate.edges = routes := by
  rw [List.map_map, show Candidate.edges ∘ state.candidateOf = id from rfl, List.map_id]

variable (sound : PlannerState.Sound state) (wanted : Nat) (pool : List Route)
  (stored : ∀ route ∈ pool, ∀ index ∈ route, index < state.fabric.edges.length)

include sound stored

theorem fitting_routes_mem (routes : List Route) :
    routes ∈ fittingRoutes state wanted pool ↔ Choice state.request wanted pool routes := by
  have listed := offered_choices sound wanted pool stored
  rw [fittingRoutes, List.mem_map]
  constructor
  · rintro ⟨chosen, member, rfl⟩
    obtain ⟨others, rfl, choice⟩ := (listed chosen).mp (List.mem_filter.mp member)
    rwa [edges_of_candidates]
  · intro choice
    exact ⟨routes.map state.candidateOf, List.mem_filter.mpr ((listed _).mpr ⟨routes, rfl, choice⟩), edges_of_candidates state routes⟩

theorem fitting_routes_distinct (distinct : pool.Nodup) : (fittingRoutes state wanted pool).Nodup := by
  have listed := offered_choices sound wanted pool stored
  refine List.Nodup.map_on ?_ ((Analyse.choices_distinct wanted _ [] (distinct.map (candidate_of_injective state)) (Nat.zero_le _)).filter _)
  intro first left second right same
  obtain ⟨firstRoutes, rfl, _⟩ := (listed first).mp (List.mem_filter.mp left)
  obtain ⟨secondRoutes, rfl, _⟩ := (listed second).mp (List.mem_filter.mp right)
  rw [edges_of_candidates, edges_of_candidates] at same
  rw [same]

theorem fitting_routes_offered :
    (fittingRoutes state wanted pool).map (setOfRoutes state) = offered state (choices state wanted (pool.map state.candidateOf) []) := by
  have listed := offered_choices sound wanted pool stored
  rw [fittingRoutes, List.map_map, offered, List.filter_map]
  refine List.map_congr_left fun chosen member => ?_
  obtain ⟨routes, rfl, _⟩ := (listed chosen).mp (List.mem_filter.mp member)
  rw [Function.comp_apply, edges_of_candidates]
  rfl

omit sound stored

-- The subsets in the order of their sets.
structure Ordered (state : PlannerState) (wanted : Nat) (pool : List Route) (ordered : List (List Route)) : Prop where
  exactly : ∀ chosen, chosen ∈ ordered ↔ Choice state.request wanted pool chosen
  strict : (ordered.map (setOfRoutes state)).Pairwise pathSetLess

theorem enumerate_sets_ordered (sound : PlannerState.Sound state) (source target : NodeId) (apart : source ≠ target)
    (distinct : pool.Nodup) (paths : ∀ route ∈ pool, SimplePath state.request source target route) (cap budget : Nat)
    (unlimited : (enumerateSets state (pool.map state.candidateOf) wanted cap budget).stepLimited = false) :
    ∃ ordered, Ordered state wanted pool ordered ∧
      (enumerateSets state (pool.map state.candidateOf) wanted cap budget).best = (ordered.map (setOfRoutes state)).take cap := by
  have stored : ∀ route ∈ pool, ∀ index ∈ route, index < state.fabric.edges.length := fun route member => (paths route member).stored
  have exactly := fitting_routes_mem sound wanted pool stored
  obtain ⟨taken, _, best, all⟩ := enumerate_sets_best state wanted cap budget (pool.map state.candidateOf)
  rw [all unlimited, ← fitting_routes_offered sound wanted pool stored] at best
  have perm := List.perm_insertionSort
    (fun a b => pathSetKey (setOfRoutes state a) ≤ pathSetKey (setOfRoutes state b)) (fittingRoutes state wanted pool)
  have strict : ((fittingRoutes state wanted pool).insertionSort fun a b =>
      pathSetKey (setOfRoutes state a) ≤ pathSetKey (setOfRoutes state b)).Pairwise fun a b =>
      pathSetKey (setOfRoutes state a) < pathSetKey (setOfRoutes state b) := by
    have : Std.Total fun a b => pathSetKey (setOfRoutes state a) ≤ pathSetKey (setOfRoutes state b) := ⟨fun _ _ => le_total _ _⟩
    have : IsTrans (List Route) fun a b => pathSetKey (setOfRoutes state a) ≤ pathSetKey (setOfRoutes state b) :=
      ⟨fun _ _ _ => le_trans⟩
    have sorted := List.pairwise_insertionSort
      (fun a b => pathSetKey (setOfRoutes state a) ≤ pathSetKey (setOfRoutes state b)) (fittingRoutes state wanted pool)
    have apartLists := perm.nodup_iff.mpr (fitting_routes_distinct sound wanted pool stored distinct)
    refine sorted.imp₂ ?_ (List.Pairwise.and_mem.mp apartLists)
    rintro left right below ⟨inLeft, inRight, differ⟩
    refine lt_of_le_of_ne below fun same => differ ?_
    exact choice_key_injective source target apart pool distinct paths left right
      ((exactly left).mp (perm.mem_iff.mp inLeft)).part ((exactly right).mp (perm.mem_iff.mp inRight)).part same
  refine ⟨_, ⟨fun chosen => perm.mem_iff.trans (exactly chosen), ?_⟩,
    best.first cap _ _ _ (perm.map (setOfRoutes state)) (List.pairwise_map.mpr strict)⟩
  rw [List.pairwise_map]
  exact strict.imp fun {a b} less => (path_set_less_key _ _).mpr less

-- Another order of the pool offers the same sets.
theorem ordered_sets_unique (left right : List Route) (perm : left.Perm right) (leftOrdered rightOrdered : List (List Route))
    (leftIs : Ordered state wanted left leftOrdered) (rightIs : Ordered state wanted right rightOrdered) :
    leftOrdered.map (setOfRoutes state) = rightOrdered.map (setOfRoutes state) := by
  have moves (first second : List Route) (same : first.Perm second) (chosen : List Route)
      (choice : Choice state.request wanted first chosen) : ∃ other, Choice state.request wanted second other ∧
        setOfRoutes state other = setOfRoutes state chosen := by
    obtain ⟨other, rearranged, part⟩ := choice.part.subperm.trans same.subperm
    refine ⟨other, ⟨part, rearranged.length_eq.trans choice.count, ?_, ?_⟩, set_of_routes_perm other chosen rearranged⟩
    · exact (rearranged.pairwise_iff fun {a b} => separate_symm state.request a b).mpr choice.separate
    · intro index inside verified
      have loads : load state.request other index = load state.request chosen index := by
        rw [load, load, (rearranged.flatten).count_eq]
      rw [loads]
      exact choice.fits index inside verified
  have sub (first second : List Route) (same : first.Perm second) (firstOrdered secondOrdered : List (List Route))
      (firstIs : Ordered state wanted first firstOrdered) (secondIs : Ordered state wanted second secondOrdered) (set : PathSet)
      (member : set ∈ firstOrdered.map (setOfRoutes state)) : set ∈ secondOrdered.map (setOfRoutes state) := by
    obtain ⟨chosen, listed, rfl⟩ := List.mem_map.mp member
    obtain ⟨other, choice, eq⟩ := moves first second same chosen ((firstIs.exactly chosen).mp listed)
    exact List.mem_map.mpr ⟨other, (secondIs.exactly other).mpr choice, eq⟩
  have keyed (ordered : List (List Route)) (pool : List Route) (is : Ordered state wanted pool ordered) :
      (ordered.map (setOfRoutes state)).Pairwise fun a b => pathSetKey a < pathSetKey b :=
    is.strict.imp fun {a b} less => (path_set_less_key a b).mp less
  have leftStrict := keyed leftOrdered left leftIs
  have rightStrict := keyed rightOrdered right rightIs
  have distinct (sets : List PathSet) (strict : sets.Pairwise fun a b => pathSetKey a < pathSetKey b) : sets.Nodup := by
    refine strict.imp ?_
    rintro set _ less rfl
    exact lt_irrefl _ less
  have same : (leftOrdered.map (setOfRoutes state)).Perm (rightOrdered.map (setOfRoutes state)) :=
    (List.perm_ext_iff_of_nodup (distinct _ leftStrict) (distinct _ rightStrict)).mpr fun set =>
      ⟨sub left right perm _ _ leftIs rightIs set, sub right left perm.symm _ _ rightIs leftIs set⟩
  have keys : ((rightOrdered.map (setOfRoutes state)).map pathSetKey).Nodup := List.pairwise_map.mpr (rightStrict.imp ne_of_lt)
  refine List.Perm.eq_of_pairwise ?_ (leftStrict.imp le_of_lt) (rightStrict.imp le_of_lt) same
  intro a b inLeft inRight below above
  exact List.inj_on_of_nodup_map keys (same.mem_iff.mp inLeft) inRight (le_antisymm below above)

-- What is kept is the beginning of the ordered admissible subsets, and the order of the pool does not show in it.
theorem best_alternatives (sound : PlannerState.Sound state) (source target : NodeId) (apart : source ≠ target)
    (distinct : pool.Nodup) (paths : ∀ route ∈ pool, SimplePath state.request source target route) (cap budget : Nat)
    (unlimited : (enumerateSets state (pool.map state.candidateOf) wanted cap budget).stepLimited = false) :
    (∃ ordered, Ordered state wanted pool ordered ∧
      (enumerateSets state (pool.map state.candidateOf) wanted cap budget).best = (ordered.map (setOfRoutes state)).take cap) ∧
    ∀ (other : List Route) (steps : Nat), other.Perm pool →
      (enumerateSets state (other.map state.candidateOf) wanted cap steps).stepLimited = false →
      (enumerateSets state (other.map state.candidateOf) wanted cap steps).best =
        (enumerateSets state (pool.map state.candidateOf) wanted cap budget).best := by
  obtain ⟨ordered, is, kept⟩ := enumerate_sets_ordered wanted pool sound source target apart distinct paths cap budget unlimited
  refine ⟨⟨ordered, is, kept⟩, fun other steps perm alsoUnlimited => ?_⟩
  obtain ⟨otherOrdered, otherIs, otherKept⟩ := enumerate_sets_ordered wanted other sound source target apart
    (perm.nodup_iff.mpr distinct) (fun route member => paths route (perm.mem_iff.mp member)) cap steps alsoUnlimited
  rw [otherKept, kept, ordered_sets_unique wanted other pool perm otherOrdered ordered otherIs is]

def detourRequest : BuiltRequest :=
  .of (Sample.request .tree (Sample.star ["p", "q"]) 0 (Sample.fabric ["a", "b", "c"]
    [Sample.edge "e1" "a" "b" 10 1, Sample.edge "e2" "a" "c" 10 5, Sample.edge "e3" "b" "c" 10 1])
    [Sample.binding "p" "a", Sample.binding "q" "c"]) (draft_accepted _ (by decide +kernel))

def sharingState (request : PlanningRequest) : PlannerState where
  request
  perPathDemand := perPathShare request
  maxExpansions := 1
  enumerationBudget := 1

theorem sharing_state_sound (input : BuiltRequest) : PlannerState.Sound (sharingState input.request) := ⟨input.sound, rfl⟩

def detourState : PlannerState := sharingState detourRequest.request

theorem detour_drafted : detourState = sharingState (draftedRequest detourRequest.spec) := by
  rw [detourState, BuiltRequest.drafted]

def detourPool : List Route := [[1], [0, 2]]

theorem detour_paths : ∀ route ∈ detourPool, SimplePath detourState.request ⟨text "a"⟩ ⟨text "c"⟩ route := by
  rw [detour_drafted]
  have direct : SimplePath (draftedRequest detourRequest.spec) ⟨text "a"⟩ ⟨text "c"⟩ [1] :=
    ⟨by decide +kernel, by decide +kernel, by decide +kernel⟩
  have around : SimplePath (draftedRequest detourRequest.spec) ⟨text "a"⟩ ⟨text "c"⟩ [0, 2] :=
    ⟨by decide +kernel, by decide +kernel, by decide +kernel⟩
  exact List.forall_mem_cons.mpr ⟨direct, List.forall_mem_cons.mpr ⟨around, fun _ none => by cases none⟩⟩

theorem detour_sound : PlannerState.Sound detourState := sharing_state_sound detourRequest

theorem detour_unlimited :
    (enumerateSets detourState (detourPool.map detourState.candidateOf) 1 1 8).stepLimited = false := by
  rw [detour_drafted]
  decide +kernel

theorem detour_alternatives : ∃ ordered, Ordered detourState 1 detourPool ordered ∧
    (enumerateSets detourState (detourPool.map detourState.candidateOf) 1 1 8).best =
      (ordered.map (setOfRoutes detourState)).take 1 := by
  have alternatives := @best_alternatives detourState 1 detourPool detour_sound ⟨text "a"⟩ ⟨text "c"⟩ (by decide) (by decide)
    detour_paths 1 8 detour_unlimited
  exact alternatives.1

end EnumerateSets

end PathPlanner

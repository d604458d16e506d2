import PathPlanner.Planner.Compliance
import PathPlanner.Planner.Sets

set_option autoImplicit false

namespace PathPlanner

open Sequence Mapping Walk

abbrev CandidateKey := Nat ×ₗ Nat ×ₗ List EdgeIndex

def candidateKey (candidate : Candidate) : CandidateKey :=
  toLex (candidate.cost, toLex (candidate.edges.length, candidate.edges))

theorem candidate_less_key (lhs rhs : Candidate) : candidateLess lhs rhs ↔ candidateKey lhs < candidateKey rhs := by
  rw [candidateKey, candidateKey, Prod.Lex.toLex_lt_toLex, Prod.Lex.toLex_lt_toLex]
  rfl

theorem candidate_not_after_key (lhs rhs : Candidate) :
    candidateNotAfter lhs rhs ↔ candidateKey lhs ≤ candidateKey rhs := by
  rw [candidateNotAfter, candidate_less_key, not_lt]

theorem candidate_key_edges (lhs rhs : Candidate) (same : candidateKey lhs = candidateKey rhs) :
    lhs.edges = rhs.edges := by
  have inner := congrArg (fun key => (ofLex (ofLex key).2).2) same
  exact inner

theorem sort_candidates_perm (candidates : List Candidate) : (sortCandidates candidates).Perm candidates :=
  List.perm_insertionSort _ candidates

theorem sort_candidates_sorted (candidates : List Candidate) :
    (sortCandidates candidates).Pairwise fun a b => candidateKey a ≤ candidateKey b := by
  have total : Std.Total candidateNotAfter := ⟨fun a b => by
    rw [candidate_not_after_key, candidate_not_after_key]
    exact le_total _ _⟩
  have trans : IsTrans Candidate candidateNotAfter := ⟨fun a b c => by
    rw [candidate_not_after_key, candidate_not_after_key, candidate_not_after_key]
    exact le_trans⟩
  exact (List.pairwise_insertionSort candidateNotAfter candidates).imp fun {a b} notAfter =>
    (candidate_not_after_key a b).mp notAfter

-- Sorting a list that is strictly ordered already changes nothing.
theorem sort_candidates_strict (candidates : List Candidate)
    (sorted : candidates.Pairwise fun a b => candidateKey a < candidateKey b) : sortCandidates candidates = candidates :=
  List.Pairwise.insertionSort_eq (sorted.imp fun {a b} less => (candidate_not_after_key a b).mpr less.le)

namespace PlannerState.Sound

variable {state : PlannerState}

theorem head_index (sound : Sound state) (index : EdgeIndex) (stored : index < state.fabric.edges.length) :
    ∃ next, state.fabric.nodeIndex (headOf state.request index) = some next :=
  sound.request.fabric.targets _ (FabricGraph.edge_member _ index stored)

-- A list of node positions stands for a list of node identities.
def Matches (fabric : FabricGraph) (positions : List NodeIndex) (ids : List NodeId) : Prop :=
  ∀ id node, fabric.nodeIndex id = some node → (node ∈ positions ↔ id ∈ ids)

theorem matches_one (sound : Sound state) (id : NodeId) (node : NodeIndex) (found : state.fabric.nodeIndex id = some node) :
    Matches state.fabric [node] [id] := by
  intro other position stored
  rw [List.mem_singleton, List.mem_singleton]
  constructor
  · rintro rfl
    exact sound.request.fabric.node_index_injective other id position stored found
  · rintro rfl
    exact Option.some.inj (stored.symm.trans found)

theorem matches_snoc (sound : Sound state) (positions : List NodeIndex) (ids : List NodeId) (id : NodeId)
    (node : NodeIndex) (found : state.fabric.nodeIndex id = some node) (same : Matches state.fabric positions ids) :
    Matches state.fabric (positions ++ [node]) (ids ++ [id]) := by
  intro other position stored
  rw [List.mem_append, List.mem_append, same other position stored, sound.matches_one id node found other position stored]

theorem matches_cons (sound : Sound state) (positions : List NodeIndex) (ids : List NodeId) (id : NodeId)
    (node : NodeIndex) (found : state.fabric.nodeIndex id = some node) (same : Matches state.fabric positions ids) :
    Matches state.fabric (node :: positions) (id :: ids) := by
  intro other position stored
  rw [← List.singleton_append, ← List.singleton_append (l := ids), List.mem_append, List.mem_append,
    same other position stored, sound.matches_one id node found other position stored]

theorem forms_simple_iff (sound : Sound state) (edges : List EdgeIndex) (seen : List NodeIndex) (used : List EdgeIndex)
    (ids : List NodeId) (stored : ∀ index ∈ edges, index < state.fabric.edges.length)
    (same : Matches state.fabric seen ids) (met : ∀ index ∈ used, headOf state.request index ∈ ids) :
    formsSimplePath state.fabric seen used edges = true ↔
      (edges.map (headOf state.request)).Nodup ∧ ∀ index ∈ edges, headOf state.request index ∉ ids := by
  induction edges generalizing seen used ids with
  | nil => simp [formsSimplePath]
  | cons first rest ih =>
      obtain ⟨next, found⟩ := sound.head_index first (stored first (by simp))
      have known : state.fabric.nodeIndex (state.fabric.edge first).target = some next := found
      rw [formsSimplePath, known]
      simp only [Bool.and_eq_true, decide_eq_true_iff]
      rw [same _ next found, ih (seen ++ [next]) (used ++ [first]) (ids ++ [headOf state.request first])
        (fun index member => stored index (List.mem_cons_of_mem _ member))
        (sound.matches_snoc seen ids _ next found same) (by
          intro index member
          rcases List.mem_append.mp member with old | new
          · exact List.mem_append_left _ (met index old)
          · rw [List.mem_singleton.mp new]
            simp)]
      simp only [List.map_cons, List.nodup_cons, List.mem_map, List.mem_append, List.mem_cons, List.not_mem_nil,
        or_false, forall_eq_or_imp, not_or, not_exists, not_and]
      constructor
      · rintro ⟨⟨fresh, _⟩, distinct, others⟩
        exact ⟨⟨fun index member eq => (others index member).2 eq, distinct⟩, fresh, fun index member =>
          (others index member).1⟩
      · rintro ⟨⟨apart, distinct⟩, fresh, others⟩
        exact ⟨⟨fresh, fun member => fresh (met first member)⟩, distinct, fun index member =>
          ⟨others index member, fun eq => apart index member eq⟩⟩

theorem simple_path_iff (sound : Sound state) (edges : List EdgeIndex) (source : NodeIndex) (id : NodeId)
    (stored : ∀ index ∈ edges, index < state.fabric.edges.length) (found : state.fabric.nodeIndex id = some source) :
    edgesFormSimplePath state.fabric edges source = true ↔ (visited (headOf state.request) id edges).Nodup := by
  rw [edgesFormSimplePath, sound.forms_simple_iff edges [source] [] [id] stored (sound.matches_one id source found) (by simp),
    visited, List.nodup_cons]
  simp only [List.mem_singleton, List.mem_map, not_exists, not_and]
  exact and_comm

theorem signature_eq (sound : Sound state) (edges : List EdgeIndex) :
    (state.candidateOf edges).signature = routeSignature state.request edges := by
  have kept : (edges.filter fun index => (state.edge index).failureDomain.valid && (state.hopDomain index).valid) =
      edges.filter fun index => (state.edge index).failureDomain.valid := by
    refine List.filter_congr fun index _ => ?_
    cases valid : (state.edge index).failureDomain.valid with
    | false => rfl
    | true =>
        have level := domain_at_level_valid state.fabric sound.request.fabric (state.edge index).failureDomain
          state.policy.domainDiversityLevel valid
        simpa [PlannerState.hopDomain] using level
  by_cases none : state.policy.domainDiversity = .none
  · have blank : ∀ domains, signatureOf state.policy domains = [] := by
      intro domains
      unfold signatureOf
      rw [none]
    exact (blank _).trans (blank _).symm
  · rw [routeSignature]
    simp only [candidateOf, PlannerState.hopDomains, if_neg none, kept]
    rfl

theorem domain_known_iff (sound : Sound state) (edges : List EdgeIndex) :
    (state.candidateOf edges).domainKnown = true ↔ DomainsDeclared state.request edges := by
  simp only [candidateOf, List.all_eq_true, hopDomainKnown, Bool.and_eq_true, Bool.or_eq_true, DomainsDeclared]
  refine forall₂_congr fun index _ => ⟨fun both => both.1, fun valid => ⟨valid, Or.inr ?_⟩⟩
  exact domain_at_level_valid state.fabric sound.request.fabric _ _ valid

theorem independent_iff (sound : Sound state) (lhs rhs : Route) :
    domainsIndependent (state.candidateOf lhs) (state.candidateOf rhs) = true ↔ Independent state.request lhs rhs := by
  have listed : ∀ domain, binarySearch (state.candidateOf rhs).signature domain = true ↔
      domain ∈ routeSignature state.request rhs := by
    intro domain
    have sorted : (state.candidateOf rhs).signature.Pairwise (· ≤ ·) :=
      (signature_sorted _ _).imp fun less => le_of_lt less
    rw [binary_search_mem _ _ sorted, sound.signature_eq]
  rw [domainsIndependent, Bool.and_eq_true, Bool.and_eq_true, sound.domain_known_iff, sound.domain_known_iff,
    List.all_eq_true, sound.signature_eq lhs]
  simp only [Bool.not_eq_true', ← Bool.not_eq_true, listed]
  exact ⟨fun all => ⟨all.1.1, all.1.2, all.2⟩, fun independent =>
    ⟨⟨independent.left, independent.right⟩, independent.disjoint⟩⟩

theorem edge_disjoint_iff (lhs rhs : Route) :
    pathsEdgeDisjoint (state.candidateOf lhs) (state.candidateOf rhs) = true ↔ ∀ index ∈ lhs, index ∉ rhs := by
  simp only [pathsEdgeDisjoint, List.all_eq_true, decide_eq_true_iff]
  rfl

theorem node_disjoint_iff (lhs rhs : Route) :
    pathsNodeDisjoint state.fabric (state.candidateOf lhs) (state.candidateOf rhs) = true ↔
      ∀ node ∈ interior state.request lhs, node ∉ interior state.request rhs := by
  simp only [pathsNodeDisjoint, List.all_eq_true, decide_eq_true_iff]
  rfl

theorem reject_pair_iff (sound : Sound state) (chosenCount : Nat) (lhs rhs : Route) :
    EnumerateSets.rejectPair state chosenCount (state.candidateOf lhs) (state.candidateOf rhs) = .none ↔
      Separate state.request lhs rhs := by
  have edges := @edge_disjoint_iff state lhs rhs
  have nodes := @node_disjoint_iff state lhs rhs
  have domains := sound.independent_iff lhs rhs
  have known := sound.domain_known_iff rhs
  unfold EnumerateSets.rejectPair
  constructor
  · intro accepted
    split_ifs at accepted with sharedEdge sharedNode dependent unknown
    refine ⟨fun mode => edges.mp ?_, fun mode => nodes.mp ?_, fun mode => domains.mp ?_⟩
    · by_contra shared
      exact sharedEdge ⟨mode, by simpa using shared⟩
    · by_contra shared
      exact sharedNode ⟨mode, by simpa using shared⟩
    · by_contra shared
      exact dependent ⟨mode, by simpa using shared⟩
  · intro separate
    rw [if_neg, if_neg, if_neg, if_neg]
    · rintro ⟨mode, _, unknown⟩
      rw [known.mpr (separate.domains mode).right] at unknown
      simp at unknown
    · rintro ⟨mode, shared⟩
      rw [domains.mpr (separate.domains mode)] at shared
      simp at shared
    · rintro ⟨mode, shared⟩
      rw [nodes.mpr (separate.nodes mode)] at shared
      simp at shared
    · rintro ⟨mode, shared⟩
      rw [edges.mpr (separate.edges mode)] at shared
      simp at shared

end PlannerState.Sound

namespace Mapping

theorem independent_symm (request : PlanningRequest) (lhs rhs : Route) (independent : Independent request lhs rhs) :
    Independent request rhs lhs :=
  ⟨independent.right, independent.left, fun domain right left => independent.disjoint domain left right⟩

theorem separate_symm (request : PlanningRequest) (lhs rhs : Route) (separate : Separate request lhs rhs) :
    Separate request rhs lhs :=
  ⟨fun mode index right left => separate.edges mode index left right,
    fun mode node right left => separate.nodes mode node left right,
    fun mode => independent_symm request lhs rhs (separate.domains mode)⟩

end Mapping

end PathPlanner

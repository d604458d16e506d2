import PathPlanner.Planner.Assembled
import PathPlanner.Planner.Alternatives

set_option autoImplicit false

namespace PathPlanner.PlannerState

open Sequence Mapping ValidatePlan Checks

section Attachments

variable (first last : FailureDomainId)

theorem drop_attachments_done (domains : List FailureDomainId) : dropAttachments first last true true domains = domains := by
  induction domains with
  | nil => rfl
  | cons domain rest ih => simp [dropAttachments, ih]

-- Once the first domain is gone, the first occurrence of the last one goes too.
theorem drop_attachments_erase (domains : List FailureDomainId) :
    dropAttachments first last true false domains = domains.erase last := by
  induction domains with
  | nil => rfl
  | cons domain rest ih =>
      by_cases same : domain = last
      · simp [dropAttachments, same, drop_attachments_done]
      · simp [dropAttachments, same, ih]

end Attachments

-- Whatever occurrences the values strike, what stays is the interior up to its order.
theorem drop_attachments_perm (first : FailureDomainId) (rest : List FailureDomainId) :
    (dropAttachments first ((first :: rest).getLast (by simp)) false false (first :: rest)).Perm rest.dropLast := by
  have struck : dropAttachments first ((first :: rest).getLast (by simp)) false false (first :: rest) =
      rest.erase ((first :: rest).getLast (by simp)) := by
    rw [dropAttachments]
    simp [drop_attachments_erase]
  rw [struck]
  cases rest with
  | nil => exact List.Perm.refl _
  | cons second others =>
      have split := List.dropLast_append_getLast (List.cons_ne_nil second others)
      have ends : (first :: second :: others).getLast (by simp) = (second :: others).getLast (by simp) :=
        List.getLast_cons (by simp)
      have member : (second :: others).getLast (by simp) ∈ second :: others := List.getLast_mem _
      have withLast : (second :: others).Perm ((second :: others).getLast (by simp) :: (second :: others).dropLast) := by
        conv_lhs => rw [← split]
        exact List.perm_append_singleton _ _
      rw [ends]
      exact ((List.perm_cons_erase member).symm.trans withLast).cons_inv

-- The hops of a path other than its first and its last.
def interiorHops (edges : List EdgeIndex) : List EdgeIndex := edges.tail.dropLast

theorem signature_cons (policy : Policy) (diverse : policy.domainDiversity ≠ .none) (first : FailureDomainId)
    (rest : List FailureDomainId) : signatureOf policy (first :: rest) =
      sortUnique (dropAttachments first ((first :: rest).getLast (by simp)) false false (first :: rest)) := by
  unfold signatureOf
  cases diversity : policy.domainDiversity with
  | none => exact absurd diversity diverse
  | preferred => rfl
  | required => rfl

theorem signature_interior (policy : Policy) (diverse : policy.domainDiversity ≠ .none) (domains : List FailureDomainId)
    (domain : FailureDomainId) : domain ∈ signatureOf policy domains ↔ domain ∈ domains.tail.dropLast := by
  cases domains with
  | nil =>
      unfold signatureOf
      split <;> simp_all
  | cons first rest =>
      rw [signature_cons policy diverse, sort_unique_mem, (drop_attachments_perm first rest).mem_iff, List.tail_cons]

theorem hop_domains_declared (state : PlannerState) (sound : PlanningRequest.Sound state.request)
    (diverse : state.policy.domainDiversity ≠ .none) (edges : List EdgeIndex)
    (declared : ∀ index ∈ edges, (state.edge index).failureDomain.valid = true) :
    state.hopDomains edges = edges.map state.hopDomain := by
  rw [hopDomains, if_neg diverse, List.filter_eq_self.mpr]
  intro index member
  have valid := declared index member
  have level := domain_at_level_valid state.fabric sound.fabric (state.edge index).failureDomain
    state.policy.domainDiversityLevel valid
  rw [valid, Bool.true_and]
  exact level

-- What the validator gathers depends on the edges its hops name alone.
theorem hop_domains_named (request : PlanningRequest) (hops others : List Hop) (same : hops.map Hop.edge = others.map Hop.edge) :
    hopDomainsOf request hops = hopDomainsOf request others := by
  have named (list : List Hop) : hopDomainsOf request list =
      (list.map Hop.edge).filterMap fun id => hopDomainOf request { edge := id } := by
    rw [List.filterMap_map]
    rfl
  rw [named, named, same]

theorem route_hop_ids (request : PlanningRequest) (route : List EdgeIndex) :
    (route.map (PlanCollective.hopOf request)).map Hop.edge = route.map fun index => (request.fabric.edge index).id := by
  rw [List.map_map]
  rfl

theorem signature_is_interior (input : BuiltRequest) (state : PlannerState) (same : state.request = input.request)
    (edges : List EdgeIndex) (stored : ∀ index ∈ edges, index < state.fabric.edges.length) :
    (state.policy.domainDiversity ≠ .none → (∀ index ∈ edges, (state.edge index).failureDomain.valid = true) →
      ∀ source candidate, state.makeCandidate edges source = some candidate →
        candidate.signature.Pairwise (· < ·) ∧
          ∀ domain, domain ∈ candidate.signature ↔ domain ∈ (interiorHops edges).map state.hopDomain) ∧
    (∀ hops : List Hop, hops.map Hop.edge = edges.map (fun index => (state.edge index).id) →
      signatureOf state.policy (hopDomainsOf state.request hops) = (state.candidateOf edges).signature ∧
      ∀ sourceBinding targetBinding domains, checkHops state.request sourceBinding targetBinding hops = .ok domains →
        signatureOf state.policy domains = (state.candidateOf edges).signature) := by
  have sound : PlanningRequest.Sound state.request := same ▸ input.sound
  refine ⟨?_, ?_⟩
  · intro diverse declared source candidate made
    unfold makeCandidate at made
    split at made
    · obtain rfl := Option.some.inj made
      have gathered := hop_domains_declared state sound diverse edges declared
      refine ⟨signature_sorted _ _, fun domain => ?_⟩
      change domain ∈ signatureOf state.policy (state.hopDomains edges) ↔ _
      rw [signature_interior _ diverse, gathered, interiorHops, ← List.map_tail, ← List.map_dropLast]
    · cases made
  · intro hops names
    have mirrored : signatureOf state.policy (hopDomainsOf state.request hops) = (state.candidateOf edges).signature := by
      -- the share of the demand plays no part in a signature
      have shared : PlannerState.Sound { state with perPathDemand := perPathShare state.request } := ⟨sound, rfl⟩
      have route := shared.signature_eq edges
      rw [hop_domains_named state.request hops _ (names.trans (route_hop_ids state.request edges).symm)]
      exact (PlanCollective.hops_signature sound stored).trans route.symm
    refine ⟨mirrored, ?_⟩
    intro sourceBinding targetBinding domains checked
    obtain ⟨_, _, rfl⟩ := (@check_hops_ok state.request sourceBinding targetBinding hops domains).mp checked
    exact mirrored

def lineRequest : BuiltRequest :=
  .of { Sample.request .tree (Sample.star ["p", "q"]) 0 (Sample.fabric ["a", "b", "c", "d"]
      [Sample.edge "e1" "a" "b" 10 1, Sample.edge "e2" "b" "c" 10 1, Sample.edge "e3" "c" "d" 10 1])
      [Sample.binding "p" "a", Sample.binding "q" "d"] with
    policy := { generation := ⟨1⟩, domainDiversity := .required } } (draft_accepted _ (by decide +kernel))

def lineState : PlannerState := EnumerateSets.sharingState lineRequest.request

theorem sharing_state_request (request : PlanningRequest) : (EnumerateSets.sharingState request).request = request := rfl

def lineHops : List Hop := [0, 1, 2].map (PlanCollective.hopOf lineState.request)

theorem line_signature :
    (∀ domain, domain ∈ (lineState.candidateOf [0, 1, 2]).signature ↔
      domain ∈ (interiorHops [0, 1, 2]).map lineState.hopDomain) ∧
    signatureOf lineState.policy (hopDomainsOf lineState.request lineHops) = (lineState.candidateOf [0, 1, 2]).signature := by
  have checks : (∀ index ∈ [0, 1, 2], index < lineState.fabric.edges.length) ∧ lineState.policy.domainDiversity ≠ .none ∧
      (∀ index ∈ [0, 1, 2], (lineState.edge index).failureDomain.valid = true) ∧
      ([0, 1, 2].length ≤ lineState.policy.maxHops ∧ edgesFormSimplePath lineState.fabric [0, 1, 2] 0 = true) := by
    simp only [lineState, BuiltRequest.drafted]
    decide +kernel
  obtain ⟨stored, diverse, declared, simple⟩ := checks
  have made : lineState.makeCandidate [0, 1, 2] 0 = some (lineState.candidateOf [0, 1, 2]) := if_pos simple
  have facts := signature_is_interior lineRequest lineState (sharing_state_request lineRequest.request) [0, 1, 2] stored
  exact ⟨(facts.1 diverse declared 0 _ made).2, (facts.2 lineHops (route_hop_ids lineState.request [0, 1, 2])).1⟩

end PathPlanner.PlannerState

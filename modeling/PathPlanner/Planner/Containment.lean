import PathPlanner.FabricStages
import PathPlanner.Planner.Candidate

set_option autoImplicit false

namespace PathPlanner

open Checks Sequence

-- One declared step from a failure domain to the domain that contains it.
def ParentLink (domains : List FailureDomain) (child parent : FailureDomainId) : Prop :=
  ∃ domain ∈ domains, domain.id = child ∧ domain.parent = parent ∧ parent.valid = true

-- Zero or more parent links lead from the domain to its ancestor.
abbrev Under (domains : List FailureDomain) (domain ancestor : FailureDomainId) : Prop :=
  Relation.ReflTransGen (ParentLink domains) domain ancestor

def Declared (domains : List FailureDomain) (id : FailureDomainId) : Prop := id ∈ domains.map FailureDomain.id

namespace FabricGraph

variable {spec : FabricSpec} {graph : FabricGraph}

theorem parent_link_found (staged : Staged spec graph) (child parent : FailureDomainId) (domain : FailureDomain)
    (found : graph.findFailureDomain child = some domain) :
    ParentLink graph.failureDomains child parent ↔ domain.parent = parent ∧ parent.valid = true := by
  constructor
  · rintro ⟨other, member, named, link⟩
    have same := (staged.find_domain_iff child other).mpr ⟨member, named⟩
    rw [found, Option.some.injEq] at same
    rwa [same]
  · intro link
    obtain ⟨member, named⟩ := (staged.find_domain_iff child domain).mp found
    exact ⟨domain, member, named, link⟩

theorem parent_link_missing (staged : Staged spec graph) (child parent : FailureDomainId)
    (missing : graph.findFailureDomain child = none) : ¬ ParentLink graph.failureDomains child parent := by
  rintro ⟨domain, member, named, _⟩
  rw [(staged.find_domain_iff child domain).mpr ⟨member, named⟩] at missing
  cases missing

-- The walk to the root lists the ancestors of its start.
theorem containment_chain_mem (staged : Staged spec graph) (levels : Nat) (cursor : FailureDomainId)
    (chain : List FailureDomainId) (built : graph.containmentChain levels cursor = .ok chain) (ancestor : FailureDomainId) :
    ancestor ∈ chain ↔ cursor.valid = true ∧ Under graph.failureDomains cursor ancestor := by
  induction levels generalizing cursor chain with
  | zero =>
      unfold containmentChain at built
      by_cases ended : cursor.valid = false
      · rw [if_pos ended] at built
        obtain rfl := Except.ok.inj built
        simp [ended]
      · simp [if_neg ended] at built
  | succ levels ih =>
      unfold containmentChain at built
      by_cases ended : cursor.valid = false
      · rw [if_pos ended] at built
        obtain rfl := Except.ok.inj built
        simp [ended]
      · rw [if_neg ended] at built
        have valid : cursor.valid = true := by simpa using ended
        simp only at built
        rw [Under, Relation.ReflTransGen.cases_head_iff]
        cases found : graph.findFailureDomain cursor with
        | none =>
            rw [found] at built
            obtain rfl := Except.ok.inj built
            simp only [List.mem_singleton, valid, true_and]
            constructor
            · exact fun same => Or.inl same.symm
            · rintro (same | ⟨next, link, _⟩)
              · exact same.symm
              · exact absurd link (parent_link_missing staged cursor next found)
        | some domain =>
            rw [found] at built
            obtain ⟨rest, restBuilt, eq⟩ := (bind_ok _ _ _).mp built
            obtain rfl := Except.ok.inj eq
            rw [List.mem_cons, ih domain.parent rest restBuilt]
            simp only [valid, true_and, parent_link_found staged cursor _ domain found]
            constructor
            · rintro (same | ⟨named, above⟩)
              · exact Or.inl same.symm
              · exact Or.inr ⟨domain.parent, ⟨rfl, named⟩, above⟩
            · rintro (same | ⟨next, ⟨rfl, named⟩, above⟩)
              · exact Or.inl same.symm
              · exact Or.inr ⟨named, above⟩

def kindOf (fabric : FabricGraph) (id : FailureDomainId) : Nat := ((fabric.findFailureDomain id).map fun domain => domain.kind.raw).getD 0

-- A parent is of a strictly wider kind than its child.
theorem parent_link_wider (staged : Staged spec graph) (child parent : FailureDomainId)
    (link : ParentLink graph.failureDomains child parent) : graph.kindOf child < graph.kindOf parent := by
  obtain ⟨domain, member, rfl, rfl, valid⟩ := link
  have checked := staged.parents domain member
  unfold checkParent at checked
  rw [if_neg (by simp [valid])] at checked
  cases found : graph.findFailureDomain domain.parent with
  | none => simp [found] at checked
  | some parent =>
      rw [found] at checked
      simp only [deny_ok, not_not] at checked
      have here := (staged.find_domain_iff domain.id domain).mpr ⟨member, rfl⟩
      simpa [kindOf, found, here] using checked

theorem ancestors_wider (staged : Staged spec graph) (domain ancestor : FailureDomainId)
    (above : Relation.TransGen (ParentLink graph.failureDomains) domain ancestor) :
    graph.kindOf domain < graph.kindOf ancestor := by
  induction above with
  | single link => exact parent_link_wider staged _ _ link
  | tail _ link ih => exact ih.trans (parent_link_wider staged _ _ link)

theorem parent_links_acyclic (staged : Staged spec graph) (domain : FailureDomainId) :
    ¬ Relation.TransGen (ParentLink graph.failureDomains) domain domain := fun cycle =>
  absurd (ancestors_wider staged domain domain cycle) (lt_irrefl _)

theorem chain_of_declared (staged : Staged spec graph) (id : FailureDomainId) (declared : Declared graph.failureDomains id) :
    graph.containmentChain kMaxHierarchyLevels id = .ok (graph.domainChain id) := by
  obtain ⟨position, stored⟩ := List.getElem?_of_mem declared
  have each := containment_chains_each graph _ _ staged.chains
  rw [domainChain, (staged.domain_at id position).mpr stored]
  rw [List.getElem?_map] at stored
  obtain ⟨domain, taken, rfl⟩ := Option.map_eq_some_iff.mp stored
  obtain ⟨bound, rfl⟩ := List.getElem?_eq_some_iff.mp taken
  have inside : position < graph.domainChains.length := each.length_eq ▸ bound
  simp only [List.getD_eq_getElem?_getD, List.getElem?_eq_getElem inside, Option.getD_some]
  exact each.get bound inside

theorem chain_of_undeclared (staged : Staged spec graph) (id : FailureDomainId)
    (undeclared : ¬ Declared graph.failureDomains id) : graph.domainChain id = [] := by
  rw [domainChain]
  cases stored : graph.domainPositions.find id with
  | none => rfl
  | some position => exact absurd (List.mem_of_getElem? ((staged.domain_at id position).mp stored)) undeclared

theorem declared_valid (staged : Staged spec graph) (id : FailureDomainId) (declared : Declared graph.failureDomains id) :
    id.valid = true := by
  obtain ⟨domain, member, rfl⟩ := List.mem_map.mp declared
  rw [staged.domains] at member
  have named := staged.domainNames domain ((List.perm_insertionSort _ _).mem_iff.mp member)
  simp only [checkDomainNames, then_ok, deny_ok, Bool.not_eq_false] at named
  exact (valid_iff_nonempty _).mpr (valid_identifier_nonempty _ _ named.1)

theorem domain_contains_iff (staged : Staged spec graph) (ancestor candidate : FailureDomainId) :
    graph.domainContains ancestor candidate = true ↔
      Declared graph.failureDomains candidate ∧ Under graph.failureDomains candidate ancestor := by
  rw [domainContains, Bool.and_eq_true, Bool.and_eq_true]
  by_cases declared : Declared graph.failureDomains candidate
  · have valid := declared_valid staged candidate declared
    have chain := chain_of_declared staged candidate declared
    have listed := containment_chain_mem staged _ candidate _ chain ancestor
    have any : (graph.domainChain candidate).any (· = ancestor) = true ↔ ancestor ∈ graph.domainChain candidate := by
      simp
    rw [any, listed]
    constructor
    · exact fun ⟨_, _, above⟩ => ⟨declared, above⟩
    · rintro ⟨_, above⟩
      exact ⟨⟨containment_chain_valid graph _ _ _ chain ancestor (listed.mpr ⟨valid, above⟩), valid⟩, valid, above⟩
  · rw [chain_of_undeclared staged candidate declared]
    simp [declared]

-- The ancestors of a declared domain are declared.
theorem ancestor_declared (staged : Staged spec graph) (domain ancestor : FailureDomainId)
    (declared : Declared graph.failureDomains domain) (above : Under graph.failureDomains domain ancestor) :
    Declared graph.failureDomains ancestor := by
  induction above with
  | refl => exact declared
  | tail _ link ih =>
      obtain ⟨record, member, _, rfl, valid⟩ := link
      obtain ⟨parent, inside, named⟩ := (staged_faithful spec graph staged).parents record member valid
      exact List.mem_map.mpr ⟨parent, inside, named⟩

-- The walk stops at a domain without a parent.
theorem containment_chain_ends (staged : Staged spec graph) (levels : Nat) (cursor : FailureDomainId)
    (chain : List FailureDomainId) (built : graph.containmentChain levels cursor = .ok chain) (valid : cursor.valid = true) :
    ∃ root, chain.getLast? = some root ∧ ∀ parent, ¬ ParentLink graph.failureDomains root parent := by
  induction levels generalizing cursor chain with
  | zero =>
      unfold containmentChain at built
      rw [if_neg (by simp [valid])] at built
      cases built
  | succ levels ih =>
      unfold containmentChain at built
      rw [if_neg (by simp [valid])] at built
      cases found : graph.findFailureDomain cursor with
      | none =>
          simp only [found] at built
          obtain rfl := Except.ok.inj built
          exact ⟨cursor, rfl, fun parent => parent_link_missing staged cursor parent found⟩
      | some domain =>
          simp only [found] at built
          obtain ⟨rest, restBuilt, eq⟩ := (bind_ok _ _ _).mp built
          obtain rfl := Except.ok.inj eq
          by_cases named : domain.parent.valid = true
          · obtain ⟨root, last, top⟩ := ih domain.parent rest restBuilt named
            refine ⟨root, ?_, top⟩
            rw [List.getLast?_cons, last]
            rfl
          · unfold containmentChain at restBuilt
            rw [if_pos (by simpa using named)] at restBuilt
            obtain rfl := Except.ok.inj restBuilt
            refine ⟨cursor, rfl, fun parent link => ?_⟩
            obtain ⟨rfl, present⟩ := (parent_link_found staged cursor parent domain found).mp link
            exact named present

theorem domain_forbidden_under (staged : Staged spec graph) (policy : Policy) (domain : FailureDomainId)
    (declared : domain.valid = true → Declared graph.failureDomains domain) :
    domainForbidden graph policy domain = true ↔ domain.valid = true ∧
      ∃ forbidden ∈ policy.forbiddenFailureDomains, Under graph.failureDomains domain forbidden := by
  rw [domainForbidden, Bool.and_eq_true, List.any_eq_true]
  refine and_congr_right fun valid => exists_congr fun forbidden => and_congr_right fun _ => ?_
  rw [domain_contains_iff staged, and_iff_right (declared valid)]

theorem edge_domain_declared (staged : Staged spec graph) (index : EdgeIndex)
    (valid : (graph.edge index).failureDomain.valid = true) : Declared graph.failureDomains (graph.edge index).failureDomain := by
  by_cases bound : index < graph.edges.length
  · obtain ⟨domain, member, named⟩ :=
      (staged_faithful spec graph staged).edgeDomains _ (edge_member graph index bound) valid
    exact List.mem_map.mpr ⟨domain, member, named⟩
  · have absent : graph.edge index = {} := by
      simp [edge, List.getD_eq_getElem?_getD, List.getElem?_eq_none (not_lt.mp bound)]
    rw [absent] at valid
    cases valid

end FabricGraph

-- The same planner with other forbidden failure domains.
def PlannerState.forbidding (state : PlannerState) (domains : List FailureDomainId) : PlannerState :=
  { state with request := { state.request with policy := { state.request.policy with forbiddenFailureDomains := domains } } }

-- Containment in a built fabric is the ancestor order of the declared domains.
structure Containment (spec : FabricSpec) (fabric : FabricGraph) : Prop where
  acyclic : ∀ domain, ¬ Relation.TransGen (ParentLink spec.failureDomains) domain domain
  terminates : ∀ id, Declared spec.failureDomains id →
    fabric.containmentChain kMaxHierarchyLevels id = .ok (fabric.domainChain id) ∧
      ∃ root, (fabric.domainChain id).getLast? = some root ∧ ∀ parent, ¬ ParentLink spec.failureDomains root parent
  ancestors : ∀ ancestor candidate, fabric.domainContains ancestor candidate = true ↔
    Declared spec.failureDomains candidate ∧ Under spec.failureDomains candidate ancestor
  reflexive : ∀ id, Declared spec.failureDomains id → fabric.domainContains id id = true
  antisymmetric : ∀ a b, fabric.domainContains a b = true → fabric.domainContains b a = true → a = b
  transitive : ∀ a b c, fabric.domainContains a b = true → fabric.domainContains b c = true → fabric.domainContains a c = true
  forbids : ∀ (state : PlannerState) (forbidden : List FailureDomainId) (index : EdgeIndex), state.fabric = fabric →
    ((state.forbidding forbidden).edgeAllowed index = true ↔ (state.forbidding []).edgeAllowed index = true ∧
      ¬ ((state.edge index).failureDomain.valid = true ∧
        ∃ domain ∈ forbidden, Under spec.failureDomains (state.edge index).failureDomain domain))

theorem forbidding_excludes (state : PlannerState) (forbidden : List FailureDomainId) (index : EdgeIndex) :
    (state.forbidding forbidden).edgeAllowed index = ((state.forbidding []).edgeAllowed index &&
      !domainForbidden state.fabric (state.forbidding forbidden).policy (state.edge index).failureDomain) := by
  have free : domainForbidden state.fabric (state.forbidding []).policy (state.edge index).failureDomain = false := by
    simp [domainForbidden, PlannerState.forbidding, PlannerState.policy]
  change (_ && _ && _ && !domainForbidden state.fabric (state.forbidding forbidden).policy (state.edge index).failureDomain && _) =
    (_ && _ && _ && !domainForbidden state.fabric (state.forbidding []).policy (state.edge index).failureDomain && _ && _)
  rw [free, Bool.not_false, Bool.and_true, Bool.and_right_comm]
  rfl

open FabricGraph in
theorem containment_is_ancestry (spec : FabricSpec) (fabric : FabricGraph) (built : FabricGraph.build spec = .ok fabric) :
    Containment spec fabric := by
  have staged := build_staged spec fabric built
  have perm := (staged_faithful spec fabric staged).domains
  have links : ParentLink spec.failureDomains = ParentLink fabric.failureDomains := by
    funext child parent
    exact propext (exists_congr fun domain => and_congr_left' perm.mem_iff.symm)
  have under : Under spec.failureDomains = Under fabric.failureDomains := congrArg Relation.ReflTransGen links
  have declares (id : FailureDomainId) : Declared spec.failureDomains id ↔ Declared fabric.failureDomains id :=
    (perm.map FailureDomain.id).mem_iff.symm
  have ancestors (ancestor candidate : FailureDomainId) : fabric.domainContains ancestor candidate = true ↔
      Declared spec.failureDomains candidate ∧ Under spec.failureDomains candidate ancestor := by
    rw [domain_contains_iff staged, declares, under]
  refine {
    acyclic := links ▸ parent_links_acyclic staged
    terminates := fun id declared => ?_
    ancestors := ancestors
    reflexive := fun id declared => (ancestors id id).mpr ⟨declared, .refl⟩
    antisymmetric := fun a b first second => ?_
    transitive := fun a b c first second => ?_
    forbids := fun state forbidden index same => ?_ }
  · have chain := chain_of_declared staged id ((declares id).mp declared)
    rw [links]
    exact ⟨chain, containment_chain_ends staged _ id _ chain (declared_valid staged id ((declares id).mp declared))⟩
  · have above := (domain_contains_iff staged a b).mp first
    have below := (domain_contains_iff staged b a).mp second
    rcases Relation.reflTransGen_iff_eq_or_transGen.mp above.2 with same | up
    · exact same
    · exact absurd (up.trans_left below.2) (parent_links_acyclic staged b)
  · have above := (ancestors a b).mp first
    have below := (ancestors b c).mp second
    exact (ancestors a c).mpr ⟨below.1, below.2.trans above.2⟩
  · rw [forbidding_excludes, Bool.and_eq_true, Bool.not_eq_true', ← Bool.not_eq_true, under]
    have declared := edge_domain_declared staged index
    rw [← same] at declared staged ⊢
    rw [domain_forbidden_under staged (state.forbidding forbidden).policy _ declared]
    rfl

theorem nested_containment : ∃ fabric, FabricGraph.build Sample.nested = .ok fabric ∧ Containment Sample.nested fabric := by
  obtain ⟨fabric, built⟩ := FabricGraph.accepted_graph Sample.nested Sample.nested_accepted
  exact ⟨fabric, built, containment_is_ancestry Sample.nested fabric built⟩

end PathPlanner

import PathPlanner.Planner.PlanContract
import PathPlanner.PlanAudit

set_option autoImplicit false

namespace PathPlanner

open Mapping SolveGlobal Ranking

theorem fold_weaker_unknown (start : EvidenceClass) (classes : List EvidenceClass) :
    classes.foldl weakerEvidence start = .unknown ↔ start = .unknown ∨ .unknown ∈ classes := by
  induction classes generalizing start with
  | nil => simp
  | cons first rest ih =>
      rw [List.foldl_cons, ih, List.mem_cons, ← or_assoc]
      refine or_congr_left ?_
      cases start <;> cases first <;> decide

namespace PlanCollective

variable {request : PlanningRequest} {limits : PlannerLimits} {plan : Plan}

theorem path_evidence_unknown (route : Route) :
    (stateOf request).pathEvidence route = .unknown ↔ ∃ index ∈ route, (request.fabric.edge index).evidence = .unknown := by
  rw [PlannerState.pathEvidence, fold_weaker_unknown, List.mem_map, or_iff_right (by decide)]
  rfl

theorem path_bottleneck_zero (route : Route) (index : EdgeIndex) (crossed : index ∈ route)
    (unverified : (request.fabric.edge index).capacityMbps = 0) : (stateOf request).pathBottleneck route = 0 := by
  have spare : (stateOf request).spare index = 0 := if_pos (Or.inl unverified)
  have least := ((le_fold_min _ (route.map (stateOf request).spare) kCostCeiling).mp le_rfl).2 0
    (List.mem_map.mpr ⟨index, crossed, spare⟩)
  unfold PlannerState.pathBottleneck
  dsimp only
  split_ifs
  · rfl
  · omega

-- A path crosses an edge of which a property holds.
def Crosses (request : PlanningRequest) (holds : Edge → Prop) (path : PathPlan) : Prop :=
  ∃ hop ∈ path.hops, ∃ edge, request.fabric.findEdge hop.edge = some edge ∧ holds edge

def Unverified (edge : Edge) : Prop := edge.capacityMbps = 0

def DeclaredUnknown (edge : Edge) : Prop := edge.evidence = .unknown

instance : DecidablePred Unverified := fun edge => inferInstanceAs (Decidable (edge.capacityMbps = 0))

instance : DecidablePred DeclaredUnknown := fun edge => inferInstanceAs (Decidable (edge.evidence = .unknown))

theorem crosses_iff (sound : PlanningRequest.Sound request) (holds : Edge → Prop) (id index : Nat) (route : Route)
    (stored : ∀ edge ∈ route, edge < request.fabric.edges.length) :
    Crosses request holds (pathFor request id index route) ↔ ∃ edge ∈ route, holds (request.fabric.edge edge) := by
  unfold Crosses pathFor
  simp only [List.mem_map, exists_exists_and_eq_and]
  refine exists_congr fun edge => and_congr_right fun member => ?_
  rw [hop_edge_id, sound.fabric.find_edge_index edge (stored edge member)]
  simp

-- What the plan has to say of a path that relies on capacity nobody verified.
structure GapVisible (request : PlanningRequest) (plan : Plan) : Prop where
  bottleneck : ∀ path ∈ plan.paths, Crosses request Unverified path → path.bottleneckMbps = 0 ∧ plan.stats.bottleneckMbps = 0
  evidence : ∀ path ∈ plan.paths, Crosses request Unverified path →
    path.weakestEvidence = .unknown ∧ plan.weakestEvidence = .unknown

-- Zero capacity always shows as a zero bottleneck; the label follows what the edges declare and nothing else.
theorem planned_gap (input : BuiltRequest) (planned : (planCollective input.request limits).plan = some plan) (path : PathPlan)
    (member : path ∈ plan.paths) :
    (Crosses input.request Unverified path → path.bottleneckMbps = 0 ∧ plan.stats.bottleneckMbps = 0) ∧
      (path.weakestEvidence = .unknown ↔ Crosses input.request DeclaredUnknown path) ∧
      (path.weakestEvidence = .unknown → plan.weakestEvidence = .unknown) := by
  have valid := ValidatePlan.validate_plan_ok.mp (planned_valid input planned)
  obtain ⟨best, assignment, _, rfl, assembles, _⟩ := planned_assembles input.sound planned
  obtain ⟨id, index, route, _, ⟨_, _, compliant⟩, same⟩ := assembled_path input.sound best assembles path member
  have crosses := fun holds => crosses_iff input.sound holds id index route compliant.stored
  refine ⟨fun unverified => ?_, ?_, fun unknown => ?_⟩
  · have zero : path.bottleneckMbps = 0 := by
      obtain ⟨edge, crossed, empty⟩ := (crosses Unverified).mp (same ▸ unverified)
      rw [same]
      change UInt64.ofNat ((stateOf input.request).pathBottleneck route) = 0
      rw [path_bottleneck_zero route edge crossed empty]
      rfl
    refine ⟨zero, UInt64.toNat_inj.mp ?_⟩
    obtain ⟨hop, hopIn, _⟩ := unverified
    have occupied : path ∈ ValidatePlan.occupied (assembled input.request limits best).paths :=
      List.mem_filter.mpr ⟨member, by simpa using List.ne_nil_of_mem hopIn⟩
    have least := ((le_fold_min _ ((ValidatePlan.occupied (assembled input.request limits best).paths).map
      fun path => path.bottleneckMbps.toNat) kCostCeiling).mp le_rfl).2 0 (List.mem_map.mpr ⟨path, occupied, by simp [zero]⟩)
    rw [valid.stats.bottleneck, ValidatePlan.bottleneck, if_neg (List.ne_nil_of_mem occupied)]
    exact Nat.le_zero.mp least
  · rw [same]
    exact (path_evidence_unknown route).trans (crosses DeclaredUnknown).symm
  · rw [ValidatePlan.evidence_raw_injective _ _ valid.stats.weakest, ValidatePlan.weakest, fold_weaker_unknown]
    exact Or.inr (List.mem_map.mpr ⟨path, member, unknown⟩)

-- The gap shows exactly when every path over an unverified edge also crosses an edge declared unknown.
theorem gap_visible_iff (input : BuiltRequest) (limits : PlannerLimits) (plan : Plan)
    (planned : (planCollective input.request limits).plan = some plan) :
    (GapVisible input.request plan ↔
      ∀ path ∈ plan.paths, Crosses input.request Unverified path → Crosses input.request DeclaredUnknown path) ∧
    ((∀ edge ∈ input.request.fabric.edges, Unverified edge → DeclaredUnknown edge) → GapVisible input.request plan) := by
  have gap := planned_gap input planned
  have iff : GapVisible input.request plan ↔
      ∀ path ∈ plan.paths, Crosses input.request Unverified path → Crosses input.request DeclaredUnknown path := by
    constructor
    · intro visible path member unverified
      exact (gap path member).2.1.mp (visible.evidence path member unverified).1
    · intro declared
      refine ⟨fun path member => (gap path member).1, fun path member unverified => ?_⟩
      have unknown := (gap path member).2.1.mpr (declared path member unverified)
      exact ⟨unknown, (gap path member).2.2 unknown⟩
  refine ⟨iff, fun every => iff.mpr fun path _ ⟨hop, hopIn, edge, found, unverified⟩ => ⟨hop, hopIn, edge, found, ?_⟩⟩
  obtain ⟨index, inside, rfl, _⟩ := input.sound.fabric.find_edge_some _ _ found
  exact every _ (by simp [FabricGraph.edge, List.getD_eq_getElem?_getD, inside]) unverified

-- One edge of unknown capacity, which calls itself as given; the policy lets it be used.
def looseSpec (evidence : EvidenceClass) : RequestSpec :=
  { Sample.request .tree (Sample.star ["p", "q"]) 10
      (Sample.fabric ["a", "b"] [{ Sample.edge "e1" "a" "b" 0 5 with evidence }])
      [Sample.binding "p" "a", Sample.binding "q" "b"] with
    policy := { generation := ⟨1⟩, allowUnverifiedCapacity := true } }

def boastfulRequest : BuiltRequest := .of (looseSpec .measured) (draft_accepted _ (by decide +kernel))

def candidRequest : BuiltRequest := .of (looseSpec .unknown) (draft_accepted _ (by decide +kernel))

def loosePlan (input : BuiltRequest) : Plan := (planCollective input.request {}).plan.getD {}

theorem loose_planned (input : BuiltRequest) (some : (planCollective input.request {}).plan.isSome = true) :
    (planCollective input.request {}).plan = .some (loosePlan input) := by
  obtain ⟨plan, planned⟩ := Option.isSome_iff_exists.mp some
  rw [loosePlan, planned, Option.getD_some]

-- The plan rests on unverified capacity alone and is labelled as measured.
theorem boastful_unseen : (loosePlan boastfulRequest).weakestEvidence = .measured ∧
    ¬ ∀ (input : BuiltRequest) (limits : PlannerLimits) (plan : Plan), (planCollective input.request limits).plan = some plan →
      GapVisible input.request plan := by
  have facts : (loosePlan boastfulRequest).weakestEvidence = .measured ∧
      (planCollective boastfulRequest.request {}).plan.isSome = true ∧
      ∃ path ∈ (loosePlan boastfulRequest).paths, ∃ hop ∈ path.hops,
        ((boastfulRequest.request.fabric.findEdge hop.edge).any fun edge => decide (Unverified edge)) = true := by
    simp only [loosePlan, BuiltRequest.drafted]
    decide +kernel
  obtain ⟨label, planned, crossing⟩ := facts
  refine ⟨label, fun every => ?_⟩
  obtain ⟨path, member, hop, hopIn, unverified⟩ := crossing
  obtain ⟨edge, found, empty⟩ := (Option.any_eq_true _ _).mp unverified
  have seen := (every boastfulRequest {} _ (loose_planned boastfulRequest planned)).evidence path member
    ⟨hop, hopIn, edge, found, of_decide_eq_true empty⟩
  rw [label] at seen
  exact EvidenceClass.noConfusion seen.2

theorem candid_visible : GapVisible candidRequest.request (loosePlan candidRequest) := by
  have facts : (planCollective candidRequest.request {}).plan.isSome = true ∧
      ∀ edge ∈ candidRequest.request.fabric.edges, Unverified edge → DeclaredUnknown edge := by
    simp only [BuiltRequest.drafted]
    decide +kernel
  exact (gap_visible_iff candidRequest {} _ (loose_planned candidRequest facts.1)).2 facts.2

end PlanCollective

end PathPlanner

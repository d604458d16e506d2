import PathPlanner.Plan

set_option autoImplicit false

namespace PathPlanner

inductive PlanFreshness where
  | current | staleTopology | staleFailureDomains | staleCapacityEvidence | stalePolicy | stalePlanGeneration | unverified
deriving DecidableEq, Repr

def PlanFreshness.raw : PlanFreshness → Nat
  | .current => 0
  | .staleTopology => 1
  | .staleFailureDomains => 2
  | .staleCapacityEvidence => 3
  | .stalePolicy => 4
  | .stalePlanGeneration => 5
  | .unverified => 6

-- The first generation that differs names the staleness.
def assessFreshness (plan : Plan) (current : GenerationBindings) : PlanFreshness :=
  if plan.bindings = current then .current
  else if plan.bindings.topology ≠ current.topology then .staleTopology
  else if plan.bindings.failureDomains ≠ current.failureDomains then .staleFailureDomains
  else if plan.bindings.capacityEvidence ≠ current.capacityEvidence then .staleCapacityEvidence
  else if plan.bindings.policy ≠ current.policy then .stalePolicy
  else .stalePlanGeneration

def describeFreshness : PlanFreshness → ErrorCode × Bytes
  | .current => (.ok, text "the plan was produced from exactly these generations")
  | .staleTopology =>
      (.staleTopologyGeneration, text "the physical topology generation has changed since this plan was produced")
  | .staleFailureDomains =>
      (.staleFailureDomainGeneration, text "the failure-domain generation has changed since this plan was produced")
  | .staleCapacityEvidence =>
      (.staleCapacityEvidenceGeneration, text "the capacity-evidence generation has changed since this plan was produced")
  | .stalePolicy => (.stalePolicyGeneration, text "the policy generation has changed since this plan was produced")
  | .stalePlanGeneration => (.stalePlanGeneration, text "the plan generation has advanced past this plan")
  | .unverified => (.revalidationRequired, text "the plan was reopened from storage and has not been revalidated")

def namesStaleness (code : ErrorCode) : Bool :=
  code ∈ [.staleTopologyGeneration, .staleFailureDomainGeneration, .staleCapacityEvidenceGeneration, .stalePolicyGeneration,
    .stalePlanGeneration]

theorem assess_current (plan : Plan) (current : GenerationBindings) :
    assessFreshness plan current = .current ↔ plan.bindings = current := by
  unfold assessFreshness
  split_ifs <;> simp_all

theorem assess_verified (plan : Plan) (current : GenerationBindings) : assessFreshness plan current ≠ .unverified := by
  unfold assessFreshness
  split_ifs <;> simp

theorem describe_ok (freshness : PlanFreshness) : (describeFreshness freshness).1 = .ok ↔ freshness = .current := by
  cases freshness <;> simp [describeFreshness]

theorem describe_stale (freshness : PlanFreshness) :
    namesStaleness (describeFreshness freshness).1 = true ↔ freshness ≠ .current ∧ freshness ≠ .unverified := by
  cases freshness <;> decide

end PathPlanner

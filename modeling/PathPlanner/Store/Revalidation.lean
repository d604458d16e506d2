import PathPlanner.Freshness
import PathPlanner.Store.Bounds

set_option autoImplicit false

namespace PathPlanner

open Checks Codec PlanCollective StoreFiles StoreRecord ValidatePlan

def PlanningOutcome.primaryCode (outcome : PlanningOutcome) : ErrorCode :=
  match outcome.plan, outcome.denials with
  | some _, _ => .ok
  | none, denial :: _ => denial.code
  | none, [] => .internalError

def replan (request : PlanningRequest) : Result Plan :=
  let outcome := planCollective request {}
  match outcome.plan with
  | some plan => .ok plan
  | none => .error ⟨outcome.primaryCode, (outcome.denials.head?.map DenialDetail.message).getD (text "replanning was refused")⟩

structure RevalidationResult where
  stillValid : Bool := false
  freshness : PlanFreshness := .unverified
  code : ErrorCode := .ok
  currentInputDigest : Digest := Digest.zero
  storedInputDigest : Digest := Digest.zero
  replanned : Option Plan := none
  detail : Bytes := []

namespace PlanStore

def replanNote (current : PlanningRequest) : Bytes :=
  match replan current with
  | .ok plan => text "; a plan for the current inputs is available as " ++ plan.id.value.hex
  | .error status => text "; replanning under the current inputs is refused: " ++ status.toText

-- A record of an earlier opening is named as such, whatever else is said of it.
def incarnationNote (store : PlanStore) (entry : StoreEntry) : Bytes :=
  if entry.summary.writtenIncarnation = store.incarnation then []
  else
    text "; the record was written under incarnation " ++ decimal entry.summary.writtenIncarnation.value.toNat ++
      text " and this store now runs under incarnation " ++ decimal store.incarnation.value.toNat

def assessStored (store : PlanStore) (entry : StoreEntry) (plan : Plan) (current : PlanningRequest) : RevalidationResult :=
  let freshness := assessFreshness plan current.currentBindings
  if plan.inputDigest = current.canonicalDigest ∧ plan.bindings = current.currentBindings then
    { stillValid := true
      freshness
      code := .ok
      currentInputDigest := current.canonicalDigest
      storedInputDigest := plan.inputDigest
      detail := text "the stored plan was produced from exactly these generations" ++ incarnationNote store entry }
  else
    let (code, description) := describeFreshness freshness
    { stillValid := false
      freshness
      code
      currentInputDigest := current.canonicalDigest
      storedInputDigest := plan.inputDigest
      replanned := (replan current).toOption
      detail := description ++
        (if plan.inputDigest ≠ current.canonicalDigest then
          text "; the current inputs hash to " ++ current.canonicalDigest.hex
        else []) ++
        replanNote current ++ incarnationNote store entry }

def revalidate (env : Environment) (dir : Directory) (store : PlanStore) (id : CollectivePlanId) (current : PlanningRequest) :
    Result RevalidationResult := do
  let entry ← findEntry store id
  let bytes ← readFile env store.config.root dir entry.path store.config.maxRecordBytes
  let (plan, _) ← decodePlanRecord bytes
  .ok (assessStored store entry plan current)

-- A revalidation succeeds where the stored plan can be read, and is about that plan.
theorem revalidate_ok (env : Environment) (dir : Directory) (store : PlanStore) (id : CollectivePlanId) (current : PlanningRequest)
    (result : RevalidationResult) : revalidate env dir store id current = .ok result ↔
      ∃ entry plan, findEntry store id = .ok entry ∧ get env dir store id = .ok plan ∧
        result = assessStored store entry plan current := by
  constructor
  · intro answered
    obtain ⟨entry, found, answered⟩ := (bind_ok _ _ _).mp answered
    obtain ⟨bytes, read, answered⟩ := (bind_ok _ _ _).mp answered
    obtain ⟨⟨plan, summary⟩, decoded, answered⟩ := (bind_ok _ _ _).mp answered
    cases answered
    refine ⟨entry, plan, found, (bind_ok _ _ _).mpr ⟨entry, found, (bind_ok _ _ _).mpr ⟨bytes, read, ?_⟩⟩, rfl⟩
    exact (bind_ok _ _ _).mpr ⟨(plan, summary), decoded, rfl⟩
  · rintro ⟨entry, plan, found, held, answer⟩
    obtain ⟨again, same, held⟩ := (bind_ok _ _ _).mp held
    cases found.symm.trans same
    obtain ⟨bytes, read, held⟩ := (bind_ok _ _ _).mp held
    obtain ⟨⟨stored, summary⟩, decoded, held⟩ := (bind_ok _ _ _).mp held
    cases held
    refine (bind_ok _ _ _).mpr ⟨entry, found, (bind_ok _ _ _).mpr ⟨bytes, read, (bind_ok _ _ _).mpr ⟨_, decoded, ?_⟩⟩⟩
    rw [answer]

structure ConsistentAnswer (plan : Plan) (current : PlanningRequest) (result : RevalidationResult) : Prop where
  code : result.code = .ok ↔ result.stillValid = true
  valid : result.stillValid = true ↔ plan.inputDigest = current.canonicalDigest ∧ plan.bindings = current.currentBindings
  freshness : result.stillValid = false → result.freshness ≠ .current
  staleness : result.stillValid = false → namesStaleness result.code = true

theorem assessed_consistent_iff (store : PlanStore) (entry : StoreEntry) (plan : Plan) (current : PlanningRequest) :
    ConsistentAnswer plan current (assessStored store entry plan current) ↔
      (plan.bindings = current.currentBindings → plan.inputDigest = current.canonicalDigest) := by
  unfold assessStored
  by_cases valid : plan.inputDigest = current.canonicalDigest ∧ plan.bindings = current.currentBindings
  · rw [if_pos valid]
    exact ⟨fun _ _ => valid.1, fun _ => ⟨by simp, by simp [valid], by simp, by simp⟩⟩
  · rw [if_neg valid]
    constructor
    · intro consistent bindings
      exact absurd ((assess_current plan _).mpr bindings) (consistent.freshness rfl)
    · intro same
      have stale : assessFreshness plan current.currentBindings ≠ .current := fun fresh =>
        valid ⟨same ((assess_current plan _).mp fresh), (assess_current plan _).mp fresh⟩
      refine ⟨?_, by simp [valid], fun _ => stale, fun _ => (describe_stale _).mpr ⟨stale, assess_verified plan _⟩⟩
      exact iff_of_false (fun fine => stale ((describe_ok _).mp fine)) (by simp)

-- The code of an answer comes from the generations alone; a change of the inputs under unchanged generations has none.
theorem revalidation_consistent_iff (env : Environment) (dir : Directory) (store : PlanStore) (id : CollectivePlanId)
    (current : PlanningRequest) (result : RevalidationResult) (answered : revalidate env dir store id current = .ok result) :
    ∃ plan, get env dir store id = .ok plan ∧ (ConsistentAnswer plan current result ↔
      (plan.bindings = current.currentBindings → plan.inputDigest = current.canonicalDigest)) := by
  obtain ⟨entry, plan, _, held, rfl⟩ := (revalidate_ok env dir store id current result).mp answered
  exact ⟨plan, held, assessed_consistent_iff store entry plan current⟩

theorem stored_found : ∃ entry, findEntry (storedWorld 1).store twoLeavesPlan.id = .ok entry ∧ entry.path = sampleName := by
  refine ⟨entryOf twoLeavesPlan.id.value (summaryOf twoLeavesPlan ⟨1⟩ 1 0 sampleRecord.length), ?_, rfl⟩
  refine (find_entry_ok _ _ _).mpr ⟨stored_opened 1 (by decide), ?_⟩
  rw [stored_put.1]
  exact SortedMap.find_insert SortedMap.empty twoLeavesPlan.id.value _

theorem stored_held : get (quietEnvironment [] 0) (storedWorld 1).dir (storedWorld 1).store twoLeavesPlan.id = .ok twoLeavesPlan := by
  obtain ⟨entry, found, path⟩ := stored_found
  have small : sampleRecord.length ≤ (storedWorld 1).store.config.maxRecordBytes := by
    rw [stored_config]
    exact sample_length
  refine (bind_ok _ _ _).mpr ⟨entry, found, (bind_ok _ _ _).mpr ⟨sampleRecord, ?_, (bind_ok _ _ _).mpr ⟨_, sample_decodes, rfl⟩⟩⟩
  rw [path]
  exact read_file_calm (quietEnvironment [] 0) _ _ _ _ sampleRecord rfl stored_put.2.1 small

theorem stored_revalidated (current : PlanningRequest) : ∃ result,
    revalidate (quietEnvironment [] 0) (storedWorld 1).dir (storedWorld 1).store twoLeavesPlan.id current = .ok result := by
  obtain ⟨entry, found, _⟩ := stored_found
  exact ⟨_, (revalidate_ok _ _ _ _ _ _).mpr ⟨entry, twoLeavesPlan, found, stored_held, rfl⟩⟩

theorem stored_revalidation : ∃ result plan,
    revalidate (quietEnvironment [] 0) (storedWorld 1).dir (storedWorld 1).store twoLeavesPlan.id twoLeaves.request = .ok result ∧
      get (quietEnvironment [] 0) (storedWorld 1).dir (storedWorld 1).store twoLeavesPlan.id = .ok plan ∧
      (ConsistentAnswer plan twoLeaves.request result ↔
        (plan.bindings = twoLeaves.request.currentBindings → plan.inputDigest = twoLeaves.request.canonicalDigest)) := by
  obtain ⟨result, answered⟩ := stored_revalidated twoLeaves.request
  obtain ⟨plan, held, exactly⟩ := revalidation_consistent_iff _ _ _ _ _ result answered
  exact ⟨result, plan, answered, held, exactly⟩

theorem runs_any (allowed : StoreWorld → StoreMove → Prop) (start world : StoreWorld) (run : Runs allowed start world) :
    Runs (fun _ _ => True) start world := by
  induction run with
  | refl => exact .refl
  | step world move reached fits ih => exact .step world move ih trivial

theorem stored_reachable : Reachable (storedWorld 1) := ⟨fun _ => none, sampleConfig 1, empty_layout, runs_any _ _ _ (stored_reached 1)⟩

theorem requests_bind_alike : twoLeaves.request.currentBindings = barred.request.currentBindings := by
  simp only [BuiltRequest.drafted]
  decide +kernel

-- Both requests carry the same generations, so the refused plan is reported as current, under the code of success.
theorem revalidation_inconsistent : ¬ ∀ (world : StoreWorld), Reachable world → ∀ (env : Environment) (id : CollectivePlanId)
    (current : PlanningRequest) (result : RevalidationResult) (plan : Plan),
    get env world.dir world.store id = .ok plan → revalidate env world.dir world.store id current = .ok result →
      ConsistentAnswer plan current result := by
  intro claimed
  obtain ⟨result, answered⟩ := stored_revalidated barred.request
  have consistent := claimed (storedWorld 1) stored_reachable _ _ _ result twoLeavesPlan stored_held answered
  obtain ⟨entry, plan, _, held, answer⟩ := (revalidate_ok _ _ _ _ _ result).mp answered
  have own := Except.ok.inj (held.symm.trans stored_held)
  rw [answer, own] at consistent
  have bindings : twoLeavesPlan.bindings = twoLeaves.request.currentBindings := (validate_plan_ok.mp two_leaves_valid).identity.bindings
  have same := (assessed_consistent_iff _ entry twoLeavesPlan barred.request).mp consistent (bindings.trans requests_bind_alike)
  exact requests_apart (two_leaves_digest.symm.trans same)

end PlanStore

end PathPlanner

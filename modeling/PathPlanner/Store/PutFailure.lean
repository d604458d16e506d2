import PathPlanner.Store.Readable

set_option autoImplicit false

namespace PathPlanner.PlanStore

open Checks Codec StoreFiles StoreRecord ValidatePlan

-- Everything a refused put must leave alone.
structure Untouching (dir : Directory) (store : PlanStore) (done : Performed StoredPlanSummary) : Prop where
  index : done.store.index = store.index
  sequence : done.store.sequence = store.sequence
  totalBytes : totalBytes done.store = totalBytes store
  files : ∀ name, isRecordFile name = true → performAll done.effects dir name = dir name

-- Once the record is written, a failing metadata write comes too late.
theorem late_failure (env : Environment) (store : PlanStore) (plan : Plan) (request : PlanningRequest) (pending : PendingPut)
    (checked : preparePut env store plan request = .ok pending) (written : ¬ WriteFails env (recordFileName plan.id.value))
    (failed : WriteFails env metaFileName) :
    (∃ status, (put env store plan request).result = .error status) ∧ (put env store plan request).store.sequence = store.sequence + 1 := by
  have prepared := prepare_put_ok env store plan request pending checked
  have performed := put_case env store plan request
  generalize put env store plan request = done at performed ⊢
  cases performed with
  | refused status refused =>
      rw [checked] at refused
      cases refused
  | unwritten status other effects again write => exact absurd ((write_fails_iff _ _ _ _ _).mpr ⟨_, _, write⟩) written
  | unpersisted status other effects persisted again write persist =>
      rw [checked] at again
      cases again
      exact ⟨⟨status, rfl⟩, prepared.sequence⟩
  | committed other effects persisted again write persist =>
      obtain ⟨_, staging, replace⟩ := write_ok _ _ _ _ _ _ persist
      exact (failed.elim (fun some => some staging) fun some => some replace).elim

theorem put_atomic_iff (env : Environment) (dir : Directory) (store : PlanStore) (plan : Plan) (request : PlanningRequest) :
    (∀ status, (put env store plan request).result = .error status → Untouching dir store (put env store plan request)) ↔
      ((preparePut env store plan request).isOk = true → WriteFails env (recordFileName plan.id.value) ∨ ¬ WriteFails env metaFileName) := by
  have performed := put_case env store plan request
  generalize put env store plan request = done at performed ⊢
  cases performed with
  | refused status checked =>
      refine iff_of_true (fun _ _ => ⟨rfl, rfl, rfl, fun _ _ => rfl⟩) fun passed => ?_
      rw [checked] at passed
      cases passed
  | unwritten status pending written checked write =>
      refine iff_of_true (fun _ _ => ⟨rfl, rfl, rfl, fun name record => ?_⟩) fun _ => Or.inl ?_
      · exact failed_write_files env _ _ _ _ name _ status written dir (record_not_staging name record) write
      · exact (write_fails_iff _ _ _ _ _).mpr ⟨_, _, write⟩
  | unpersisted status pending written persisted checked write persist =>
      refine iff_of_false (fun untouching => ?_) fun condition => ?_
      · have sequence := (untouching status rfl).sequence
        change pending.sequence = store.sequence at sequence
        rw [(prepare_put_ok env store plan request pending checked).sequence] at sequence
        simp at sequence
      · have failed : WriteFails env metaFileName := (write_fails_iff _ _ _ _ _).mpr ⟨_, _, persist⟩
        have passed : ¬ WriteFails env (recordFileName plan.id.value) := by
          obtain ⟨_, staging, replace⟩ := write_ok _ _ _ _ _ _ write
          intro broken
          exact broken.elim (fun some => some staging) fun some => some replace
        rw [checked] at condition
        exact (condition rfl).elim passed fun clean => clean failed
  | committed pending written persisted checked write persist =>
      refine iff_of_true (fun status failed => ?_) fun _ => Or.inr fun broken => ?_
      · cases failed
      · obtain ⟨_, staging, replace⟩ := write_ok _ _ _ _ _ _ persist
        exact broken.elim (fun some => some staging) fun some => some replace

def metaFault : Environment := { quietEnvironment [] 0 with replaceFault := fun name => if name = metaFileName then some [] else none }

-- The record is durable and indexed when the metadata write fails.
theorem put_not_atomic : ¬ ∀ (env : Environment) (dir : Directory) (store : PlanStore) (plan : Plan) (request : PlanningRequest)
    (status : Status), store.isOpen = true → (put env store plan request).result = .error status →
    Untouching dir store (put env store plan request) := by
  intro claimed
  have checked := prepare_first metaFault openedWorld.store forgedPlan barred.request rfl rfl forged_digest forged_accepted
    (by rw [forged_length]; decide +kernel) (by decide) (by rw [forged_length]; decide +kernel)
  have written : ¬ WriteFails metaFault (recordFileName forgedPlan.id.value) := by
    intro broken
    have clean : metaFault.replaceFault (recordFileName forgedPlan.id.value) = none := by
      have apart := record_not_meta _ (record_file_name_record forgedPlan.id.value)
      simp only [metaFault, if_neg apart]
    exact broken.elim (fun some => some rfl) fun some => some clean
  obtain ⟨⟨status, failed⟩, moved⟩ := late_failure metaFault openedWorld.store forgedPlan barred.request _ checked written
    (Or.inr (by simp [metaFault]))
  have kept := (claimed _ openedWorld.dir _ _ _ status rfl failed).sequence
  rw [moved] at kept
  simp at kept

end PathPlanner.PlanStore

import PathPlanner.Store.PlanStore

set_option autoImplicit false

namespace PathPlanner.PlanStore

open Checks Codec Sequence StoreFiles StoreRecord

-- What a put that reaches its commit has checked.
structure Prepared (env : Environment) (store : PlanStore) (plan : Plan) (request : PlanningRequest) (pending : PendingPut) : Prop where
  opened : store.isOpen = true
  digest : plan.inputDigest = request.canonicalDigest
  valid : validatePlan plan request = .ok ()
  sequence : pending.sequence = store.sequence + 1
  record : pending.record = encodePlanRecord plan request.canonicalDigest store.incarnation pending.sequence (env.micros 0)
  size : pending.record.length ≤ store.config.maxRecordBytes
  evictions : pending.evictions = (projectPut store plan.id.value pending.record.length).1
  room : WithinBounds store (projectPut store plan.id.value pending.record.length).2.1
    (projectPut store plan.id.value pending.record.length).2.2

theorem prepare_put_ok (env : Environment) (store : PlanStore) (plan : Plan) (request : PlanningRequest) (pending : PendingPut)
    (prepared : preparePut env store plan request = .ok pending) : Prepared env store plan request pending := by
  unfold preparePut at prepared
  simp only [then_ok, deny_ok] at prepared
  obtain ⟨opened, digest, valid, size, room, done⟩ := prepared
  cases done
  exact ⟨by simpa using opened, not_not.mp digest, valid, rfl, rfl, not_lt.mp size, rfl, not_not.mp room⟩

theorem evict_front (store : PlanStore) (keys : List Digest) (count : Nat) (bytes : UInt64) :
    (evict store keys count bytes).1 <+: keys := by
  induction keys generalizing count bytes with
  | nil => exact List.prefix_rfl
  | cons key rest ih =>
      rw [evict]
      split_ifs with inside
      · exact List.nil_prefix
      · exact List.cons_prefix_cons.mpr ⟨rfl, ih _ _⟩

theorem oldest_first_perm (entries : List (Digest × StoreEntry)) : (oldestFirst entries).Perm (entries.map Prod.fst) := by
  have keys := (sort_values_perm (entries.map fun entry => toLex (entry.2.summary.storedSequence.toNat, entry.1))).map
    fun key => (ofLex key).2
  rw [List.map_map] at keys
  exact keys

theorem others_keys (store : PlanStore) (digest key : Digest) (entry : StoreEntry) :
    (key, entry) ∈ others store digest ↔ (key, entry) ∈ store.index.entries ∧ key ≠ digest := by
  rw [others, List.mem_filter, decide_eq_true_iff, not_and]
  refine and_congr_right fun member => ⟨fun apart same => ?_, fun apart _ => apart⟩
  subst same
  exact apart (by rw [(store.index.find_some key entry).mpr member]; rfl) rfl

-- A put never evicts the record it replaces.
theorem evictions_others (env : Environment) (store : PlanStore) (plan : Plan) (request : PlanningRequest) (pending : PendingPut)
    (prepared : Prepared env store plan request pending) (key : Digest) (evicted : key ∈ pending.evictions) :
    key ≠ plan.id.value ∧ (store.index.find key).isSome = true := by
  rw [prepared.evictions] at evicted
  have listed := (oldest_first_perm _).mem_iff.mp ((evict_front store _ _ _).mem evicted)
  obtain ⟨⟨other, entry⟩, member, rfl⟩ := List.mem_map.mp listed
  obtain ⟨held, apart⟩ := (others_keys store plan.id.value other entry).mp member
  exact ⟨apart, by rw [(store.index.find_some other entry).mpr held]; rfl⟩

-- The write of a record under its plan's name.
def writeRecord (env : Environment) (store : PlanStore) (plan : Plan) (pending : PendingPut) : Result Unit × List Effect :=
  writeFileAtomic env store.config.root (stagingFileName (env.token 0) (env.micros 1)) (recordFileName plan.id.value) pending.record

-- The four ways a put ends.
inductive PutCase (env : Environment) (store : PlanStore) (plan : Plan) (request : PlanningRequest) :
    Performed StoredPlanSummary → Prop where
  | refused (status : Status) (checked : preparePut env store plan request = .error status) :
      PutCase env store plan request ⟨.error status, store, []⟩
  | unwritten (status : Status) (pending : PendingPut) (written : List Effect)
      (checked : preparePut env store plan request = .ok pending) (write : writeRecord env store plan pending = (.error status, written)) :
      PutCase env store plan request ⟨.error status, store, written⟩
  | unpersisted (status : Status) (pending : PendingPut) (written persisted : List Effect)
      (checked : preparePut env store plan request = .ok pending) (write : writeRecord env store plan pending = (.ok (), written))
      (persist : persistMeta env (commit env store plan pending) 1 3 = (.error status, persisted)) :
      PutCase env store plan request
        ⟨.error status, commit env store plan pending, written ++ (removalEffects env store pending ++ persisted)⟩
  | committed (pending : PendingPut) (written persisted : List Effect)
      (checked : preparePut env store plan request = .ok pending) (write : writeRecord env store plan pending = (.ok (), written))
      (persist : persistMeta env (commit env store plan pending) 1 3 = (.ok (), persisted)) :
      PutCase env store plan request
        ⟨.ok (summaryOf plan store.incarnation pending.sequence (env.micros 2) pending.record.length),
          commit env store plan pending, written ++ (removalEffects env store pending ++ persisted)⟩

theorem put_case (env : Environment) (store : PlanStore) (plan : Plan) (request : PlanningRequest) :
    PutCase env store plan request (put env store plan request) := by
  unfold put
  cases checked : preparePut env store plan request with
  | error status => exact .refused status checked
  | ok pending =>
      rcases write : writeRecord env store plan pending with ⟨status | _, written⟩
      · rw [writeRecord] at write
        simp only [write]
        exact .unwritten status pending written checked write
      · rcases persist : persistMeta env (commit env store plan pending) 1 3 with ⟨status | _, persisted⟩ <;>
          rw [writeRecord] at write <;> simp only [write, persist]
        · exact .unpersisted status pending written persisted checked write persist
        · exact .committed pending written persisted checked write persist

-- The store with the fences an opening takes from the directory.
def Fenced (env : Environment) (dir : Directory) (store fenced : PlanStore) : Prop :=
  ∃ epoch incarnation sequence, fences env (performAll (staleEffects env) dir) store = .ok (epoch, incarnation, sequence) ∧
    fenced = { store with epoch, incarnation, sequence }

def rebuiltIndex (env : Environment) (dir : Directory) (config : StoreConfig) (enumeration : Nat) : SortedMap Digest StoreEntry :=
  (env.listing enumeration).foldl (indexFile env dir config) SortedMap.empty

-- The ways an opening ends, with the store and the directory it leaves.
inductive OpenCase (env : Environment) (dir : Directory) (store : PlanStore) : Performed Unit → Prop where
  | refused (status : Status) : OpenCase env dir store ⟨.error status, store, []⟩
  | unfenced (status : Status) (closed : store.isOpen = false) : OpenCase env dir store ⟨.error status, store, staleEffects env⟩
  | unpersisted (status : Status) (fenced : PlanStore) (written : List Effect) (closed : store.isOpen = false)
      (fences : Fenced env dir store fenced) (persist : persistMeta env fenced 0 0 = (.error status, written)) :
      OpenCase env dir store ⟨.error status, fenced, staleEffects env ++ written⟩
  | unlisted (status : Status) (fenced : PlanStore) (written : List Effect) (closed : store.isOpen = false)
      (fences : Fenced env dir store fenced) (persist : persistMeta env fenced 0 0 = (.ok (), written)) :
      OpenCase env dir store ⟨.error status, { fenced with index := SortedMap.empty }, staleEffects env ++ written⟩
  | opened (fenced : PlanStore) (written : List Effect) (closed : store.isOpen = false) (rooted : store.config.root.isEmpty = false)
      (fences : Fenced env dir store fenced) (persist : persistMeta env fenced 0 0 = (.ok (), written)) :
      OpenCase env dir store ⟨.ok (), { fenced with
        index := rebuiltIndex env (performAll (staleEffects env ++ written) dir) store.config 1
        isOpen := true }, staleEffects env ++ written⟩

theorem open_case (env : Environment) (dir : Directory) (store : PlanStore) : OpenCase env dir store (openStore env dir store) := by
  unfold openStore
  by_cases opened : store.isOpen = true
  · rw [if_pos opened]
    exact .refused _
  rw [if_neg opened]
  have closed : store.isOpen = false := by simpa using opened
  by_cases rootless : store.config.root.isEmpty = true
  · rw [if_pos rootless]
    exact .refused _
  rw [if_neg rootless]
  split
  · exact .refused _
  · exact .refused _
  simp only
  split
  · exact .unfenced _ closed
  rename_i epoch incarnation sequence fences
  have fenced : Fenced env dir store { store with epoch, incarnation, sequence } := ⟨epoch, incarnation, sequence, fences, rfl⟩
  split
  · rename_i persist
    exact .unpersisted _ _ _ closed fenced persist
  rename_i persist
  unfold rebuildIndex
  split
  · rename_i listed
    split at listed <;> cases listed
    exact .unlisted _ { store with epoch, incarnation, sequence } _ closed fenced persist
  · rename_i listed
    split at listed <;> cases listed
    exact .opened { store with epoch, incarnation, sequence } _ closed (by simpa using rootless) fenced persist

-- A write that succeeds moves the staged file; one that fails leaves every other file as it was.
theorem write_ok (env : Environment) (root : Bytes) (staging target : FileName) (bytes : Bytes) (effects : List Effect)
    (write : writeFileAtomic env root staging target bytes = (.ok (), effects)) :
    effects = [.stage staging bytes, .rename staging target] ∧ env.stagingFault target = none ∧ env.replaceFault target = none := by
  unfold writeFileAtomic at write
  split at write
  · cases write
  · cases write
  · split at write
    · cases write
    · cases write
      exact ⟨rfl, by assumption, by assumption⟩

theorem write_error (env : Environment) (root : Bytes) (staging target : FileName) (bytes : Bytes) (status : Status)
    (effects : List Effect) (write : writeFileAtomic env root staging target bytes = (.error status, effects)) :
    effects = [] ∨ effects = [.stage staging bytes, .remove staging] := by
  unfold writeFileAtomic at write
  split at write
  · cases write
    exact Or.inl rfl
  · cases write
    exact Or.inl rfl
  · split at write
    · cases write
      exact Or.inr rfl
    · cases write

def WriteFails (env : Environment) (target : FileName) : Prop := env.stagingFault target ≠ none ∨ env.replaceFault target ≠ none

theorem write_fails_iff (env : Environment) (root : Bytes) (staging target : FileName) (bytes : Bytes) :
    WriteFails env target ↔ ∃ status effects, writeFileAtomic env root staging target bytes = (.error status, effects) := by
  unfold WriteFails writeFileAtomic
  cases env.stagingFault target with
  | some fault => cases fault <;> simp
  | none => cases env.replaceFault target <;> simp

end PathPlanner.PlanStore

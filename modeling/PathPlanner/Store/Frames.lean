import PathPlanner.Store.CalmStore
import PathPlanner.Store.MetaCodec

set_option autoImplicit false

namespace PathPlanner.PlanStore

open Checks Codec StoreFiles StoreRecord

-- Which files a call leaves alone.
theorem staging_is_staging (token micros : UInt64) : isStagingFile (stagingFileName token micros) = true := by
  rw [isStagingFile, stagingFileName, Bool.and_eq_true, List.isPrefixOf_iff_prefix, List.isSuffixOf_iff_suffix]
  exact ⟨by simp only [List.append_assoc]; exact List.prefix_append _ _, List.suffix_append _ _⟩

theorem record_not_staging (name : FileName) (record : isRecordFile name = true) : isStagingFile name = false := by
  by_contra staging
  have here := record_first name record
  rw [staging_file_first name (by simpa using staging)] at here
  cases here

theorem meta_not_staging : isStagingFile metaFileName = false := by decide

theorem record_not_meta (name : FileName) (record : isRecordFile name = true) : name ≠ metaFileName := by
  rintro rfl
  rw [meta_not_record] at record
  cases record

def Untouched (name : FileName) (effects : List Effect) : Prop := ∀ effect ∈ effects, effect.Spares name

theorem untouched_append (name : FileName) (first second : List Effect) :
    Untouched name (first ++ second) ↔ Untouched name first ∧ Untouched name second := by
  simp only [Untouched, List.mem_append]
  exact ⟨fun both => ⟨fun effect member => both effect (Or.inl member), fun effect member => both effect (Or.inr member)⟩,
    fun ⟨left, right⟩ effect member => member.elim (left effect) (right effect)⟩

theorem perform_tail (name : FileName) (front rest : List Effect) (dir : Directory) (untouched : Untouched name rest) :
    performAll (front ++ rest) dir name = performAll front dir name := by rw [perform_append, perform_spared _ _ _ untouched]

theorem untouched_take (name : FileName) (effects : List Effect) (steps : Nat) (untouched : Untouched name effects) :
    Untouched name (effects.take steps) := fun effect member => untouched effect (List.mem_of_mem_take member)

theorem untouched_nil (name : FileName) : Untouched name [] := by
  intro effect member
  cases member

theorem untouched_removes (name : FileName) (names : List FileName) (absent : name ∉ names) :
    Untouched name (names.map Effect.remove) := by
  intro effect member
  obtain ⟨other, listed, rfl⟩ := List.mem_map.mp member
  exact fun same => absent (same ▸ listed)

theorem write_untouched (env : Environment) (root : Bytes) (token micros : UInt64) (target name : FileName) (bytes : Bytes)
    (kept : isStagingFile name = false) (other : target ≠ name) :
    Untouched name (writeFileAtomic env root (stagingFileName token micros) target bytes).2 := by
  have staged : stagingFileName token micros ≠ name := by
    rintro rfl
    rw [staging_is_staging] at kept
    cases kept
  unfold writeFileAtomic
  split
  · exact untouched_nil name
  · exact untouched_nil name
  · split <;> intro effect member <;> simp only [List.mem_cons, List.not_mem_nil, or_false] at member <;>
      obtain rfl | rfl := member
    · exact staged
    · exact staged
    · exact staged
    · exact ⟨staged, other⟩

-- A write that fails leaves at most its staging file behind, and removes that.
theorem failed_write_untouched (env : Environment) (root : Bytes) (token micros : UInt64) (target name : FileName) (bytes : Bytes)
    (status : Status) (effects : List Effect) (kept : isStagingFile name = false)
    (write : writeFileAtomic env root (stagingFileName token micros) target bytes = (.error status, effects)) :
    Untouched name effects := by
  have staged : stagingFileName token micros ≠ name := by
    rintro rfl
    rw [staging_is_staging] at kept
    cases kept
  rcases write_error _ _ _ _ _ _ _ write with rfl | rfl
  · exact untouched_nil name
  · intro effect member
    simp only [List.mem_cons, List.not_mem_nil, or_false] at member
    rcases member with rfl | rfl <;> exact staged

theorem failed_write_files (env : Environment) (root : Bytes) (token micros : UInt64) (target name : FileName) (bytes : Bytes)
    (status : Status) (effects : List Effect) (dir : Directory) (kept : isStagingFile name = false)
    (write : writeFileAtomic env root (stagingFileName token micros) target bytes = (.error status, effects)) :
    performAll effects dir name = dir name :=
  perform_spared _ _ _ (failed_write_untouched env root token micros target name bytes status effects kept write)

theorem persist_untouched (env : Environment) (store : PlanStore) (token reading : Nat) (name : FileName)
    (kept : isStagingFile name = false) (other : metaFileName ≠ name) : Untouched name (persistMeta env store token reading).2 :=
  write_untouched env _ _ _ _ name _ kept other

theorem stale_untouched (env : Environment) (name : FileName) (kept : isStagingFile name = false) :
    Untouched name (staleEffects env) := by
  refine untouched_removes name _ fun listed => ?_
  have staging := (List.mem_filter.mp listed).2
  rw [kept] at staging
  cases staging

theorem removal_untouched (env : Environment) (store : PlanStore) (pending : PendingPut) (name : FileName)
    (absent : name ∉ removals store pending.evictions) : Untouched name (removalEffects env store pending) :=
  untouched_removes name _ fun listed => absent (List.mem_of_mem_filter listed)

-- A removed file is that of an evicted record.
theorem removals_named (store : PlanStore) (paths : PathsMatch store.index) (keys : List Digest) (name : FileName)
    (record : isRecordFile name = true) (listed : name ∈ removals store keys) : ∃ key ∈ keys, name = recordFileName key := by
  obtain ⟨key, member, rfl⟩ := List.mem_map.mp listed
  cases found : store.index.find key with
  | none =>
      rw [found] at record
      cases record
  | some entry => exact ⟨key, member, paths key entry ((store.index.find_some key entry).mp found)⟩

def NamesRecord (_ : Digest) (entry : StoreEntry) : Prop := isRecordFile entry.path = true

theorem removals_not_meta (store : PlanStore) (named : EachEntry NamesRecord store.index) (keys : List Digest) :
    metaFileName ∉ removals store keys := by
  intro listed
  obtain ⟨key, member, same⟩ := List.mem_map.mp listed
  cases found : store.index.find key with
  | none =>
      rw [found] at same
      cases same
  | some entry =>
      have record := named key entry ((store.index.find_some key entry).mp found)
      rw [found] at same
      exact record_not_meta _ record same

theorem drop_removals (env : Environment) (keys : List Digest) (count : Nat) (bytes : UInt64) (store : PlanStore)
    (named : EachEntry NamesRecord store.index) :
    ∃ names : List FileName, (dropOldest env keys count bytes store).effects = names.map Effect.remove ∧ ∀ name ∈ names, isRecordFile name = true := by
  fun_induction dropOldest env keys count bytes store with
  | case3 _ _ _ _ _ _ _ ih => exact ih named
  | case5 key _ _ _ store _ entry held _ later ih =>
      obtain ⟨names, effects, records⟩ := ih (each_erase _ _ _ named)
      refine ⟨entry.path :: names, by rw [List.map_cons, effects], ?_⟩
      intro name member
      rcases List.mem_cons.mp member with rfl | further
      · exact named key entry ((store.index.find_some key entry).mp held)
      · exact records name further
  | _ => exact ⟨[], rfl, fun name member => absurd member List.not_mem_nil⟩

theorem drop_effects (env : Environment) (keys : List Digest) (count : Nat) (bytes : UInt64) (store : PlanStore)
    (paths : PathsMatch store.index) (effect : Effect) (member : effect ∈ (dropOldest env keys count bytes store).effects) :
    ∃ key ∈ keys, effect = .remove (recordFileName key) ∧ (dropOldest env keys count bytes store).store.index.find key = none := by
  fun_induction dropOldest env keys count bytes store with
  | case1 => cases member
  | case2 => cases member
  | case3 key rest count bytes store inside absent ih =>
      obtain ⟨other, listed, removed⟩ := ih paths member
      exact ⟨other, List.mem_cons_of_mem _ listed, removed⟩
  | case4 => cases member
  | case5 key rest count bytes store inside entry held removable later ih =>
      have still : ∀ keys count bytes (store : PlanStore), store.index.find key = none →
          (dropOldest env keys count bytes store).store.index.find key = none := by
        intro keys count bytes store gone
        fun_induction dropOldest env keys count bytes store with
        | case3 _ _ _ _ _ _ _ ih => exact ih gone
        | case5 other _ _ _ _ _ _ _ _ _ ih =>
            apply ih
            by_cases same : key = other
            · subst same
              exact SortedMap.find_erase _ _
            · rw [SortedMap.find_erase_other _ _ _ same]
              exact gone
        | _ => exact gone
      rcases List.mem_cons.mp member with rfl | deeper
      · refine ⟨key, List.mem_cons_self, ?_, still _ _ _ _ (SortedMap.find_erase _ _)⟩
        rw [paths key entry ((store.index.find_some key entry).mp held)]
      · obtain ⟨other, listed, removed⟩ := ih (each_erase _ _ _ paths) deeper
        exact ⟨other, List.mem_cons_of_mem _ listed, removed⟩

theorem drop_opened (env : Environment) (keys : List Digest) (count : Nat) (bytes : UInt64) (store : PlanStore) :
    (dropOldest env keys count bytes store).store.isOpen = store.isOpen := by
  fun_induction dropOldest env keys count bytes store with
  | case3 _ _ _ _ _ _ _ ih => exact ih
  | case5 _ _ _ _ _ _ _ _ _ _ ih => exact ih
  | _ => rfl

theorem persist_steady (env : Environment) (steady : env.Steady) (store : PlanStore) (token reading : Nat) :
    persistMeta env store token reading = (.ok (),
      [.stage (stagingFileName (env.token token) (env.micros reading)) (encodeMeta store.epoch store.incarnation store.sequence),
        .rename (stagingFileName (env.token token) (env.micros reading)) metaFileName]) :=
  write_steady env steady _ _ _ _

-- A metadata write that succeeds is the last thing done to the metadata file.
theorem persisted_meta (env : Environment) (store : PlanStore) (token reading : Nat) (before effects : List Effect) (dir : Directory)
    (persist : persistMeta env store token reading = (.ok (), effects)) :
    performAll (before ++ effects) dir metaFileName = some (encodeMeta store.epoch store.incarnation store.sequence) := by
  obtain ⟨rfl, _, _⟩ := write_ok _ _ _ _ _ _ persist
  rw [perform_append]
  exact replaced_file _ _ _ _

theorem persisted_steady (env : Environment) (steady : env.Steady) (store : PlanStore) (token reading : Nat) (before : List Effect)
    (dir : Directory) : performAll (before ++ (persistMeta env store token reading).2) dir metaFileName =
      some (encodeMeta store.epoch store.incarnation store.sequence) :=
  persisted_meta env store token reading before _ dir (by rw [persist_steady env steady])

theorem lists_performed (env : Environment) (dir : Directory) (effects : List Effect) (lists : env.Lists dir)
    (same : ∀ name, isRecordFile name = true → performAll effects dir name = dir name) : env.Lists (performAll effects dir) := by
  intro enumeration name record present
  rw [same name record] at present
  exact lists enumeration name record present

theorem opening_untouched (env : Environment) (store : PlanStore) (name : FileName) (record : isRecordFile name = true) :
    Untouched name (staleEffects env ++ (persistMeta env store 0 0).2) :=
  (untouched_append _ _ _).mpr ⟨stale_untouched env name (record_not_staging name record),
    persist_untouched env store 0 0 name (record_not_staging name record) (record_not_meta name record).symm⟩

def advanced (store : PlanStore) (epoch : Epoch) (incarnation : Incarnation) (sequence : UInt64) : PlanStore :=
  { store with epoch := ⟨epoch.value + 1⟩, incarnation := ⟨incarnation.value + 1⟩, sequence }

-- With readable metadata and no fault, an opening succeeds.
theorem steady_open (env : Environment) (steady : env.Steady) (dir : Directory) (store : PlanStore) (closed : store.isOpen = false)
    (rooted : store.config.root.isEmpty = false) (epoch : Epoch) (incarnation : Incarnation) (sequence : UInt64)
    (metadata : dir metaFileName = some (encodeMeta epoch incarnation sequence)) :
    openStore env dir store = ⟨.ok (), { advanced store epoch incarnation sequence with
        index := rebuiltIndex env (performAll (staleEffects env ++
          (persistMeta env (advanced store epoch incarnation sequence) 0 0).2) dir) store.config 1
        isOpen := true },
      staleEffects env ++ (persistMeta env (advanced store epoch incarnation sequence) 0 0).2⟩ := by
  have kept : performAll (staleEffects env) dir metaFileName = some (encodeMeta epoch incarnation sequence) := by
    rw [perform_spared _ _ _ (stale_untouched env metaFileName meta_not_staging)]
    exact metadata
  have fenced : fences env (performAll (staleEffects env) dir) store =
      .ok (⟨epoch.value + 1⟩, ⟨incarnation.value + 1⟩, sequence) := by
    rw [fences, if_pos ⟨by rw [kept]; rfl, steady.probe⟩, bind_ok]
    refine ⟨_, read_file_calm env _ _ _ _ _ (steady.read _) kept (le_of_eq (encode_meta_length _ _ _)), ?_⟩
    rw [bind_ok]
    exact ⟨_, decode_encode_meta epoch incarnation sequence, rfl⟩
  unfold openStore
  rw [if_neg (by simp [closed]), if_neg (by simp [rooted])]
  simp only [steady.directory, steady.enumerate, fenced, persist_steady env steady, rebuildIndex]
  rfl

-- What such an opening makes of the world.
structure Opened (env : Environment) (world : StoreWorld) (epoch : Epoch) (incarnation : Incarnation) (sequence : UInt64) : Prop where
  result : (openStore env world.dir world.store).result = .ok ()
  store : (world.after env .openStore).store = { advanced world.store epoch incarnation sequence with
    index := rebuiltIndex env (world.after env .openStore).dir world.store.config 1
    isOpen := true }
  records : ∀ name, isRecordFile name = true → (world.after env .openStore).dir name = world.dir name
  metadata : (world.after env .openStore).dir metaFileName =
    some (encodeMeta ⟨epoch.value + 1⟩ ⟨incarnation.value + 1⟩ sequence)

theorem after_open (env : Environment) (world : StoreWorld) : world.after env .openStore =
    ⟨performAll (openStore env world.dir world.store).effects world.dir, (openStore env world.dir world.store).store⟩ := rfl

theorem steady_opened (env : Environment) (steady : env.Steady) (world : StoreWorld) (closed : world.store.isOpen = false)
    (rooted : world.store.config.root.isEmpty = false) (epoch : Epoch) (incarnation : Incarnation) (sequence : UInt64)
    (metadata : world.dir metaFileName = some (encodeMeta epoch incarnation sequence)) :
    Opened env world epoch incarnation sequence := by
  have done := steady_open env steady world.dir world.store closed rooted epoch incarnation sequence metadata
  constructor
  · rw [done]
  · rw [after_open, done]
  · intro name record
    rw [after_open, done]
    exact perform_spared _ _ _ (opening_untouched env _ name record)
  · rw [after_open, done]
    exact persisted_steady env steady (advanced world.store epoch incarnation sequence) 0 0 (staleEffects env) world.dir

theorem rebuilt_single (env : Environment) (steady : env.Steady) (dir : Directory) (config : StoreConfig) (enumeration : Nat)
    (digest : Digest) (summary : StoredPlanSummary) (alone : env.listing enumeration = [recordFileName digest])
    (found : recordOf dir config (recordFileName digest) = some summary) (named : summary.id.value = digest) :
    rebuiltIndex env dir config enumeration = SortedMap.empty.insert digest (entryOf digest summary) := by
  have filed := index_file_steady env steady dir config SortedMap.empty (recordFileName digest) (record_file_name_record digest)
  rw [found] at filed
  rw [rebuiltIndex, alone, List.foldl_cons, List.foldl_nil, filed]
  simp only [named, entryOf]

theorem put_steady (env : Environment) (steady : env.Steady) (store : PlanStore) (plan : Plan) (request : PlanningRequest)
    (pending : PendingPut) (checked : preparePut env store plan request = .ok pending) :
    put env store plan request = ⟨.ok (summaryOf plan store.incarnation pending.sequence (env.micros 2) pending.record.length),
      commit env store plan pending, (writeRecord env store plan pending).2 ++
        (removalEffects env store pending ++ (persistMeta env (commit env store plan pending) 1 3).2)⟩ := by
  simp only [put, checked, persist_steady env steady, write_steady env steady, writeRecord]

theorem committed_files (env : Environment) (store : PlanStore) (paths : PathsMatch store.index) (plan : Plan)
    (request : PlanningRequest) (pending : PendingPut) (written persisted : List Effect) (dir : Directory)
    (checked : preparePut env store plan request = .ok pending) (write : writeRecord env store plan pending = (.ok (), written))
    (persist : persistMeta env (commit env store plan pending) 1 3 = (.ok (), persisted)) :
    performAll (written ++ (removalEffects env store pending ++ persisted)) dir (recordFileName plan.id.value) = some pending.record ∧
      performAll (written ++ (removalEffects env store pending ++ persisted)) dir metaFileName =
        some (encodeMeta store.epoch store.incarnation pending.sequence) := by
  have isRecord := record_file_name_record plan.id.value
  constructor
  · rw [perform_append, perform_spared]
    · obtain ⟨rfl, _, _⟩ := write_ok _ _ _ _ _ _ write
      exact replaced_file _ _ _ _
    · refine (untouched_append _ _ _).mpr ⟨removal_untouched env store pending _ fun listed => ?_, ?_⟩
      · obtain ⟨key, evicted, same⟩ := removals_named store paths _ _ isRecord listed
        exact (evictions_others env store plan request pending (prepare_put_ok _ _ _ _ _ checked) key evicted).1
          (record_file_name_injective same).symm
      · have spared := persist_untouched env (commit env store plan pending) 1 3 _ (record_not_staging _ isRecord)
          (record_not_meta _ isRecord).symm
        rwa [persist] at spared
  · rw [← List.append_assoc]
    exact persisted_meta env (commit env store plan pending) 1 3 _ persisted dir persist

-- A put that passed its checks, with no call but a removal failing.
theorem steady_put (env : Environment) (steady : env.Steady) (world : StoreWorld) (paths : PathsMatch world.store.index) (plan : Plan)
    (request : PlanningRequest) (pending : PendingPut) (checked : preparePut env world.store plan request = .ok pending) :
    (world.after env (.put plan request)).store = commit env world.store plan pending ∧
      (world.after env (.put plan request)).dir (recordFileName plan.id.value) = some pending.record ∧
      (world.after env (.put plan request)).dir metaFileName =
        some (encodeMeta world.store.epoch world.store.incarnation pending.sequence) := by
  have done := put_steady env steady world.store plan request pending checked
  have files := committed_files env world.store paths plan request pending _ _ world.dir checked (write_steady env steady _ _ _ _)
    (persist_steady env steady _ 1 3)
  rw [StoreWorld.after, StoreCall.perform, done, persist_steady env steady, writeRecord, write_steady env steady]
  exact ⟨rfl, files⟩

-- The first two steps of a put bring its record into place.
theorem put_renames (env : Environment) (steady : env.Steady) (store : PlanStore) (plan : Plan) (request : PlanningRequest)
    (pending : PendingPut) (checked : preparePut env store plan request = .ok pending) : (put env store plan request).effects.take 2 =
      [.stage (stagingFileName (env.token 0) (env.micros 1)) pending.record,
        .rename (stagingFileName (env.token 0) (env.micros 1)) (recordFileName plan.id.value)] := by
  rw [put_steady env steady store plan request pending checked, writeRecord, write_steady env steady]
  rfl

theorem renamed_files (env : Environment) (dir : Directory) (plan : Plan) (record : Bytes) (name : FileName)
    (kept : isStagingFile name = false) (other : recordFileName plan.id.value ≠ name) :
    performAll [.stage (stagingFileName (env.token 0) (env.micros 1)) record,
      .rename (stagingFileName (env.token 0) (env.micros 1)) (recordFileName plan.id.value)] dir name = dir name := by
  have staged : stagingFileName (env.token 0) (env.micros 1) ≠ name := by
    rintro rfl
    rw [staging_is_staging] at kept
    cases kept
  refine perform_spared _ _ _ fun effect member => ?_
  simp only [List.mem_cons, List.not_mem_nil, or_false] at member
  rcases member with rfl | rfl
  · exact staged
  · exact ⟨staged, other⟩

end PathPlanner.PlanStore

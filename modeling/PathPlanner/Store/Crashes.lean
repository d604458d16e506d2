import PathPlanner.Store.Frames

set_option autoImplicit false

namespace PathPlanner.PlanStore

open Checks Codec StoreFiles StoreRecord

-- Wherever the effects are cut off, the file of that name is as it was or one of the outcomes.
def Leaves (name : FileName) (outcome : Option Bytes → Prop) (effects : List Effect) : Prop :=
  ∀ dir steps, performAll (effects.take steps) dir name = dir name ∨ outcome (performAll (effects.take steps) dir name)

theorem leaves_untouched (name : FileName) (outcome : Option Bytes → Prop) (effects : List Effect)
    (untouched : Untouched name effects) : Leaves name outcome effects :=
  fun _ steps => Or.inl (perform_spared _ _ _ (untouched_take name effects steps untouched))

theorem leaves_append (name : FileName) (outcome : Option Bytes → Prop) (first second : List Effect)
    (here : Leaves name outcome first) (there : Leaves name outcome second) : Leaves name outcome (first ++ second) := by
  intro dir steps
  rw [List.take_append, perform_append]
  rcases there (performAll (first.take steps) dir) (steps - first.length) with same | reached
  · rw [same]
    exact here dir steps
  · exact Or.inr reached

theorem leaves_removes (name : FileName) (outcome : Option Bytes → Prop) (gone : outcome none) (names : List FileName) :
    Leaves name outcome (names.map Effect.remove) := by
  induction names with
  | nil => exact leaves_untouched name outcome [] (untouched_nil name)
  | cons other rest ih =>
      refine leaves_append name outcome [.remove other] _ ?_ ih
      by_cases same : name = other
      · subst same
        intro dir steps
        cases steps with
        | zero => exact Or.inl rfl
        | succ more =>
            refine Or.inr ?_
            rw [List.take_of_length_le (by simp)]
            change outcome (Function.update dir name none name)
            rwa [Function.update_self]
      · exact leaves_untouched name outcome _ (untouched_removes name [other] (by simpa using same))

theorem leaves_write (env : Environment) (root : Bytes) (token micros : UInt64) (target name : FileName) (bytes : Bytes)
    (outcome : Option Bytes → Prop) (kept : isStagingFile name = false) (written : target = name → outcome (some bytes)) :
    Leaves name outcome (writeFileAtomic env root (stagingFileName token micros) target bytes).2 := by
  by_cases here : target = name
  · subst here
    have staged : stagingFileName token micros ≠ target := by
      rintro rfl
      rw [staging_is_staging] at kept
      cases kept
    unfold writeFileAtomic
    split
    · exact leaves_untouched _ _ _ (untouched_nil _)
    · exact leaves_untouched _ _ _ (untouched_nil _)
    · split
      · refine leaves_untouched _ _ _ fun effect member => ?_
        simp only [List.mem_cons, List.not_mem_nil, or_false] at member
        rcases member with rfl | rfl <;> exact staged
      · intro dir steps
        match steps with
        | 0 => exact Or.inl rfl
        | 1 => exact Or.inl (perform_spared [.stage (stagingFileName token micros) bytes] _ _ (by simpa [Effect.Spares] using staged))
        | more + 2 =>
            refine Or.inr ?_
            rw [List.take_of_length_le (by simp), replaced_file]
            exact written rfl
  · exact leaves_untouched _ _ _ (write_untouched env root token micros target name bytes kept here)

-- The metadata a call may leave behind.
def MetaWritten (env : Environment) (world : StoreWorld) : StoreCall → Option Bytes → Prop
  | .openStore, file => world.store.isOpen = false ∧ ∃ fenced, Fenced env world.dir world.store fenced ∧
      file = some (encodeMeta fenced.epoch fenced.incarnation fenced.sequence)
  | .put plan request, file => ∃ pending, preparePut env world.store plan request = .ok pending ∧
      file = some (encodeMeta world.store.epoch world.store.incarnation pending.sequence)
  | _, file => world.store.isOpen = true ∧ file = some (encodeMeta world.store.epoch world.store.incarnation world.store.sequence)

-- The content a call may leave under a record's name.
def RecordWritten (env : Environment) (world : StoreWorld) (name : FileName) : StoreCall → Option Bytes → Prop
  | .put plan request, file => file = none ∨ ∃ pending, preparePut env world.store plan request = .ok pending ∧
      name = recordFileName plan.id.value ∧ file = some pending.record
  | _, file => file = none

theorem leaves_persist (env : Environment) (store : PlanStore) (token reading : Nat) (outcome : Option Bytes → Prop)
    (written : outcome (some (encodeMeta store.epoch store.incarnation store.sequence))) :
    Leaves metaFileName outcome (persistMeta env store token reading).2 :=
  leaves_write env _ _ _ metaFileName metaFileName _ outcome meta_not_staging fun _ => written

theorem put_meta (env : Environment) (world : StoreWorld) (named : EachEntry NamesRecord world.store.index) (plan : Plan)
    (request : PlanningRequest) :
    Leaves metaFileName (MetaWritten env world (.put plan request)) (put env world.store plan request).effects := by
  have record := record_not_meta _ (record_file_name_record plan.id.value)
  have writes (pending : PendingPut) : Leaves metaFileName (MetaWritten env world (.put plan request))
      (writeRecord env world.store plan pending).2 :=
    leaves_untouched _ _ _ (write_untouched env _ _ _ _ _ _ meta_not_staging record)
  have commits (pending : PendingPut) (checked : preparePut env world.store plan request = .ok pending) :
      Leaves metaFileName (MetaWritten env world (.put plan request))
        ((writeRecord env world.store plan pending).2 ++ (removalEffects env world.store pending ++
          (persistMeta env (commit env world.store plan pending) 1 3).2)) := by
    refine leaves_append _ _ _ _ (writes pending) (leaves_append _ _ _ _ ?_ ?_)
    · exact leaves_untouched _ _ _ (removal_untouched env world.store pending _ (removals_not_meta _ named _))
    · exact leaves_persist env _ 1 3 _ ⟨pending, checked, rfl⟩
  have performed := put_case env world.store plan request
  generalize put env world.store plan request = done at performed ⊢
  cases performed with
  | refused status checked => exact leaves_untouched _ _ _ (untouched_nil _)
  | unwritten status pending written checked write =>
      have left := writes pending
      rwa [write] at left
  | unpersisted status pending written persisted checked write persist =>
      have left := commits pending checked
      rwa [write, persist] at left
  | committed pending written persisted checked write persist =>
      have left := commits pending checked
      rwa [write, persist] at left

theorem open_meta (env : Environment) (world : StoreWorld) :
    Leaves metaFileName (MetaWritten env world .openStore) (openStore env world.dir world.store).effects := by
  have cleared : Leaves metaFileName (MetaWritten env world .openStore) (staleEffects env) :=
    leaves_untouched _ _ _ (stale_untouched env metaFileName meta_not_staging)
  have persists (fenced : PlanStore) (closed : world.store.isOpen = false) (fences : Fenced env world.dir world.store fenced) :
      Leaves metaFileName (MetaWritten env world .openStore) (staleEffects env ++ (persistMeta env fenced 0 0).2) :=
    leaves_append _ _ _ _ cleared (leaves_persist env fenced 0 0 _ ⟨closed, fenced, fences, rfl⟩)
  have performed := open_case env world.dir world.store
  generalize openStore env world.dir world.store = done at performed ⊢
  cases performed with
  | refused status => exact leaves_untouched _ _ _ (untouched_nil _)
  | unfenced status closed => exact cleared
  | unpersisted status fenced written closed fences persist =>
      have left := persists fenced closed fences
      rwa [persist] at left
  | unlisted status fenced written closed fences persist =>
      have left := persists fenced closed fences
      rwa [persist] at left
  | opened fenced written closed rooted fences persist =>
      have left := persists fenced closed fences
      rwa [persist] at left

theorem find_entry_ok (store : PlanStore) (id : CollectivePlanId) (entry : StoreEntry) :
    findEntry store id = .ok entry ↔ store.isOpen = true ∧ store.index.find id.value = some entry := by
  rw [findEntry, then_ok, deny_ok]
  cases store.index.find id.value with
  | none => simp
  | some held => simp

theorem open_untouched (env : Environment) (dir : Directory) (store : PlanStore) (name : FileName) (record : isRecordFile name = true) :
    Untouched name (openStore env dir store).effects := by
  have performed := open_case env dir store
  generalize openStore env dir store = done at performed ⊢
  cases performed with
  | refused status => exact untouched_nil name
  | unfenced status closed => exact stale_untouched env name (record_not_staging name record)
  | unpersisted status fenced written closed fences persist =>
      have untouched := opening_untouched env fenced name record
      rwa [persist] at untouched
  | unlisted status fenced written closed fences persist =>
      have untouched := opening_untouched env fenced name record
      rwa [persist] at untouched
  | opened fenced written closed rooted fences persist =>
      have untouched := opening_untouched env fenced name record
      rwa [persist] at untouched

theorem close_untouched (env : Environment) (store : PlanStore) (name : FileName) (record : isRecordFile name = true) :
    Untouched name (close env store).effects := by
  unfold close
  split
  · exact untouched_nil name
  · exact persist_untouched env store 0 0 name (record_not_staging name record) (record_not_meta name record).symm

theorem close_closed (env : Environment) (store : PlanStore) : (close env store).store.isOpen = false := by
  unfold close
  split
  · assumption
  · rfl

theorem verify_effects (env : Environment) (dir : Directory) (store : PlanStore) : (verifyAll env dir store).effects = [] := by
  unfold verifyAll
  split
  · rfl
  · split <;> rfl

-- What only an opening and a put may change.
structure SameFences (before after : PlanStore) : Prop where
  epoch : after.epoch = before.epoch
  incarnation : after.incarnation = before.incarnation
  sequence : after.sequence = before.sequence

theorem drop_fences (env : Environment) (keys : List Digest) (count : Nat) (bytes : UInt64) (store : PlanStore) :
    SameFences store (dropOldest env keys count bytes store).store := by
  fun_induction dropOldest env keys count bytes store with
  | case3 _ _ _ _ _ _ _ ih => exact ih
  | case5 _ _ _ _ _ _ _ _ _ _ ih => exact ⟨ih.epoch, ih.incarnation, ih.sequence⟩
  | _ => exact ⟨rfl, rfl, rfl⟩

theorem call_meta (env : Environment) (world : StoreWorld) (call : StoreCall) (named : EachEntry NamesRecord world.store.index) :
    Leaves metaFileName (MetaWritten env world call) (call.perform env world).2 := by
  cases call with
  | openStore => exact open_meta env world
  | close =>
      change Leaves _ _ (close env world.store).effects
      unfold close
      split
      · exact leaves_untouched _ _ _ (untouched_nil _)
      · rename_i opened
        exact leaves_persist env _ 0 0 _ ⟨by simpa using opened, rfl⟩
  | put plan request => exact put_meta env world named plan request
  | erase id =>
      change Leaves _ _ (erase env world.store id).effects
      unfold erase
      split
      · exact leaves_untouched _ _ _ (untouched_nil _)
      · rename_i entry found
        obtain ⟨opened, held⟩ := (find_entry_ok world.store id entry).mp found
        split
        · exact leaves_untouched _ _ _ (untouched_nil _)
        · refine leaves_append _ _ [.remove entry.path] _ (leaves_untouched _ _ _ ?_) (leaves_persist env _ 0 0 _ ⟨opened, rfl⟩)
          have record := named id.value entry ((SortedMap.find_some _ _ _).mp held)
          exact untouched_removes _ [entry.path] (by simpa using (record_not_meta _ record).symm)
  | verifyAll =>
      change Leaves _ _ (verifyAll env world.dir world.store).effects
      rw [verify_effects]
      exact leaves_untouched _ _ _ (untouched_nil _)
  | enforceBounds =>
      change Leaves _ _ (enforceBounds env world.store).effects
      obtain ⟨names, effects, records⟩ := drop_removals env (oldestFirst world.store.index.entries) world.store.index.entries.length
        (totalBytes world.store) world.store named
      have dropped : Untouched metaFileName (dropOldest env (oldestFirst world.store.index.entries) world.store.index.entries.length
          (totalBytes world.store) world.store).effects := by
        rw [effects]
        exact untouched_removes _ _ fun listed => record_not_meta _ (records _ listed) rfl
      unfold enforceBounds
      split
      · exact leaves_untouched _ _ _ (untouched_nil _)
      · rename_i opened
        simp only
        split
        · exact leaves_untouched _ _ _ dropped
        · refine leaves_append _ _ _ _ (leaves_untouched _ _ _ dropped) (leaves_persist env _ 0 0 _ ?_)
          have kept := drop_fences env (oldestFirst world.store.index.entries) world.store.index.entries.length
            (totalBytes world.store) world.store
          rw [kept.epoch, kept.incarnation, kept.sequence]
          exact ⟨by simpa using opened, rfl⟩

theorem leaves_no_record (env : Environment) (root : Bytes) (token micros : UInt64) (target name : FileName) (bytes : Bytes)
    (outcome : Option Bytes → Prop) (record : isRecordFile name = true) (other : target ≠ name) :
    Leaves name outcome (writeFileAtomic env root (stagingFileName token micros) target bytes).2 :=
  leaves_write env root token micros target name bytes outcome (record_not_staging name record) fun same => absurd same other

theorem leaves_persist_record (env : Environment) (store : PlanStore) (token reading : Nat) (name : FileName)
    (outcome : Option Bytes → Prop) (record : isRecordFile name = true) :
    Leaves name outcome (persistMeta env store token reading).2 :=
  leaves_no_record env _ _ _ metaFileName name _ outcome record (record_not_meta name record).symm

theorem put_record (env : Environment) (world : StoreWorld) (plan : Plan) (request : PlanningRequest) (name : FileName)
    (record : isRecordFile name = true) :
    Leaves name (RecordWritten env world name (.put plan request)) (put env world.store plan request).effects := by
  have writes (pending : PendingPut) (checked : preparePut env world.store plan request = .ok pending) :
      Leaves name (RecordWritten env world name (.put plan request)) (writeRecord env world.store plan pending).2 :=
    leaves_write env _ _ _ _ name _ _ (record_not_staging name record) fun here => Or.inr ⟨pending, checked, here.symm, rfl⟩
  have commits (pending : PendingPut) (checked : preparePut env world.store plan request = .ok pending) :
      Leaves name (RecordWritten env world name (.put plan request))
        ((writeRecord env world.store plan pending).2 ++ (removalEffects env world.store pending ++
          (persistMeta env (commit env world.store plan pending) 1 3).2)) :=
    leaves_append _ _ _ _ (writes pending checked) (leaves_append _ _ _ _ (leaves_removes name _ (Or.inl rfl) _)
      (leaves_persist_record env _ 1 3 name _ record))
  have performed := put_case env world.store plan request
  generalize put env world.store plan request = done at performed ⊢
  cases performed with
  | refused status checked => exact leaves_untouched _ _ _ (untouched_nil _)
  | unwritten status pending written checked write =>
      have left := writes pending checked
      rwa [write] at left
  | unpersisted status pending written persisted checked write persist =>
      have left := commits pending checked
      rwa [write, persist] at left
  | committed pending written persisted checked write persist =>
      have left := commits pending checked
      rwa [write, persist] at left

-- Whatever a call does and wherever it is cut off, a record file is kept, removed or replaced by the record being put.
theorem call_record (env : Environment) (world : StoreWorld) (call : StoreCall) (name : FileName) (record : isRecordFile name = true) :
    Leaves name (RecordWritten env world name call) (call.perform env world).2 := by
  cases call with
  | openStore => exact leaves_untouched _ _ _ (open_untouched env world.dir world.store name record)
  | close => exact leaves_untouched _ _ _ (close_untouched env world.store name record)
  | put plan request => exact put_record env world plan request name record
  | erase id =>
      change Leaves _ _ (erase env world.store id).effects
      unfold erase
      split
      · exact leaves_untouched _ _ _ (untouched_nil _)
      · split
        · exact leaves_untouched _ _ _ (untouched_nil _)
        · rename_i entry _ _ _
          have gone : RecordWritten env world name (.erase id) none := rfl
          exact leaves_append _ _ [.remove entry.path] _ (leaves_removes name _ gone [entry.path])
            (leaves_persist_record env _ 0 0 name _ record)
  | verifyAll =>
      change Leaves _ _ (verifyAll env world.dir world.store).effects
      rw [verify_effects]
      exact leaves_untouched _ _ _ (untouched_nil _)
  | enforceBounds =>
      have gone : RecordWritten env world name .enforceBounds none := rfl
      have dropped (keys : List Digest) (count : Nat) (bytes : UInt64) (store : PlanStore) :
          Leaves name (RecordWritten env world name .enforceBounds) (dropOldest env keys count bytes store).effects := by
        fun_induction dropOldest env keys count bytes store with
        | case3 _ _ _ _ _ _ _ ih => exact ih
        | case5 _ _ _ _ _ _ entry _ _ later ih => exact leaves_append _ _ [.remove entry.path] _ (leaves_removes name _ gone [entry.path]) ih
        | _ => exact leaves_untouched _ _ _ (untouched_nil _)
      change Leaves _ _ (enforceBounds env world.store).effects
      unfold enforceBounds
      split
      · exact leaves_untouched _ _ _ (untouched_nil _)
      · simp only
        split
        · exact dropped _ _ _ _
        · exact leaves_append _ _ _ _ (dropped _ _ _ _) (leaves_persist_record env _ 0 0 name _ record)

-- The part of the counters that each call leaves alone.
structure CallFences (call : StoreCall) (before after : PlanStore) : Prop where
  epoch : call ≠ .openStore → after.epoch = before.epoch
  incarnation : call ≠ .openStore → after.incarnation = before.incarnation
  sequence : call ≠ .openStore → (∀ plan request, call ≠ .put plan request) → after.sequence = before.sequence
  opened : call ≠ .openStore → after.isOpen = true → before.isOpen = true

theorem fences_kept (call : StoreCall) (before after : PlanStore)
    (kept : SameFences before after ∧ (after.isOpen = true → before.isOpen = true)) : CallFences call before after where
  epoch := fun _ => kept.1.epoch
  incarnation := fun _ => kept.1.incarnation
  sequence := fun _ _ => kept.1.sequence
  opened := fun _ => kept.2

theorem call_fences (env : Environment) (world : StoreWorld) (call : StoreCall) :
    CallFences call world.store (call.perform env world).1 := by
  cases call with
  | openStore =>
      exact ⟨fun other => absurd rfl other, fun other => absurd rfl other, fun other => absurd rfl other, fun other => absurd rfl other⟩
  | close =>
      apply fences_kept
      change SameFences _ (close env world.store).store ∧ ((close env world.store).store.isOpen = true → _)
      unfold close
      split
      · exact ⟨⟨rfl, rfl, rfl⟩, id⟩
      · refine ⟨⟨rfl, rfl, rfl⟩, fun opened => ?_⟩
        cases opened
  | put plan request =>
      have performed := put_case env world.store plan request
      change CallFences _ _ (put env world.store plan request).store
      generalize put env world.store plan request = done at performed ⊢
      cases performed <;> exact ⟨fun _ => rfl, fun _ => rfl, fun _ other => absurd rfl (other plan request), fun _ => id⟩
  | erase id =>
      apply fences_kept
      change SameFences _ (erase env world.store id).store ∧ ((erase env world.store id).store.isOpen = true → _)
      unfold erase
      split
      · exact ⟨⟨rfl, rfl, rfl⟩, fun opened => opened⟩
      · split <;> exact ⟨⟨rfl, rfl, rfl⟩, fun opened => opened⟩
  | verifyAll =>
      apply fences_kept
      change SameFences _ (verifyAll env world.dir world.store).store ∧ ((verifyAll env world.dir world.store).store.isOpen = true → _)
      unfold verifyAll rebuildIndex
      cases closed : world.store.isOpen <;> cases env.enumerateFault 0 <;> exact ⟨⟨rfl, rfl, rfl⟩, by simp [closed]⟩
  | enforceBounds =>
      have dropped := drop_fences env (oldestFirst world.store.index.entries) world.store.index.entries.length
        (totalBytes world.store) world.store
      have opened := drop_opened env (oldestFirst world.store.index.entries) world.store.index.entries.length
        (totalBytes world.store) world.store
      apply fences_kept
      change SameFences _ (enforceBounds env world.store).store ∧ ((enforceBounds env world.store).store.isOpen = true → _)
      unfold enforceBounds
      split
      · exact ⟨⟨rfl, rfl, rfl⟩, id⟩
      · simp only
        split <;> exact ⟨dropped, fun still => opened.symm.trans still⟩

theorem named_moved (world : StoreWorld) (move : StoreMove) (named : EachEntry NamesRecord world.store.index) :
    EachEntry NamesRecord (world.moved move).store.index := by
  cases move with
  | finished env call =>
      have listed (dir : Directory) : Listed NamesRecord dir := fun _ _ _ _ record _ _ => record
      exact call_entries NamesRecord env world call (fun key _ => record_file_name_record key) (listed _) (listed _) named
  | crashed env call steps config => exact each_empty NamesRecord

-- Where a move leaves the directory: at the point where its call ends or is cut off.
theorem moved_dir (world : StoreWorld) (move : StoreMove) : ∃ env call steps,
    (world.moved move).dir = performAll ((call.perform env world).2.take steps) world.dir ∧
      (move = .finished env call ∨ ∃ config, move = .crashed env call steps config) := by
  cases move with
  | finished env call => exact ⟨env, call, _, by rw [List.take_length]; rfl, Or.inl rfl⟩
  | crashed env call steps config => exact ⟨env, call, steps, rfl, Or.inr ⟨config, rfl⟩⟩

end PathPlanner.PlanStore

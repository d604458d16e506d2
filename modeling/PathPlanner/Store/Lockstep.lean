import PathPlanner.Store.Fences

set_option autoImplicit false

namespace PathPlanner.PlanStore

open Checks Codec StoreFiles StoreRecord

-- What one call does to the index entry and the file of one record: the same to both.
inductive Lockstep (env : Environment) (world : StoreWorld) (call : StoreCall) (key : Digest) : Prop where
  | kept (index : (call.perform env world).1.index.find key = world.store.index.find key)
      (file : (world.after env call).dir (recordFileName key) = world.dir (recordFileName key))
  | dropped (index : (call.perform env world).1.index.find key = none)
      (file : (world.after env call).dir (recordFileName key) = none)
  | stored (plan : Plan) (request : PlanningRequest) (pending : PendingPut) (same : call = .put plan request)
      (checked : preparePut env world.store plan request = .ok pending) (named : key = plan.id.value)
      (index : (call.perform env world).1.index.find key =
        some (entryOf key (summaryOf plan world.store.incarnation pending.sequence (env.micros 2) pending.record.length)))
      (file : (world.after env call).dir (recordFileName key) = some pending.record)

theorem persist_record (env : Environment) (store : PlanStore) (token reading : Nat) (dir : Directory) (key : Digest) :
    performAll (persistMeta env store token reading).2 dir (recordFileName key) = dir (recordFileName key) :=
  perform_spared _ _ _ (persist_untouched env store token reading _ (record_not_staging _ (record_file_name_record key))
    (record_not_meta _ (record_file_name_record key)).symm)

theorem removed_file (names : List FileName) (dir : Directory) (name : FileName) (listed : name ∈ names) :
    performAll (names.map Effect.remove) dir name = none := by
  induction names generalizing dir with
  | nil => cases listed
  | cons other rest ih =>
      by_cases again : name ∈ rest
      · exact ih _ again
      · obtain rfl := (List.mem_cons.mp listed).resolve_right again
        rw [List.map_cons, performAll, List.foldl_cons]
        refine (perform_spared _ _ name (untouched_removes name rest again)).trans ?_
        exact Function.update_self _ _ _

theorem put_lockstep (env : Environment) (steady : env.Steady) (world : StoreWorld) (paths : PathsMatch world.store.index) (plan : Plan)
    (request : PlanningRequest)
    (removable : ∀ pending, preparePut env world.store plan request = .ok pending →
      ∀ key ∈ pending.evictions, env.removeFault (recordFileName key) = none) (key : Digest) :
    Lockstep env world (.put plan request) key := by
  cases checked : preparePut env world.store plan request with
  | error status =>
      have refused : put env world.store plan request = ⟨.error status, world.store, []⟩ := by rw [put, checked]
      apply Lockstep.kept
      · rw [StoreCall.perform, refused]
      · rw [StoreWorld.after, StoreCall.perform, refused]
        rfl
  | ok pending =>
      have prepared := prepare_put_ok env world.store plan request pending checked
      have done := put_steady env steady world.store plan request pending checked
      have write : (writeRecord env world.store plan pending).2 =
          [.stage (stagingFileName (env.token 0) (env.micros 1)) pending.record,
            .rename (stagingFileName (env.token 0) (env.micros 1)) (recordFileName plan.id.value)] := by
        rw [writeRecord, write_steady env steady]
      have isRecord := record_file_name_record key
      have file (dir : Directory) : performAll (put env world.store plan request).effects dir (recordFileName key) =
          performAll (removalEffects env world.store pending) (performAll (writeRecord env world.store plan pending).2 dir)
            (recordFileName key) := by
        rw [done, perform_append, perform_append, persist_record]
      have after : (world.after env (.put plan request)).dir = performAll (put env world.store plan request).effects world.dir := rfl
      have store : ((StoreCall.put plan request).perform env world).1 = commit env world.store plan pending := by
        rw [StoreCall.perform, done]
      by_cases evicted : key ∈ pending.evictions
      · have held := (evictions_others env world.store plan request pending prepared key evicted).2
        obtain ⟨entry, found⟩ := Option.isSome_iff_exists.mp held
        apply Lockstep.dropped
        · rw [store]
          exact SortedMap.find_erased _ _ key evicted
        · rw [after, file]
          refine removed_file _ _ _ (List.mem_filter.mpr ⟨List.mem_map.mpr ⟨key, evicted, ?_⟩, ?_⟩)
          · rw [found]
            exact paths key entry ((SortedMap.find_some _ _ _).mp found)
          · rw [removable pending checked key evicted]
            rfl
      · have stays : Untouched (recordFileName key) (removalEffects env world.store pending) := by
          refine removal_untouched env world.store pending _ fun listed => ?_
          obtain ⟨other, gone, same⟩ := removals_named world.store paths _ _ isRecord listed
          exact evicted (record_file_name_injective same ▸ gone)
        have rest := file world.dir
        rw [← after, perform_spared _ _ _ stays, write] at rest
        by_cases here : key = plan.id.value
        · refine .stored plan request pending rfl checked here ?_ ?_
          · rw [store, commit, SortedMap.find_erase_all _ _ _ evicted, here, SortedMap.find_insert]
            rfl
          · rw [rest, here]
            exact replaced_file _ _ _ _
        · have untouched := write_untouched env world.store.config.root (env.token 0) (env.micros 1) (recordFileName plan.id.value)
            (recordFileName key) pending.record (record_not_staging _ isRecord) fun same => here (record_file_name_injective same).symm
          rw [write_steady env steady] at untouched
          apply Lockstep.kept
          · rw [store, commit, SortedMap.find_erase_all _ _ _ evicted, SortedMap.find_insert_other _ _ _ _ here]
          · rw [rest]
            exact perform_spared _ _ _ untouched

theorem erase_lockstep (env : Environment) (world : StoreWorld) (paths : PathsMatch world.store.index)
    (id : CollectivePlanId) (key : Digest) : Lockstep env world (.erase id) key := by
  have after : (world.after env (.erase id)).dir = performAll (erase env world.store id).effects world.dir := rfl
  have nothing (refused : (erase env world.store id).store = world.store ∧ (erase env world.store id).effects = []) :
      Lockstep env world (.erase id) key := by
    apply Lockstep.kept
    · rw [StoreCall.perform, refused.1]
    · rw [after, refused.2]
      rfl
  cases found : findEntry world.store id with
  | error status => exact nothing (by rw [erase, found]; exact ⟨rfl, rfl⟩)
  | ok entry =>
      cases fault : env.removeFault entry.path with
      | some message => exact nothing (by simp [erase, found, fault])
      | none =>
          have same : erase env world.store id = ⟨(persistMeta env { world.store with index := world.store.index.erase id.value } 0 0).1,
              { world.store with index := world.store.index.erase id.value },
              .remove entry.path :: (persistMeta env { world.store with index := world.store.index.erase id.value } 0 0).2⟩ := by
            simp only [erase, found, fault]
          have path := paths _ entry ((SortedMap.find_some _ _ _).mp ((find_entry_ok world.store id entry).mp found).2)
          have rest : (world.after env (.erase id)).dir (recordFileName key) =
              Function.update world.dir entry.path none (recordFileName key) := by
            rw [after, same]
            exact persist_record env { world.store with index := world.store.index.erase id.value } 0 0 _ key
          by_cases here : key = id.value
          · apply Lockstep.dropped
            · rw [StoreCall.perform, same, here]
              exact SortedMap.find_erase _ _
            · rw [rest, path, here, Function.update_self]
          · apply Lockstep.kept
            · rw [StoreCall.perform, same]
              exact SortedMap.find_erase_other _ _ _ here
            · rw [rest, path, Function.update_of_ne fun same => here (record_file_name_injective same)]

-- The loop removes the file of an entry exactly when it drops the entry.
theorem drop_lockstep (env : Environment) (keys : List Digest) (count : Nat) (bytes : UInt64) (store : PlanStore) (dir : Directory)
    (paths : PathsMatch store.index) (key : Digest) :
    ((dropOldest env keys count bytes store).store.index.find key = store.index.find key ∧
      performAll (dropOldest env keys count bytes store).effects dir (recordFileName key) = dir (recordFileName key)) ∨
    ((dropOldest env keys count bytes store).store.index.find key = none ∧
      performAll (dropOldest env keys count bytes store).effects dir (recordFileName key) = none) := by
  fun_induction dropOldest env keys count bytes store generalizing dir with
  | case3 _ _ _ _ _ _ _ ih => exact ih dir paths
  | case5 other _ _ _ store _ entry held _ later ih =>
      have path := paths other entry ((SortedMap.find_some _ _ _).mp held)
      have dropped := ih (Function.update dir entry.path none) (each_erase _ _ _ paths)
      by_cases here : key = other
      · refine Or.inr (dropped.elim (fun both => ⟨both.1.trans ?_, both.2.trans ?_⟩) id)
        · rw [here]
          exact SortedMap.find_erase _ _
        · rw [path, here, Function.update_self]
      · refine dropped.imp (fun both => ⟨both.1.trans ?_, both.2.trans ?_⟩) id
        · exact SortedMap.find_erase_other _ _ _ here
        · rw [path, Function.update_of_ne fun same => here (record_file_name_injective same)]
  | _ => exact Or.inl ⟨rfl, rfl⟩

theorem enforce_lockstep (env : Environment) (world : StoreWorld) (paths : PathsMatch world.store.index) (key : Digest) : Lockstep env world .enforceBounds key := by
  let dropped := dropOldest env (oldestFirst world.store.index.entries) world.store.index.entries.length
    (totalBytes world.store) world.store
  have both := drop_lockstep env (oldestFirst world.store.index.entries) world.store.index.entries.length
    (totalBytes world.store) world.store world.dir paths key
  have after : (world.after env .enforceBounds).dir = performAll (enforceBounds env world.store).effects world.dir := rfl
  by_cases closed : world.store.isOpen = false
  · have same : enforceBounds env world.store = ⟨.error notOpen, world.store, []⟩ := by rw [enforceBounds, if_pos closed]
    apply Lockstep.kept
    · rw [StoreCall.perform, same]
    · rw [after, same]
      rfl
  have index : ((StoreCall.enforceBounds).perform env world).1 = dropped.store := by
    rw [StoreCall.perform, enforceBounds, if_neg closed]
    simp only
    split <;> rfl
  have file : (world.after env .enforceBounds).dir (recordFileName key) = performAll dropped.effects world.dir (recordFileName key) := by
    rw [after, enforceBounds, if_neg closed]
    simp only
    split
    · rfl
    · rw [perform_append]
      exact persist_record env dropped.store 0 0 _ key
  rcases both with ⟨found, held⟩ | ⟨gone, missing⟩
  · exact .kept (by rw [index]; exact found) (file.trans held)
  · exact .dropped (by rw [index]; exact gone) (file.trans missing)

theorem call_lockstep (env : Environment) (steady : env.Steady) (world : StoreWorld) (tidy : Tidy world) (call : StoreCall)
    (removable : ∀ plan request pending, call = .put plan request → preparePut env world.store plan request = .ok pending →
      ∀ key ∈ pending.evictions, env.removeFault (recordFileName key) = none) (opening : call ≠ .openStore) (closing : call ≠ .close) (verifying : call ≠ .verifyAll) (key : Digest) :
    Lockstep env world call key := by
  cases call with
  | openStore => exact absurd rfl opening
  | close => exact absurd rfl closing
  | put plan request => exact put_lockstep env steady world tidy.paths plan request (fun pending => removable plan request pending rfl) key
  | erase id => exact erase_lockstep env world tidy.paths id key
  | verifyAll => exact absurd rfl verifying
  | enforceBounds => exact enforce_lockstep env world tidy.paths key

theorem verify_steady (env : Environment) (steady : env.Steady) (dir : Directory) (store : PlanStore) (opened : store.isOpen = true) :
    verifyAll env dir store = ⟨.ok (summaries { store with index := rebuiltIndex env dir store.config 0 }),
      { store with index := rebuiltIndex env dir store.config 0 }, []⟩ := by
  rw [verifyAll, if_neg (by simp [opened]), rebuildIndex]
  simp only [steady.enumerate]
  rfl

theorem opened_rebuilt (env : Environment) (world : StoreWorld) (closed : world.store.isOpen = false)
    (opened : (world.after env .openStore).store.isOpen = true) : (world.after env .openStore).store.index =
      rebuiltIndex env (world.after env .openStore).dir world.store.config 1 := by
  obtain ⟨fenced, written, _, _, _, _, done⟩ := open_ok env world.dir world.store (open_fresh env world closed opened)
  rw [after_open, done]

theorem lists_after (env : Environment) (dir : Directory) (effects : List Effect) (lists : env.Lists dir)
    (untouched : ∀ name, isRecordFile name = true → Untouched name effects) : env.Lists (performAll effects dir) :=
  lists_performed env dir effects lists fun name record => perform_spared _ _ _ (untouched name record)

section View

variable {View : Type} (view : StoreEntry → View)

-- An index that shows what an enumeration of the directory would show.
def Mirrors (config : StoreConfig) (dir : Directory) (index : SortedMap Digest StoreEntry) : Prop :=
  ∀ key, (index.find key).map view = (recordOf dir config (recordFileName key)).map fun summary => view (entryOf key summary)

theorem rebuilt_mirrors (env : Environment) (steady : env.Steady) (dir : Directory) (config : StoreConfig) (layout : Layout dir)
    (lists : env.Lists dir) (enumeration : Nat) : Mirrors view config dir (rebuiltIndex env dir config enumeration) := by
  intro key
  rw [rebuilt_find env steady dir config layout lists, Option.map_map]
  rfl

-- The entry of a committed record shows what its file decodes to.
def ShowsRecord (env : Environment) (world : StoreWorld) (call : StoreCall) : Prop :=
  ∀ plan request pending, call = .put plan request → preparePut env world.store plan request = .ok pending → Storable plan ∧
    view (entryOf plan.id.value (summaryOf plan world.store.incarnation pending.sequence (env.micros 0) pending.record.length)) =
      view (entryOf plan.id.value (summaryOf plan world.store.incarnation pending.sequence (env.micros 2) pending.record.length))

theorem record_of_held (dir after : Directory) (config : StoreConfig) (name : FileName) (same : after name = dir name) :
    recordOf after config name = recordOf dir config name := by rw [recordOf, recordOf, same]

theorem committed_record (env : Environment) (store : PlanStore) (plan : Plan) (request : PlanningRequest) (pending : PendingPut)
    (checked : preparePut env store plan request = .ok pending) (storable : Storable plan) (dir : Directory)
    (held : dir (recordFileName plan.id.value) = some pending.record) :
    recordOf dir store.config (recordFileName plan.id.value) =
      some (summaryOf plan store.incarnation pending.sequence (env.micros 0) pending.record.length) := by
  have prepared := prepare_put_ok env store plan request pending checked
  have decoded := decode_encode_record plan request.canonicalDigest store.incarnation pending.sequence (env.micros 0) storable
    prepared.digest
  rw [← prepared.record] at decoded
  exact (record_of_some _ _ _ _).mpr ⟨pending.record, plan, held, prepared.size, decoded⟩

theorem mirrors_lockstep (env : Environment) (world : StoreWorld) (call : StoreCall)
    (mirrors : Mirrors view world.store.config world.dir world.store.index) (shows : ShowsRecord view env world call)
    (lockstep : ∀ key, Lockstep env world call key) :
    Mirrors view world.store.config (world.after env call).dir (call.perform env world).1.index := by
  intro key
  cases lockstep key with
  | kept index file => rw [index, record_of_held _ _ _ _ file, mirrors key]
  | dropped index file =>
      rw [index, recordOf, file]
      rfl
  | stored plan request pending same checked named index file =>
      obtain ⟨storable, shown⟩ := shows plan request pending same checked
      subst named
      rw [index, committed_record env world.store plan request pending checked storable _ file, Option.map_some, Option.map_some, shown]

theorem open_mirrors (env : Environment) (steady : env.Steady) (world : StoreWorld) (lists : env.Lists world.dir) (tidy : Tidy world)
    (mirrors : world.store.isOpen = true → Mirrors view world.store.config world.dir world.store.index)
    (opened : (world.after env .openStore).store.isOpen = true) :
    Mirrors view world.store.config (world.after env .openStore).dir (world.after env .openStore).store.index := by
  cases before : world.store.isOpen with
  | true =>
      rw [open_refused env world before]
      exact mirrors before
  | false =>
      rw [opened_rebuilt env world before opened]
      exact rebuilt_mirrors view env steady _ _ (call_layout env world .openStore tidy.layout)
        (lists_after env world.dir _ lists (open_untouched env world.dir world.store)) 1

theorem verify_mirrors (env : Environment) (steady : env.Steady) (world : StoreWorld) (lists : env.Lists world.dir) (tidy : Tidy world)
    (opened : world.store.isOpen = true) :
    Mirrors view world.store.config (world.after env .verifyAll).dir (world.after env .verifyAll).store.index := by
  rw [StoreWorld.after, StoreCall.perform, verify_steady env steady world.dir world.store opened]
  exact rebuilt_mirrors view env steady _ _ tidy.layout lists 0

-- An index that mirrors the directory still does after any call.
theorem call_mirrors (env : Environment) (steady : env.Steady) (world : StoreWorld) (lists : env.Lists world.dir) (tidy : Tidy world)
    (call : StoreCall) (mirrors : world.store.isOpen = true → Mirrors view world.store.config world.dir world.store.index)
    (removable : ∀ plan request pending, call = .put plan request → preparePut env world.store plan request = .ok pending →
      ∀ key ∈ pending.evictions, env.removeFault (recordFileName key) = none)
    (shows : ShowsRecord view env world call) (opened : (world.after env call).store.isOpen = true) :
    Mirrors view (world.after env call).store.config (world.after env call).dir (world.after env call).store.index := by
  have config : (world.after env call).store.config = world.store.config := call_config env world call
  rw [config]
  by_cases opening : call = .openStore
  · subst opening
    exact open_mirrors view env steady world lists tidy mirrors opened
  have before := (call_fences env world call).opened opening opened
  by_cases closing : call = .close
  · subst closing
    exact absurd ((close_closed env world.store).symm.trans opened) (by decide)
  by_cases verifying : call = .verifyAll
  · subst verifying
    exact verify_mirrors view env steady world lists tidy before
  exact mirrors_lockstep view env world call (mirrors before) shows
    (call_lockstep env steady world tidy call removable opening closing verifying)

end View

end PathPlanner.PlanStore

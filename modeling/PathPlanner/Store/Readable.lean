import PathPlanner.Store.Frames
import PathPlanner.PlanAudit

set_option autoImplicit false

namespace PathPlanner.PlanStore

open Checks Codec StoreFiles StoreRecord ValidatePlan

def Evicted (digest : Digest) (before after : PlanStore) : Prop :=
  (before.index.find digest).isSome = true ∧ after.index.find digest = none

-- The call neither erases, evicts nor replaces the record.
def KeepsRecord (digest : Digest) (env : Environment) (world : StoreWorld) : StoreCall → Prop
  | .put plan request => plan.id.value ≠ digest ∧ ¬ Evicted digest world.store (put env world.store plan request).store
  | .erase id => id.value ≠ digest
  | .enforceBounds => ¬ Evicted digest world.store (enforceBounds env world.store).store
  | _ => True

-- A fault-free call that keeps the record.
def QuietlyKeeps (digest : Digest) (world : StoreWorld) : StoreMove → Prop
  | .finished env call => env.Calm ∧ env.Lists world.dir ∧ KeepsRecord digest env world call
  | .crashed .. => False

-- What a world owes to a record that was committed in it.
structure Holds (digest : Digest) (record : Bytes) (world : StoreWorld) : Prop where
  tidy : Tidy world
  file : world.dir (recordFileName digest) = some record
  size : record.length ≤ world.store.config.maxRecordBytes
  decodes : ∃ plan summary, decodePlanRecord record = .ok (plan, summary) ∧ summary.id.value = digest
  indexed : world.store.isOpen = true → (world.store.index.find digest).isSome = true
  rooted : world.store.config.root.isEmpty = false
  metadata : ∃ epoch incarnation sequence, world.dir metaFileName = some (encodeMeta epoch incarnation sequence)

theorem holds_open (digest : Digest) (record : Bytes) (world : StoreWorld) (env : Environment) (calm : env.Calm)
    (lists : env.Lists world.dir) (holds : Holds digest record world) :
    Holds digest record (world.after env .openStore) := by
  have tidy := tidy_moved world (.finished env .openStore) holds.tidy
  cases opened : world.store.isOpen with
  | true =>
      have same : world.after env .openStore = world := by
        have refused : openStore env world.dir world.store =
            ⟨.error (failure .storeAlreadyOpen "the store is already open"), world.store, []⟩ := by
          rw [openStore, if_pos opened]
        rw [StoreWorld.after, StoreCall.perform, refused]
        rfl
      rw [same]
      exact holds
  | false =>
      obtain ⟨epoch, incarnation, sequence, metadata⟩ := holds.metadata
      have done := steady_open env calm.toSteady world.dir world.store opened holds.rooted epoch incarnation sequence metadata
      have files (name : FileName) (isRecord : isRecordFile name = true) : (world.after env .openStore).dir name = world.dir name := by
        change performAll (openStore env world.dir world.store).effects world.dir name = _
        rw [done]
        exact perform_spared _ _ _ (opening_untouched env _ name isRecord)
      have file : (world.after env .openStore).dir (recordFileName digest) = some record :=
        (files _ (record_file_name_record digest)).trans holds.file
      have store : (world.after env .openStore).store = (openStore env world.dir world.store).store := rfl
      refine ⟨tidy, file, ?_, holds.decodes, fun _ => ?_, ?_, ?_⟩
      · rw [store, done]
        exact holds.size
      · obtain ⟨plan, summary, decoded, named⟩ := holds.decodes
        have found := rebuilt_find env calm.toSteady (world.after env .openStore).dir world.store.config tidy.layout
          (lists_performed env world.dir _ lists files) 1 digest
        have read : recordOf (world.after env .openStore).dir world.store.config (recordFileName digest) = some summary :=
          (record_of_some _ _ _ _).mpr ⟨record, plan, file, holds.size, decoded⟩
        rw [read] at found
        have indexed : (world.after env .openStore).store.index =
            rebuiltIndex env (world.after env .openStore).dir world.store.config 1 := by
          change (openStore env world.dir world.store).store.index =
            rebuiltIndex env (performAll (openStore env world.dir world.store).effects world.dir) world.store.config 1
          rw [done]
        rw [indexed, found]
        rfl
      · rw [store, done]
        exact holds.rooted
      · refine ⟨⟨epoch.value + 1⟩, ⟨incarnation.value + 1⟩, sequence, ?_⟩
        change performAll (openStore env world.dir world.store).effects world.dir metaFileName = _
        rw [done]
        exact persisted_steady env calm.toSteady (advanced world.store epoch incarnation sequence) 0 0 (staleEffects env) world.dir

-- A call that touches neither the record's file nor the configuration, and rewrites the metadata if anything.
theorem holds_kept (digest : Digest) (record : Bytes) (world : StoreWorld) (env : Environment) (call : StoreCall)
    (holds : Holds digest record world) (file : Untouched (recordFileName digest) (call.perform env world).2)
    (metadata : Untouched metaFileName (call.perform env world).2 ∨ ∃ epoch incarnation sequence,
      (world.after env call).dir metaFileName = some (encodeMeta epoch incarnation sequence))
    (indexed : (call.perform env world).1.isOpen = true → ((call.perform env world).1.index.find digest).isSome = true) :
    Holds digest record (world.after env call) := by
  have config := call_config env world call
  refine ⟨tidy_moved world (.finished env call) holds.tidy, ?_, ?_, holds.decodes, indexed, ?_, ?_⟩
  · exact (perform_spared _ _ _ file).trans holds.file
  · change record.length ≤ (call.perform env world).1.config.maxRecordBytes
    rw [config]
    exact holds.size
  · change (call.perform env world).1.config.root.isEmpty = false
    rw [config]
    exact holds.rooted
  · rcases metadata with untouched | rewritten
    · obtain ⟨epoch, incarnation, sequence, held⟩ := holds.metadata
      exact ⟨epoch, incarnation, sequence, (perform_spared _ _ _ untouched).trans held⟩
    · exact rewritten

theorem holds_close (digest : Digest) (record : Bytes) (world : StoreWorld) (env : Environment) (calm : env.Calm)
    (holds : Holds digest record world) : Holds digest record (world.after env .close) := by
  by_cases closed : world.store.isOpen = false
  · have same : close env world.store = ⟨.ok (), world.store, []⟩ := by rw [close, if_pos closed]
    refine holds_kept digest record world env .close holds ?_ (Or.inl ?_) ?_
    · rw [StoreCall.perform, same]
      exact untouched_nil _
    · rw [StoreCall.perform, same]
      exact untouched_nil _
    · rw [StoreCall.perform, same]
      exact holds.indexed
  · have same : close env world.store = ⟨.ok (), { world.store with index := SortedMap.empty, isOpen := false },
        (persistMeta env world.store 0 0).2⟩ := by
      rw [close, if_neg closed]
      simp only [persist_steady env calm.toSteady]
    have isRecord := record_file_name_record digest
    refine holds_kept digest record world env .close holds ?_ (Or.inr ⟨world.store.epoch, world.store.incarnation, world.store.sequence, ?_⟩) ?_
    · rw [StoreCall.perform, same]
      exact persist_untouched env _ 0 0 _ (record_not_staging _ isRecord) (record_not_meta _ isRecord).symm
    · change performAll (close env world.store).effects world.dir metaFileName = _
      rw [same]
      exact persisted_steady env calm.toSteady world.store 0 0 [] world.dir
    · rw [StoreCall.perform, same]
      intro opened
      cases opened

theorem holds_put (digest : Digest) (record : Bytes) (world : StoreWorld) (env : Environment) (calm : env.Calm) (plan : Plan)
    (request : PlanningRequest) (keeps : KeepsRecord digest env world (.put plan request)) (holds : Holds digest record world) :
    Holds digest record (world.after env (.put plan request)) := by
  obtain ⟨other, kept⟩ := keeps
  have isRecord := record_file_name_record digest
  have performed := put_case env world.store plan request
  have moved : (StoreCall.put plan request).perform env world =
      ((put env world.store plan request).store, (put env world.store plan request).effects) := rfl
  have after : (world.after env (.put plan request)).dir = performAll (put env world.store plan request).effects world.dir := rfl
  generalize put env world.store plan request = done at performed moved after kept
  cases performed with
  | refused status checked =>
      refine holds_kept digest record world env _ holds ?_ (Or.inl ?_) ?_ <;> rw [moved]
      · exact untouched_nil _
      · exact untouched_nil _
      · exact holds.indexed
  | unwritten status pending written checked write =>
      rw [writeRecord, write_steady env calm.toSteady] at write
      cases write
  | unpersisted status pending written persisted checked write persist =>
      rw [persist_steady env calm.toSteady] at persist
      cases persist
  | committed pending written persisted checked write persist =>
      have opened := (prepare_put_ok env world.store plan request pending checked).opened
      have stays : digest ∉ pending.evictions := by
        intro evicted
        refine kept ⟨holds.indexed opened, ?_⟩
        rw [Option.eq_none_iff_forall_ne_some]
        intro entry found
        rw [SortedMap.find_some] at found
        exact ((SortedMap.mem_erase_all _ _ _ _).mp found).1 evicted
      have indexed : (commit env world.store plan pending).index.find digest = world.store.index.find digest := by
        rw [commit, SortedMap.find_erase_all _ _ _ stays, SortedMap.find_insert_other _ _ _ _ (Ne.symm other)]
      refine holds_kept digest record world env _ holds ?_
        (Or.inr ⟨(commit env world.store plan pending).epoch, (commit env world.store plan pending).incarnation,
          (commit env world.store plan pending).sequence, ?_⟩) ?_
      · rw [moved]
        refine (untouched_append _ _ _).mpr ⟨?_, (untouched_append _ _ _).mpr ⟨?_, ?_⟩⟩
        · have spared := write_untouched env world.store.config.root (env.token 0) (env.micros 1) (recordFileName plan.id.value)
            (recordFileName digest) pending.record (record_not_staging _ isRecord) fun same => other (record_file_name_injective same)
          rw [writeRecord] at write
          rwa [write] at spared
        · refine removal_untouched env world.store pending _ fun listed => ?_
          obtain ⟨key, evicted, same⟩ := removals_named world.store holds.tidy.paths _ _ isRecord listed
          exact stays (record_file_name_injective same ▸ evicted)
        · have spared := persist_untouched env (commit env world.store plan pending) 1 3 _ (record_not_staging _ isRecord)
            (record_not_meta _ isRecord).symm
          rwa [persist] at spared
      · rw [after, ← List.append_assoc]
        exact persisted_meta env _ 1 3 _ _ world.dir persist
      · rw [moved]
        intro _
        rw [indexed]
        exact holds.indexed opened

theorem holds_erase (digest : Digest) (record : Bytes) (world : StoreWorld) (env : Environment) (calm : env.Calm)
    (id : CollectivePlanId) (other : id.value ≠ digest) (holds : Holds digest record world) :
    Holds digest record (world.after env (.erase id)) := by
  have isRecord := record_file_name_record digest
  cases found : findEntry world.store id with
  | error status =>
      have same : erase env world.store id = ⟨.error status, world.store, []⟩ := by rw [erase, found]
      refine holds_kept digest record world env _ holds ?_ (Or.inl ?_) ?_ <;> rw [StoreCall.perform, same]
      · exact untouched_nil _
      · exact untouched_nil _
      · exact holds.indexed
  | ok entry =>
      have same : erase env world.store id = ⟨.ok (), { world.store with index := world.store.index.erase id.value },
          .remove entry.path :: (persistMeta env { world.store with index := world.store.index.erase id.value } 0 0).2⟩ := by
        simp only [erase, found, calm.remove]
        rw [persist_steady env calm.toSteady]
      have path : entry.path = recordFileName id.value := by
        rw [findEntry, then_ok] at found
        have held := found.2
        split at held
        · cases held
        · cases held
          exact holds.tidy.paths _ _ ((SortedMap.find_some _ _ _).mp (by assumption))
      refine holds_kept digest record world env _ holds ?_
        (Or.inr ⟨world.store.epoch, world.store.incarnation, world.store.sequence, ?_⟩) ?_
      · rw [StoreCall.perform, same]
        refine (untouched_append _ [.remove entry.path] _).mpr ⟨?_, ?_⟩
        · refine untouched_removes _ [entry.path] fun listed => ?_
          rw [List.mem_singleton, path] at listed
          exact other (record_file_name_injective listed.symm)
        · exact persist_untouched env _ 0 0 _ (record_not_staging _ isRecord) (record_not_meta _ isRecord).symm
      · change performAll (erase env world.store id).effects world.dir metaFileName = _
        rw [same]
        exact persisted_steady env calm.toSteady { world.store with index := world.store.index.erase id.value } 0 0 [.remove entry.path] world.dir
      · rw [StoreCall.perform, same]
        intro opened
        change ((world.store.index.erase id.value).find digest).isSome = true
        rw [SortedMap.find_erase_other _ _ _ (Ne.symm other)]
        exact holds.indexed opened

theorem holds_verify (digest : Digest) (record : Bytes) (world : StoreWorld) (env : Environment) (calm : env.Calm)
    (lists : env.Lists world.dir) (holds : Holds digest record world) : Holds digest record (world.after env .verifyAll) := by
  have quiet : (verifyAll env world.dir world.store).effects = [] := by
    unfold verifyAll
    split
    · rfl
    · split <;> rfl
  refine holds_kept digest record world env .verifyAll holds ?_ (Or.inl ?_) fun opened => ?_
  · rw [StoreCall.perform, quiet]
    exact untouched_nil _
  · rw [StoreCall.perform, quiet]
    exact untouched_nil _
  · by_cases closed : world.store.isOpen = false
    · have same : verifyAll env world.dir world.store = ⟨.error notOpen, world.store, []⟩ := by rw [verifyAll, if_pos closed]
      rw [StoreCall.perform, same] at opened ⊢
      exact holds.indexed opened
    · have index : (verifyAll env world.dir world.store).store.index = rebuiltIndex env world.dir world.store.config 0 := by
        rw [verifyAll, if_neg closed, rebuildIndex]
        simp only [calm.enumerate]
        rfl
      obtain ⟨plan, summary, decoded, named⟩ := holds.decodes
      change ((verifyAll env world.dir world.store).store.index.find digest).isSome = true
      rw [index, rebuilt_find env calm.toSteady _ _ holds.tidy.layout lists,
        (record_of_some _ _ _ summary).mpr ⟨record, plan, holds.file, holds.size, decoded⟩]
      rfl

theorem drop_calm (env : Environment) (calm : env.Calm) (keys : List Digest) (count : Nat) (bytes : UInt64) (store : PlanStore) :
    (dropOldest env keys count bytes store).result = .ok () := by
  fun_induction dropOldest env keys count bytes store with
  | case3 _ _ _ _ _ _ _ ih => exact ih
  | case4 _ _ _ _ _ _ entry _ message failed =>
      rw [calm.remove] at failed
      cases failed
  | case5 _ _ _ _ _ _ _ _ _ _ ih => exact ih
  | _ => rfl

theorem holds_enforce (digest : Digest) (record : Bytes) (world : StoreWorld) (env : Environment) (calm : env.Calm)
    (kept : ¬ Evicted digest world.store (enforceBounds env world.store).store) (holds : Holds digest record world) :
    Holds digest record (world.after env .enforceBounds) := by
  have isRecord := record_file_name_record digest
  by_cases closed : world.store.isOpen = false
  · have same : enforceBounds env world.store = ⟨.error notOpen, world.store, []⟩ := by rw [enforceBounds, if_pos closed]
    refine holds_kept digest record world env _ holds ?_ (Or.inl ?_) ?_ <;> rw [StoreCall.perform, same]
    · exact untouched_nil _
    · exact untouched_nil _
    · exact holds.indexed
  have opened : world.store.isOpen = true := by simpa using closed
  let dropped := dropOldest env (oldestFirst world.store.index.entries) world.store.index.entries.length
    (totalBytes world.store) world.store
  have same : enforceBounds env world.store =
      ⟨.ok (), dropped.store, dropped.effects ++ (persistMeta env dropped.store 0 0).2⟩ := by
    have done : dropped.result = .ok () := drop_calm env calm _ _ _ _
    simp only [dropped] at done ⊢
    simp only [enforceBounds, if_neg closed, done, persist_steady env calm.toSteady]
  have indexed : (dropped.store.index.find digest).isSome = true := by
    rw [same] at kept
    by_contra gone
    exact kept ⟨holds.indexed opened, by simpa using gone⟩
  have spared (name : FileName) (survives : ∀ key, dropped.store.index.find key = none → name ≠ recordFileName key) :
      Untouched name dropped.effects := by
    intro effect member
    obtain ⟨key, _, rfl, gone⟩ := drop_effects env _ _ _ _ holds.tidy.paths effect member
    exact (survives key gone).symm
  refine holds_kept digest record world env _ holds ?_
    (Or.inr ⟨dropped.store.epoch, dropped.store.incarnation, dropped.store.sequence, ?_⟩) ?_
  · rw [StoreCall.perform, same]
    refine (untouched_append _ _ _).mpr ⟨spared _ fun key gone named => ?_, ?_⟩
    · rw [record_file_name_injective named, gone] at indexed
      cases indexed
    · exact persist_untouched env _ 0 0 _ (record_not_staging _ isRecord) (record_not_meta _ isRecord).symm
  · change performAll (enforceBounds env world.store).effects world.dir metaFileName = _
    rw [same]
    exact persisted_steady env calm.toSteady dropped.store 0 0 dropped.effects world.dir
  · rw [StoreCall.perform, same]
    exact fun _ => indexed

theorem holds_moved (digest : Digest) (record : Bytes) (world : StoreWorld) (move : StoreMove) (holds : Holds digest record world)
    (quiet : QuietlyKeeps digest world move) : Holds digest record (world.moved move) := by
  cases move with
  | crashed env call steps config => exact quiet.elim
  | finished env call =>
      obtain ⟨calm, lists, keeps⟩ := quiet
      cases call with
      | openStore => exact holds_open digest record world env calm lists holds
      | close => exact holds_close digest record world env calm holds
      | put plan request => exact holds_put digest record world env calm plan request keeps holds
      | erase id => exact holds_erase digest record world env calm id keeps holds
      | verifyAll => exact holds_verify digest record world env calm lists holds
      | enforceBounds => exact holds_enforce digest record world env calm keeps holds

theorem get_held (digest : Digest) (record : Bytes) (world : StoreWorld) (holds : Holds digest record world)
    (opened : world.store.isOpen = true) (env : Environment) (calm : env.Calm) (plan : Plan) (summary : StoredPlanSummary)
    (decoded : decodePlanRecord record = .ok (plan, summary)) : get env world.dir world.store ⟨digest⟩ = .ok plan := by
  obtain ⟨entry, found⟩ := Option.isSome_iff_exists.mp (holds.indexed opened)
  have path := holds.tidy.paths digest entry ((SortedMap.find_some _ _ _).mp found)
  rw [get, bind_ok]
  refine ⟨entry, ?_, ?_⟩
  · rw [findEntry, then_ok, deny_ok, found]
    exact ⟨by simp [opened], rfl⟩
  · rw [bind_ok]
    refine ⟨record, ?_, ?_⟩
    · rw [path]
      exact read_file_calm env _ _ _ _ record (calm.read _) holds.file holds.size
    · rw [bind_ok]
      exact ⟨(plan, summary), decoded, rfl⟩

-- What a put that succeeded leaves behind, whatever faults the environment had.
theorem put_committed (env : Environment) (store : PlanStore) (plan : Plan) (request : PlanningRequest) (summary : StoredPlanSummary)
    (stored : (put env store plan request).result = .ok summary) :
    ∃ pending written persisted, preparePut env store plan request = .ok pending ∧
      writeRecord env store plan pending = (.ok (), written) ∧
      persistMeta env (commit env store plan pending) 1 3 = (.ok (), persisted) ∧
      put env store plan request =
        ⟨.ok (summaryOf plan store.incarnation pending.sequence (env.micros 2) pending.record.length),
          commit env store plan pending, written ++ (removalEffects env store pending ++ persisted)⟩ := by
  have performed := put_case env store plan request
  generalize put env store plan request = done at performed stored ⊢
  cases performed with
  | refused status checked => cases stored
  | unwritten status pending written checked write => cases stored
  | unpersisted status pending written persisted checked write persist => cases stored
  | committed pending written persisted checked write persist => exact ⟨pending, written, persisted, checked, write, persist, rfl⟩

theorem committed_indexed (env : Environment) (store : PlanStore) (plan : Plan) (request : PlanningRequest) (pending : PendingPut)
    (checked : preparePut env store plan request = .ok pending) :
    (commit env store plan pending).index.find plan.id.value =
      some (entryOf plan.id.value (summaryOf plan store.incarnation pending.sequence (env.micros 2) pending.record.length)) := by
  have prepared := prepare_put_ok env store plan request pending checked
  rw [commit, SortedMap.find_erase_all _ _ _ fun evicted =>
    (evictions_others env store plan request pending prepared _ evicted).1 rfl]
  exact SortedMap.find_insert _ _ _

-- A plan is given back if every later look at its record returns it and every later reopening succeeds.
structure GivesBack (world : StoreWorld) (plan : Plan) : Prop where
  read : ∀ later, Runs (QuietlyKeeps plan.id.value) world later → later.store.isOpen = true →
    ∀ env : Environment, env.Calm → get env later.dir later.store plan.id = .ok plan
  reopened : ∀ later, Runs (QuietlyKeeps plan.id.value) world later → later.store.isOpen = false →
    ∀ env : Environment, env.Calm → (openStore env later.dir later.store).result = .ok ()

theorem stored_holds (world : StoreWorld) (reachable : Reachable world) (env : Environment) (plan : Plan)
    (request : PlanningRequest) (summary : StoredPlanSummary) (stored : (put env world.store plan request).result = .ok summary)
    (storable : Storable plan) : ∃ record written, Holds plan.id.value record (world.after env (.put plan request)) ∧
      decodePlanRecord record = .ok (plan, written) := by
  have tidy := reachable_tidy world reachable
  obtain ⟨pending, written, persisted, checked, write, persist, done⟩ := put_committed env world.store plan request summary stored
  have prepared := prepare_put_ok env world.store plan request pending checked
  have files := committed_files env world.store tidy.paths plan request pending written persisted world.dir checked write persist
  have decoded := decode_encode_record plan request.canonicalDigest world.store.incarnation pending.sequence (env.micros 0) storable
    prepared.digest
  rw [← prepared.record] at decoded
  have after : world.after env (.put plan request) =
      ⟨performAll (written ++ (removalEffects env world.store pending ++ persisted)) world.dir, commit env world.store plan pending⟩ := by
    rw [StoreWorld.after, StoreCall.perform, done]
  refine ⟨pending.record, _, ⟨tidy_moved world (.finished env (.put plan request)) tidy, ?_, ?_, ⟨plan, _, decoded, ?_⟩, ?_, ?_, ?_⟩, decoded⟩
  · rw [after]
    exact files.1
  · rw [after]
    exact prepared.size
  · rfl
  · rw [after, committed_indexed env world.store plan request pending checked]
    exact fun _ => rfl
  · rw [after]
    exact tidy.rooted prepared.opened
  · rw [after]
    exact ⟨_, _, _, files.2⟩

theorem held_given_back (world : StoreWorld) (plan : Plan) (record : Bytes) (written : StoredPlanSummary)
    (holds : Holds plan.id.value record world) (decoded : decodePlanRecord record = .ok (plan, written)) : GivesBack world plan := by
  have always (later : StoreWorld) (run : Runs (QuietlyKeeps plan.id.value) world later) : Holds plan.id.value record later :=
    runs_invariant _ (Holds plan.id.value record) (holds_moved plan.id.value record) world later holds run
  constructor
  · intro later run opened env calm
    exact get_held plan.id.value record later (always later run) opened env calm plan written decoded
  · intro later run closed env calm
    obtain ⟨epoch, incarnation, sequence, metadata⟩ := (always later run).metadata
    rw [steady_open env calm.toSteady later.dir later.store closed (always later run).rooted epoch incarnation sequence metadata]

-- The record a put has just committed reads back as the plan only if its decoder takes the plan.
theorem given_back_storable (world : StoreWorld) (reachable : Reachable world) (env : Environment) (plan : Plan)
    (request : PlanningRequest) (summary : StoredPlanSummary) (stored : (put env world.store plan request).result = .ok summary)
    (back : GivesBack (world.after env (.put plan request)) plan) : Storable plan := by
  have tidy := reachable_tidy world reachable
  obtain ⟨pending, written, persisted, checked, write, persist, done⟩ := put_committed env world.store plan request summary stored
  have prepared := prepare_put_ok env world.store plan request pending checked
  have files := committed_files env world.store tidy.paths plan request pending written persisted world.dir checked write persist
  have after : world.after env (.put plan request) =
      ⟨performAll (written ++ (removalEffects env world.store pending ++ persisted)) world.dir, commit env world.store plan pending⟩ := by
    rw [StoreWorld.after, StoreCall.perform, done]
  have opened : (world.after env (.put plan request)).store.isOpen = true := by
    rw [after]
    exact prepared.opened
  have calm := quiet_calm [] 0
  have read := back.read _ .refl opened (quietEnvironment [] 0) calm
  rw [after, get, bind_ok] at read
  obtain ⟨entry, found, read⟩ := read
  rw [findEntry, then_ok, committed_indexed env world.store plan request pending checked] at found
  obtain ⟨_, ⟨⟩⟩ := found
  rw [bind_ok] at read
  obtain ⟨bytes, held, read⟩ := read
  obtain ⟨file, _⟩ := read_file_ok _ _ _ _ _ _ held
  have same := files.1.symm.trans file
  rw [Option.some.injEq] at same
  subst same
  rw [bind_ok] at read
  obtain ⟨⟨found, carried⟩, decoded, ⟨⟩⟩ := read
  rw [prepared.record] at decoded
  exact (encoded_record_decodes _ _ _ _ _ _ _ decoded).1

theorem given_back_iff (world : StoreWorld) (reachable : Reachable world) (env : Environment) (plan : Plan)
    (request : PlanningRequest) (summary : StoredPlanSummary) (stored : (put env world.store plan request).result = .ok summary) :
    GivesBack (world.after env (.put plan request)) plan ↔ Storable plan := by
  constructor
  · exact given_back_storable world reachable env plan request summary stored
  · intro storable
    obtain ⟨record, written, holds, decoded⟩ := stored_holds world reachable env plan request summary stored storable
    exact held_given_back _ plan record written holds decoded

-- The first record of an open store needs no room made for it.
theorem prepare_first (env : Environment) (store : PlanStore) (plan : Plan) (request : PlanningRequest) (opened : store.isOpen = true)
    (empty : store.index = SortedMap.empty) (digest : plan.inputDigest = request.canonicalDigest)
    (valid : validatePlan plan request = .ok ())
    (small : 127 + plan.collective.value.length + ((Plan.encode plan).length + kRecordDigests) ≤ store.config.maxRecordBytes)
    (records : 0 < store.config.maxRecords)
    (bytes : UInt64.ofNat (127 + plan.collective.value.length + ((Plan.encode plan).length + kRecordDigests)) ≤ store.config.maxTotalBytes) :
    preparePut env store plan request = .ok {
      record := encodePlanRecord plan request.canonicalDigest store.incarnation (store.sequence + 1) (env.micros 0)
      sequence := store.sequence + 1
      evictions := [] } := by
  have alone (count : Nat) : projectPut store plan.id.value count = ([], 1, UInt64.ofNat count) := by
    simp [projectPut, others, empty, SortedMap.empty, recordBytesOf, oldestFirst, Sequence.sortValues, evict, SortedMap.find]
  rw [preparePut, then_ok, deny_ok]
  refine ⟨by simp [opened], ?_⟩
  rw [then_ok, deny_ok, then_ok, then_ok, deny_ok, encode_record_length]
  refine ⟨not_not.mpr digest, valid, not_lt.mpr small, ?_⟩
  rw [alone]
  simp only [then_ok, deny_ok, not_not, and_true]
  exact ⟨records, bytes⟩

theorem encode_rebound_length (plan : Plan) (digest : Digest) (bindings : GenerationBindings) :
    (Plan.encode { plan with inputDigest := digest, bindings }).length = (Plan.encode plan).length := by
  simp only [Plan.encode, List.length_append, ByteWriter.digest_length, Plan.encodeBindings, ByteWriter.generation_length]

theorem forged_length : (Plan.encode forgedPlan).length = 324 := by
  have head : (Plan.encode { forgedPlan with inputDigest := Digest.zero, bindings := {} }).length = 324 := by decide +kernel
  rw [encode_rebound_length] at head
  exact head

theorem forged_stored : ∃ summary, (put (quietEnvironment [] 0) openedWorld.store forgedPlan barred.request).result = .ok summary := by
  have checked := prepare_first (quietEnvironment [] 0) openedWorld.store forgedPlan barred.request rfl rfl forged_digest forged_accepted
    (by rw [forged_length]; decide +kernel) (by decide) (by rw [forged_length]; decide +kernel)
  rw [put_steady _ (quiet_calm [] 0).toSteady _ _ _ _ checked]
  exact ⟨_, rfl⟩

theorem forged_given_back_iff : ∃ summary, (put (quietEnvironment [] 0) openedWorld.store forgedPlan barred.request).result = .ok summary ∧
    (GivesBack (openedWorld.after (quietEnvironment [] 0) (.put forgedPlan barred.request)) forgedPlan ↔ Storable forgedPlan) := by
  obtain ⟨summary, stored⟩ := forged_stored
  exact ⟨summary, stored, given_back_iff openedWorld opened_reachable (quietEnvironment [] 0) forgedPlan barred.request summary stored⟩

-- The validator does not compare the path count in the statistics with the paths; the decoder does.
theorem stored_plan_lost : ¬ ∀ (world : StoreWorld) (_ : Reachable world) (env : Environment) (plan : Plan)
    (request : PlanningRequest) (summary : StoredPlanSummary), (put env world.store plan request).result = .ok summary →
    GivesBack (world.after env (.put plan request)) plan := by
  intro claimed
  obtain ⟨summary, stored⟩ := forged_stored
  have back := claimed openedWorld opened_reachable _ forgedPlan barred.request summary stored
  have counted := (given_back_storable openedWorld opened_reachable _ forgedPlan barred.request summary stored back).decodable.counted
  revert counted
  decide

end PathPlanner.PlanStore

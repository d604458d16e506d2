import PathPlanner.Store.Refinement

set_option autoImplicit false

namespace PathPlanner.PlanStore

open Checks Codec PlanCollective StoreFiles StoreRecord ValidatePlan

def Present (dir : Directory) (name : FileName) : Prop := isRecordFile name = true ∧ (dir name).isSome = true

def fileSize (dir : Directory) (name : FileName) : Nat := ((dir name).map List.length).getD 0

-- The bounds, counted over the record files themselves.
def FilesWithin (config : StoreConfig) (dir : Directory) : Prop :=
  ∀ names : List FileName, names.Nodup → (∀ name ∈ names, Present dir name) →
    names.length ≤ config.maxRecords ∧ (names.map (fileSize dir)).sum ≤ config.maxTotalBytes.toNat

-- Every record file is one that an enumeration takes in.
def Readables (config : StoreConfig) (dir : Directory) : Prop :=
  ∀ name, Present dir name → ∃ summary, recordOf dir config name = some summary

-- Each record file is as it was or gone.
def Shrinks (dir after : Directory) : Prop := ∀ name, isRecordFile name = true → after name = dir name ∨ after name = none

theorem shrinks_present (dir after : Directory) (shrinks : Shrinks dir after) (name : FileName) (present : Present after name) :
    after name = dir name := by
  refine (shrinks name present.1).resolve_right fun gone => ?_
  have held := present.2
  rw [gone] at held
  cases held

theorem shrinks_within (config : StoreConfig) (dir after : Directory) (shrinks : Shrinks dir after) (within : FilesWithin config dir) :
    FilesWithin config after := by
  intro names distinct present
  have same (name : FileName) (member : name ∈ names) := shrinks_present dir after shrinks name (present name member)
  have sizes : names.map (fileSize after) = names.map (fileSize dir) :=
    List.map_congr_left fun name member => by rw [fileSize, fileSize, same name member]
  rw [sizes]
  refine within names distinct fun name member => ⟨(present name member).1, ?_⟩
  rw [← same name member]
  exact (present name member).2

theorem shrinks_readables (config : StoreConfig) (dir after : Directory) (shrinks : Shrinks dir after)
    (readables : Readables config dir) : Readables config after := by
  intro name present
  have same := shrinks_present dir after shrinks name present
  rw [record_of_held dir after config name same]
  exact readables name ⟨present.1, same ▸ present.2⟩

theorem decoded_bytes (bytes : Bytes) (plan : Plan) (summary : StoredPlanSummary) (decoded : decodePlanRecord bytes = .ok (plan, summary)) :
    summary.recordBytes.toNat = bytes.length := by
  obtain ⟨storable, metadata, readable, record, carried⟩ := decode_record_canonical bytes plan summary decoded
  have total := record_with_length plan metadata plan.inputDigest
  have short := readable_short metadata readable
  have room := storable.room
  rw [← record] at total
  rw [carried]
  simp only [summaryOf, UInt64.toNat_ofNat']
  simp only [kMaxPlanRecordBytes] at room
  exact Nat.mod_eq_of_lt (by omega)

def sizeShown (entry : StoreEntry) : UInt64 := entry.summary.recordBytes

theorem mirrored_size (config : StoreConfig) (dir : Directory) (index : SortedMap Digest StoreEntry)
    (mirrors : Mirrors sizeShown config dir index) (key : Digest) (entry : StoreEntry) (member : (key, entry) ∈ index.entries) :
    Present dir (recordFileName key) ∧ fileSize dir (recordFileName key) = entry.summary.recordBytes.toNat := by
  have shown := mirrors key
  rw [(index.find_some key entry).mpr member] at shown
  cases found : recordOf dir config (recordFileName key) with
  | none =>
      rw [found] at shown
      cases shown
  | some summary =>
      rw [found, Option.map_some, Option.map_some, Option.some.injEq] at shown
      obtain ⟨bytes, plan, held, _, decoded⟩ := (record_of_some _ _ _ _).mp found
      refine ⟨⟨record_file_name_record key, by rw [held]; rfl⟩, ?_⟩
      rw [fileSize, held, Option.map_some, Option.getD_some, ← decoded_bytes bytes plan summary decoded]
      exact congrArg UInt64.toNat shown.symm

theorem mirrored_entry (config : StoreConfig) (dir : Directory) (index : SortedMap Digest StoreEntry) (layout : Layout dir)
    (readables : Readables config dir) (mirrors : Mirrors sizeShown config dir index) (name : FileName) (present : Present dir name) :
    name ∈ index.entries.map fun entry => recordFileName entry.1 := by
  obtain ⟨summary, found⟩ := readables name present
  have named := record_of_named dir config layout name summary present.1 found
  have shown := mirrors summary.id.value
  rw [← named, found] at shown
  cases held : index.find summary.id.value with
  | none =>
      rw [held] at shown
      cases shown
  | some entry => exact List.mem_map.mpr ⟨(summary.id.value, entry), (index.find_some _ _).mp held, named.symm⟩

-- The files fit the bounds exactly when the index that mirrors them does.
theorem mirrored_within (config : StoreConfig) (dir : Directory) (index : SortedMap Digest StoreEntry) (layout : Layout dir)
    (readables : Readables config dir) (mirrors : Mirrors sizeShown config dir index) :
    FilesWithin config dir ↔ FitsBounds config index := by
  have sizes : (index.entries.map fun entry => recordFileName entry.1).map (fileSize dir) =
      index.entries.map fun entry => entry.2.summary.recordBytes.toNat := by
    rw [List.map_map]
    exact List.map_congr_left fun entry member => (mirrored_size config dir index mirrors entry.1 entry.2 member).2
  constructor
  · intro within
    have distinct : (index.entries.map fun entry => recordFileName entry.1).Nodup := by
      rw [List.Nodup, List.pairwise_map]
      exact index.sorted.imp fun less same => ne_of_lt less (record_file_name_injective same)
    obtain ⟨count, bytes⟩ := within _ distinct fun name member => by
      obtain ⟨entry, listed, rfl⟩ := List.mem_map.mp member
      exact (mirrored_size config dir index mirrors entry.1 entry.2 listed).1
    rw [sizes] at bytes
    rw [List.length_map] at count
    exact ⟨count, bytes⟩
  · intro fits names distinct present
    have part : names.Subperm (index.entries.map fun entry => recordFileName entry.1) :=
      distinct.subperm fun name member => mirrored_entry config dir index layout readables mirrors name (present name member)
    refine ⟨part.length_le.trans (by rw [List.length_map]; exact fits.1), ?_⟩
    obtain ⟨ordered, perm, sub⟩ := part
    have total := List.Sublist.sum_le_sum (sub.map (fileSize dir)) fun _ _ => Nat.zero_le _
    rw [sizes, (perm.map (fileSize dir)).sum_eq] at total
    exact total.trans fits.2

-- A put either stops before its record is in place, or stores a record its decoder takes and removes every victim.
def KeepsBounds (env : Environment) (world : StoreWorld) (steps : Nat) : StoreCall → Prop
  | .put plan request => ∀ pending, preparePut env world.store plan request = .ok pending → steps ≤ 1 ∨
      (Storable plan ∧ recordSizes world.store.index + pending.record.length < 2 ^ 64 ∧
        pending.evictions.length + 2 ≤ steps ∧ ∀ key ∈ pending.evictions, env.removeFault (recordFileName key) = none)
  | _ => True

-- The runs in which nothing but a removal fails and every process uses the same configuration.
def SameConfigRun (world : StoreWorld) : StoreMove → Prop
  | .finished env _ => env.Steady ∧ env.Lists world.dir
  | .crashed env _ _ config => env.Steady ∧ env.Lists world.dir ∧ config = world.store.config

def BoundedMove (world : StoreWorld) (move : StoreMove) : Prop :=
  SameConfigRun world move ∧
    match move with
    | .finished env call => KeepsBounds env world (call.perform env world).2.length call
    | .crashed env call steps _ => KeepsBounds env world steps call

structure Bounded (world : StoreWorld) : Prop where
  tidy : Tidy world
  readables : Readables world.store.config world.dir
  within : FilesWithin world.store.config world.dir
  mirrors : world.store.isOpen = true → Mirrors sizeShown world.store.config world.dir world.store.index

theorem call_shrinks (env : Environment) (world : StoreWorld) (call : StoreCall) (steps : Nat)
    (other : ∀ plan request, call ≠ .put plan request) :
    Shrinks world.dir (performAll ((call.perform env world).2.take steps) world.dir) := by
  intro name record
  refine (call_record env world call name record world.dir steps).imp id fun gone => ?_
  cases call with
  | put plan request => exact absurd rfl (other plan request)
  | openStore => exact gone
  | close => exact gone
  | erase id => exact gone
  | verifyAll => exact gone
  | enforceBounds => exact gone

-- Cut off behind its last removal, a put leaves the records of a put that ran to its end.
theorem put_removed (env : Environment) (steady : env.Steady) (world : StoreWorld) (plan : Plan) (request : PlanningRequest)
    (pending : PendingPut) (checked : preparePut env world.store plan request = .ok pending) (steps : Nat)
    (past : pending.evictions.length + 2 ≤ steps) (name : FileName) (record : isRecordFile name = true) :
    performAll ((put env world.store plan request).effects.take steps) world.dir name =
      performAll (put env world.store plan request).effects world.dir name := by
  have done := put_steady env steady world.store plan request pending checked
  have effects : (put env world.store plan request).effects = ((writeRecord env world.store plan pending).2 ++
      removalEffects env world.store pending) ++ (persistMeta env (commit env world.store plan pending) 1 3).2 := by
    rw [done, List.append_assoc]
  have short : (removalEffects env world.store pending).length ≤ pending.evictions.length := by
    rw [removalEffects, List.length_map, removals]
    exact (List.length_filter_le _ _).trans (List.length_map _).le
  have untouched := persist_untouched env (commit env world.store plan pending) 1 3 name (record_not_staging name record)
    (record_not_meta name record).symm
  have front : ((writeRecord env world.store plan pending).2 ++ removalEffects env world.store pending).length ≤ steps := by
    rw [List.length_append, writeRecord, write_steady env steady]
    simp only [List.length_cons, List.length_nil]
    omega
  rw [effects, List.take_append, List.take_of_length_le front, perform_tail name _ _ _ (untouched_take name _ _ untouched),
    perform_tail name _ _ _ untouched]

theorem readables_put (env : Environment) (steady : env.Steady) (world : StoreWorld) (bounded : Bounded world) (plan : Plan)
    (request : PlanningRequest) (pending : PendingPut) (checked : preparePut env world.store plan request = .ok pending)
    (storable : Storable plan) : Readables world.store.config (world.after env (.put plan request)).dir := by
  obtain ⟨_, file, _⟩ := steady_put env steady world bounded.tidy.paths plan request pending checked
  intro name present
  have left := call_record env world (.put plan request) name present.1 world.dir
    ((StoreCall.put plan request).perform env world).2.length
  rw [← finished_dir] at left
  rcases left with same | gone | ⟨other, _, named, _⟩
  · rw [record_of_held world.dir _ _ name same]
    exact bounded.readables name ⟨present.1, same ▸ present.2⟩
  · have held := present.2
    rw [gone] at held
    cases held
  · rw [named]
    exact ⟨_, committed_record env world.store plan request pending checked storable _ file⟩

theorem put_opened (env : Environment) (world : StoreWorld) (plan : Plan) (request : PlanningRequest) :
    (world.after env (.put plan request)).store.isOpen = world.store.isOpen := by
  change (put env world.store plan request).store.isOpen = _
  have performed := put_case env world.store plan request
  generalize put env world.store plan request = done at performed ⊢
  cases performed <;> rfl

-- The world that a whole put of a storable plan leaves.
theorem bounded_put (env : Environment) (steady : env.Steady) (world : StoreWorld) (lists : env.Lists world.dir) (bounded : Bounded world)
    (plan : Plan) (request : PlanningRequest) (pending : PendingPut)
    (checked : preparePut env world.store plan request = .ok pending) (storable : Storable plan)
    (representable : recordSizes world.store.index + pending.record.length < 2 ^ 64)
    (removable : ∀ key ∈ pending.evictions, env.removeFault (recordFileName key) = none) :
    Bounded (world.after env (.put plan request)) := by
  have prepared := prepare_put_ok env world.store plan request pending checked
  have tidy := tidy_moved world (.finished env (.put plan request)) bounded.tidy
  have readables := readables_put env steady world bounded plan request pending checked storable
  have config : (world.after env (.put plan request)).store.config = world.store.config := call_config env world (.put plan request)
  have mirrors := call_mirrors sizeShown env steady world lists bounded.tidy (.put plan request) bounded.mirrors
    (fun stored asked other same again key evicted => by
      cases same
      cases checked.symm.trans again
      exact removable key evicted)
    (fun stored asked other same again => by
      cases same
      exact ⟨storable, rfl⟩)
    ((put_opened env world plan request).trans prepared.opened)
  rw [config] at mirrors
  obtain ⟨store, _⟩ := steady_put env steady world bounded.tidy.paths plan request pending checked
  have fits := committed_fits env world.store plan request pending prepared representable
  rw [← store] at fits
  refine ⟨tidy, ?_, ?_, fun _ => ?_⟩ <;> rw [config]
  · exact readables
  · exact (mirrored_within _ _ _ tidy.layout readables mirrors).mpr fits
  · exact mirrors

theorem put_refused (env : Environment) (world : StoreWorld) (plan : Plan) (request : PlanningRequest) (status : Status)
    (checked : preparePut env world.store plan request = .error status) :
    (StoreCall.put plan request).perform env world = (world.store, []) := by rw [StoreCall.perform, put, checked]

theorem bounded_shrunk (world after : StoreWorld) (bounded : Bounded world) (tidy : Tidy after)
    (config : after.store.config = world.store.config) (shrinks : Shrinks world.dir after.dir)
    (mirrors : after.store.isOpen = true → Mirrors sizeShown after.store.config after.dir after.store.index) : Bounded after := by
  refine ⟨tidy, ?_, ?_, mirrors⟩ <;> rw [config]
  · exact shrinks_readables _ _ _ shrinks bounded.readables
  · exact shrinks_within _ _ _ shrinks bounded.within

theorem bounded_finished (env : Environment) (steady : env.Steady) (world : StoreWorld) (lists : env.Lists world.dir)
    (bounded : Bounded world) (call : StoreCall) (keeps : KeepsBounds env world (call.perform env world).2.length call) :
    Bounded (world.after env call) := by
  have tidy := tidy_moved world (.finished env call) bounded.tidy
  have quiet (other : ∀ plan request, call ≠ .put plan request) : Bounded (world.after env call) := by
    refine bounded_shrunk world _ bounded tidy (call_config env world call) ?_ ?_
    · rw [finished_dir]
      exact call_shrinks env world call _ other
    · exact call_mirrors sizeShown env steady world lists bounded.tidy call bounded.mirrors
        (fun plan request _ same => absurd same (other plan request)) fun plan request _ same => absurd same (other plan request)
  cases call with
  | put plan request =>
      cases checked : preparePut env world.store plan request with
      | error status =>
          have same : world.after env (.put plan request) = world := by
            rw [StoreWorld.after, put_refused env world plan request status checked]
            rfl
          rw [same]
          exact bounded
      | ok pending =>
          rcases keeps pending checked with early | ⟨storable, representable, _, removable⟩
          · have done := put_steady env steady world.store plan request pending checked
            rw [StoreCall.perform, done, writeRecord, write_steady env steady] at early
            simp only [List.cons_append, List.length_cons] at early
            omega
          · exact bounded_put env steady world lists bounded plan request pending checked storable representable removable
  | openStore => exact quiet (by simp)
  | close => exact quiet (by simp)
  | erase id => exact quiet (by simp)
  | verifyAll => exact quiet (by simp)
  | enforceBounds => exact quiet (by simp)

-- Where a put is cut off, the directory is one it started from or one it would have ended with.
theorem put_cut_files (env : Environment) (steady : env.Steady) (world : StoreWorld) (lists : env.Lists world.dir)
    (bounded : Bounded world) (plan : Plan) (request : PlanningRequest) (steps : Nat)
    (keeps : KeepsBounds env world steps (.put plan request)) :
    Readables world.store.config (performAll ((put env world.store plan request).effects.take steps) world.dir) ∧
      FilesWithin world.store.config (performAll ((put env world.store plan request).effects.take steps) world.dir) := by
  have settled (before : StoreWorld) (config : before.store.config = world.store.config) (kept : Bounded before)
      (same : ∀ name, isRecordFile name = true →
        performAll ((put env world.store plan request).effects.take steps) world.dir name = before.dir name) :
      Readables world.store.config (performAll ((put env world.store plan request).effects.take steps) world.dir) ∧
        FilesWithin world.store.config (performAll ((put env world.store plan request).effects.take steps) world.dir) := by
    have shrinks : Shrinks before.dir (performAll ((put env world.store plan request).effects.take steps) world.dir) :=
      fun name record => Or.inl (same name record)
    rw [← config]
    exact ⟨shrinks_readables _ _ _ shrinks kept.readables, shrinks_within _ _ _ shrinks kept.within⟩
  cases checked : preparePut env world.store plan request with
  | error status =>
      have refused := congrArg Prod.snd (put_refused env world plan request status checked)
      refine settled world rfl bounded fun name _ => ?_
      change (put env world.store plan request).effects = [] at refused
      rw [refused, List.take_nil]
      rfl
  | ok pending =>
      rcases keeps pending checked with early | ⟨storable, representable, past, removable⟩
      · refine settled world rfl bounded fun name record => perform_spared _ _ _ fun effect member => ?_
        exact put_staged env world.store plan request name (record_not_staging name record) effect
          ((List.take_subset_take_left _ early) member)
      · have whole := bounded_put env steady world lists bounded plan request pending checked storable representable removable
        exact settled _ (call_config env world (.put plan request)) whole
          (put_removed env steady world plan request pending checked steps past)

theorem bounded_moved (world : StoreWorld) (move : StoreMove) (bounded : Bounded world) (allowed : BoundedMove world move) :
    Bounded (world.moved move) := by
  have tidy := tidy_moved world move bounded.tidy
  obtain ⟨same, keeps⟩ := allowed
  cases move with
  | finished env call => exact bounded_finished env same.1 world same.2 bounded call keeps
  | crashed env call steps config =>
      obtain ⟨steady, lists, rfl⟩ := same
      have quiet (other : ∀ plan request, call ≠ .put plan request) :
          Bounded (world.moved (.crashed env call steps world.store.config)) :=
        bounded_shrunk world _ bounded tidy rfl (call_shrinks env world call steps other) fun opened => by cases opened
      cases call with
      | put plan request =>
          obtain ⟨readables, within⟩ := put_cut_files env steady world lists bounded plan request steps keeps
          exact ⟨tidy, readables, within, fun opened => by cases opened⟩
      | openStore => exact quiet (by simp)
      | close => exact quiet (by simp)
      | erase id => exact quiet (by simp)
      | verifyAll => exact quiet (by simp)
      | enforceBounds => exact quiet (by simp)

-- Both counts of an open store: the entries it knows and the record files that are there.
structure HoldsBounds (world : StoreWorld) : Prop where
  index : FitsBounds world.store.config world.store.index
  files : FilesWithin world.store.config world.dir

theorem store_bounds_hold (config : StoreConfig) (dir : Directory) (fresh : ∀ name, isRecordFile name = true → dir name = none)
    (world : StoreWorld) (run : Runs BoundedMove ⟨dir, { config }⟩ world) (opened : world.store.isOpen = true) : HoldsBounds world := by
  have absent (name : FileName) (present : Present dir name) : False := by
    have held := present.2
    rw [fresh name present.1] at held
    cases held
  have closed : ({ config } : PlanStore).isOpen = false := rfl
  have start : Bounded ⟨dir, { config }⟩ := by
    refine ⟨⟨?_, paths_empty, fun opened => absurd (closed.symm.trans opened) (by decide)⟩, ?_, ?_,
      fun opened => absurd (closed.symm.trans opened) (by decide)⟩
    · intro name bytes plan summary record held decoded
      exact absurd (held.symm.trans (fresh name record)) (by simp)
    · exact fun name present => (absent name present).elim
    · intro names distinct present
      cases names with
      | nil => exact ⟨Nat.zero_le _, Nat.zero_le _⟩
      | cons name rest => exact (absent name (present name List.mem_cons_self)).elim
  have bounded := runs_invariant _ Bounded bounded_moved _ world start run
  exact ⟨(mirrored_within _ _ _ bounded.tidy.layout bounded.readables (bounded.mirrors opened)).mp bounded.within, bounded.within⟩

theorem sample_opened (allowed : StoreWorld → StoreMove → Prop) (records : Nat)
    (fits : allowed ⟨fun _ => none, { config := sampleConfig records }⟩ (.finished (quietEnvironment [] 0) .openStore)) :
    Runs allowed ⟨fun _ => none, { config := sampleConfig records }⟩ (sampleWorld records) := .step _ _ .refl fits

theorem sample_empty (records : Nat) : (quietEnvironment [] 0).Lists (sampleWorld records).dir :=
  lists_after (quietEnvironment [] 0) _ _ sample_nothing (open_untouched (quietEnvironment [] 0) _ _)

theorem sample_keeps (records : Nat) (some : 0 < records) : KeepsBounds (quietEnvironment [] 0) (sampleWorld records)
    (samplePut.perform (quietEnvironment [] 0) (sampleWorld records)).2.length samplePut := by
  have steady := (quiet_calm [] 0).toSteady
  have checked := sample_prepared (quietEnvironment [] 0) records some rfl
  intro pending again
  cases checked.symm.trans again
  refine Or.inr ⟨two_leaves_storable, ?_, ?_, fun key evicted => by cases evicted⟩
  · change 0 + sampleRecord.length < 2 ^ 64
    have short := sample_length
    simp only [kMaxPlanRecordBytes] at short
    omega
  · have done := put_steady (quietEnvironment [] 0) steady (sampleWorld records).store _ _ _ checked
    rw [samplePut, StoreCall.perform, done, writeRecord, write_steady _ steady]
    simp only [List.length_append, List.length_cons, List.length_nil]
    omega

theorem stored_bounds : HoldsBounds (storedWorld 1) :=
  store_bounds_hold (sampleConfig 1) (fun _ => none) (fun _ _ => rfl) (storedWorld 1)
    (.step _ (.finished (quietEnvironment [] 0) samplePut)
      (sample_opened BoundedMove 1 ⟨⟨(quiet_calm [] 0).toSteady, sample_nothing⟩, trivial⟩)
      ⟨⟨(quiet_calm [] 0).toSteady, sample_empty 1⟩, sample_keeps 1 (by decide)⟩)
    (stored_opened 1 (by decide))

-- A second plan, as the forged one but with its paths counted.
def twinPlan : Plan := { forgedPlan with stats := { forgedPlan.stats with pathCount := 2 } }

def twinPut : StoreCall := .put twinPlan barred.request

def twinName : FileName := recordFileName twinPlan.id.value

theorem recounted_digest (plan : Plan) (stats : PlanStats) : { plan with stats }.inputDigest = plan.inputDigest := rfl

theorem twin_digest : twinPlan.inputDigest = barred.request.canonicalDigest := (recounted_digest forgedPlan _).trans forged_digest

theorem twin_accepted : validatePlan twinPlan barred.request = .ok () := by
  simp only [twinPlan, forgedPlan, BuiltRequest.drafted]
  decide +kernel

theorem requests_apart : twoLeaves.request.canonicalDigest ≠ barred.request.canonicalDigest := by
  simp only [BuiltRequest.drafted]
  decide +kernel

theorem twin_apart : twinName ≠ sampleName := by
  intro same
  have ids := record_file_name_injective same
  have first : twoLeavesPlan.id.value = twoLeavesPlan.inputDigest := (validate_plan_ok.mp two_leaves_valid).identity.id
  have second : twinPlan.id.value = twinPlan.inputDigest := (validate_plan_ok.mp twin_accepted).identity.id
  exact requests_apart (two_leaves_digest.symm.trans (first.symm.trans (ids.symm.trans (second.trans twin_digest))))

theorem stats_length (stats : PlanStats) : (Plan.encodeStats stats).length = 48 := rfl

theorem recounted_length (plan : Plan) (stats : PlanStats) : recordLength { plan with stats } = recordLength plan := by
  simp only [recordLength, Plan.encode, List.length_append, stats_length]

theorem twin_length : recordLength twinPlan = 516 := (recounted_length forgedPlan _).trans forged_record_length

def crowdedNames : List FileName := [twinName, sampleName]

def crowdedEnvironment : Environment := quietEnvironment crowdedNames 0

theorem crowded_calm : crowdedEnvironment.Calm := quiet_calm crowdedNames 0

-- The second put finds the store full and would evict the first record.
def crowdedWorld : StoreWorld := (storedWorld 1).moved (.crashed crowdedEnvironment twinPut 2 (sampleConfig 1))

theorem stored_put : (storedWorld 1).store = commit (quietEnvironment [] 0) (sampleWorld 1).store twoLeavesPlan
      { record := sampleRecord, sequence := 1, evictions := [] } ∧ (storedWorld 1).dir sampleName = some sampleRecord ∧
      (storedWorld 1).dir metaFileName = some (encodeMeta ⟨1⟩ ⟨1⟩ 1) := by
  have stored := steady_put (quietEnvironment [] 0) (quiet_calm [] 0).toSteady (sampleWorld 1) paths_empty _ _ _
    (sample_prepared (quietEnvironment [] 0) 1 (by decide) rfl)
  rw [storedWorld, samplePut]
  exact stored

theorem twin_prepared : ∃ pending, preparePut crowdedEnvironment (storedWorld 1).store twinPlan barred.request = .ok pending := by
  have bytes := sample_bytes
  have sizes : recordSizes (storedWorld 1).store.index ≤ 2 * kMaxPlanRecordBytes := by
    rw [stored_put.1]
    exact (single_sizes twoLeavesPlan.id.value _).le.trans bytes
  simp only [kMaxPlanRecordBytes] at sizes
  apply prepare_alone
  · refine ⟨stored_opened 1 (by decide), twin_digest, twin_accepted, ?_⟩
    rw [twin_length, stored_put.1]
    decide
  · rw [twin_length]
    omega
  · rw [stored_put.1]
    exact le_refl 1
  · rw [twin_length, stored_put.1]
    decide

theorem crowded_dir : ∃ record, crowdedWorld.dir =
    performAll [.stage (stagingFileName 0 0) record, .rename (stagingFileName 0 0) twinName] (storedWorld 1).dir := by
  obtain ⟨pending, checked⟩ := twin_prepared
  exact ⟨pending.record, crashed_renames crowdedEnvironment crowded_calm.toSteady (storedWorld 1) _ _ (sampleConfig 1) pending checked⟩

theorem crowded_meta : crowdedWorld.dir metaFileName = some (encodeMeta ⟨1⟩ ⟨1⟩ 1) := by
  obtain ⟨record, dir⟩ := crowded_dir
  have kept := renamed_files crowdedEnvironment (storedWorld 1).dir twinPlan record metaFileName meta_not_staging
    (record_not_meta _ (record_file_name_record _))
  rw [dir]
  exact Eq.trans kept stored_put.2.2

theorem crowded_present : ∀ name ∈ crowdedNames, Present crowdedWorld.dir name := by
  obtain ⟨record, dir⟩ := crowded_dir
  have twin : crowdedWorld.dir twinName = some record := by
    rw [dir]
    exact replaced_file (storedWorld 1).dir (stagingFileName 0 0) twinName record
  have first : crowdedWorld.dir sampleName = some sampleRecord := by
    have kept := renamed_files crowdedEnvironment (storedWorld 1).dir twinPlan record sampleName
      (record_not_staging _ (record_file_name_record _)) twin_apart
    rw [dir]
    exact Eq.trans kept stored_put.2.1
  intro name member
  simp only [crowdedNames, List.mem_cons, List.not_mem_nil, or_false] at member
  rcases member with rfl | rfl
  · exact ⟨record_file_name_record _, by rw [twin]; rfl⟩
  · exact ⟨record_file_name_record _, by rw [first]; rfl⟩

theorem crowded_listed : crowdedEnvironment.Lists crowdedWorld.dir ∧
    crowdedEnvironment.Lists (storedWorld 1).dir := by
  have stored (name : FileName) (record : isRecordFile name = true) (present : ((storedWorld 1).dir name).isSome = true) :
      name = sampleName := by
    rw [storedWorld, finished_dir] at present
    exact sample_only 1 _ _ name record present
  constructor <;> intro enumeration name record present
  · rcases call_record crowdedEnvironment (storedWorld 1) twinPut name record (storedWorld 1).dir 2 with same | gone | ⟨_, _, named, _⟩
    · rw [crowdedWorld, crashed_dir, same] at present
      rw [stored name record present]
      exact List.mem_cons_of_mem _ List.mem_cons_self
    · rw [crowdedWorld, crashed_dir, gone] at present
      cases present
    · rw [named]
      exact List.mem_cons_self
  · rw [stored name record present]
    exact List.mem_cons_of_mem _ List.mem_cons_self

theorem stored_config : (storedWorld 1).store.config = sampleConfig 1 := by
  rw [stored_put.1]
  rfl

theorem crowded_reached : Runs SameConfigRun ⟨fun _ => none, { config := sampleConfig 1 }⟩
    (crowdedWorld.after crowdedEnvironment .openStore) := by
  have steady := (quiet_calm [] 0).toSteady
  have stored : Runs SameConfigRun ⟨fun _ => none, { config := sampleConfig 1 }⟩ (storedWorld 1) :=
    .step _ (.finished (quietEnvironment [] 0) samplePut) (sample_opened SameConfigRun 1 ⟨steady, sample_nothing⟩) ⟨steady, sample_empty 1⟩
  have crowded : Runs SameConfigRun ⟨fun _ => none, { config := sampleConfig 1 }⟩ crowdedWorld :=
    .step _ (.crashed crowdedEnvironment twinPut 2 (sampleConfig 1)) stored ⟨crowded_calm.toSteady, crowded_listed.2, stored_config.symm⟩
  exact .step _ (.finished crowdedEnvironment .openStore) crowded ⟨crowded_calm.toSteady, crowded_listed.1⟩

-- Opening takes in every record it finds and removes none, so what the cut-off put left too many of stays.
theorem bounds_outgrown : ¬ ∀ (config : StoreConfig) (dir : Directory), (∀ name, isRecordFile name = true → dir name = none) →
    ∀ world : StoreWorld, Runs SameConfigRun ⟨dir, { config }⟩ world → world.store.isOpen = true → HoldsBounds world := by
  intro claimed
  have opened := steady_opened crowdedEnvironment crowded_calm.toSteady crowdedWorld rfl rfl ⟨1⟩ ⟨1⟩ 1 crowded_meta
  have bounds := claimed (sampleConfig 1) (fun _ => none) (fun _ _ => rfl) _ crowded_reached (by rw [opened.store])
  have config : (crowdedWorld.after crowdedEnvironment .openStore).store.config = sampleConfig 1 := by rw [opened.store]; rfl
  have distinct : crowdedNames.Nodup := List.nodup_cons.mpr ⟨by simpa using twin_apart, List.nodup_singleton _⟩
  have count := (bounds.files crowdedNames distinct fun name member => ?_).1
  · rw [config] at count
    exact absurd count (by decide)
  · have present := crowded_present name member
    refine ⟨present.1, ?_⟩
    rw [opened.records name present.1]
    exact present.2

end PathPlanner.PlanStore

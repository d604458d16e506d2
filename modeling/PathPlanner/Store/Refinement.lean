import PathPlanner.Store.Lockstep
import PathPlanner.Store.Sequences

set_option autoImplicit false

namespace PathPlanner.PlanStore

open Checks Codec PlanCollective StoreFiles StoreRecord ValidatePlan

-- What list returns is what is found in the directory, now or by a store that opens it later.
structure ListsDirectory (world : StoreWorld) : Prop where
  verified : ∀ env : Environment, env.Calm → env.Lists world.dir →
    (verifyAll env world.dir world.store).result = list world.store ∧ list (verifyAll env world.dir world.store).store = list world.store
  reopened : ∀ (env later : Environment) (store : PlanStore), env.Calm → later.Calm → store.config = world.store.config →
    store.isOpen = false → later.Lists (world.after env .close).dir →
    (openStore later (world.after env .close).dir store).result = .ok () ∧
      list (openStore later (world.after env .close).dir store).store = list world.store

-- A fault-free call whose put, if any, stores a plan its decoder takes back and reads the same time twice.
def FaithfulMove (world : StoreWorld) : StoreMove → Prop
  | .finished env call => env.Calm ∧ env.Lists world.dir ∧ ∀ plan request, call = .put plan request →
      (preparePut env world.store plan request).isOk = true → Storable plan ∧ env.micros 0 = env.micros 2
  | .crashed .. => False

structure Refined (world : StoreWorld) : Prop where
  tidy : Tidy world
  mirrors : world.store.isOpen = true → Mirrors id world.store.config world.dir world.store.index

theorem mirrors_index (config : StoreConfig) (dir : Directory) (left right : SortedMap Digest StoreEntry)
    (here : Mirrors id config dir left) (there : Mirrors id config dir right) : left = right := by
  apply SortedMap.ext_find
  intro key
  have same := (here key).trans (there key).symm
  rwa [Option.map_id, id_eq, id_eq] at same

theorem refined_moved (world : StoreWorld) (move : StoreMove) (refined : Refined world) (faithful : FaithfulMove world move) :
    Refined (world.moved move) := by
  have tidy := tidy_moved world move refined.tidy
  cases move with
  | crashed env call steps config => exact faithful.elim
  | finished env call =>
      obtain ⟨calm, lists, stores⟩ := faithful
      refine ⟨tidy, call_mirrors id env calm.toSteady world lists refined.tidy call refined.mirrors
        (fun _ _ _ _ _ key _ => calm.remove (recordFileName key)) ?_⟩
      intro plan request pending same checked
      obtain ⟨storable, clock⟩ := stores plan request same (by rw [checked]; rfl)
      exact ⟨storable, by rw [clock]⟩

theorem list_index (left right : PlanStore) (opened : left.isOpen = right.isOpen) (index : left.index = right.index) :
    list left = list right := by rw [list, list, opened, summaries, summaries, index]

theorem refined_verified (world : StoreWorld) (refined : Refined world) (opened : world.store.isOpen = true) (env : Environment)
    (calm : env.Calm) (lists : env.Lists world.dir) :
    (verifyAll env world.dir world.store).result = list world.store ∧ list (verifyAll env world.dir world.store).store = list world.store := by
  have same := mirrors_index _ _ _ _ (refined.mirrors opened)
    (rebuilt_mirrors id env calm.toSteady world.dir world.store.config refined.tidy.layout lists 0)
  have listed : list world.store = .ok (summaries world.store) := by
    rw [list, then_ok, deny_ok]
    exact ⟨by simp [opened], rfl⟩
  rw [verify_steady env calm.toSteady world.dir world.store opened, ← same]
  exact ⟨listed.symm, rfl⟩

theorem refined_reopened (world : StoreWorld) (refined : Refined world) (opened : world.store.isOpen = true) (env later : Environment)
    (store : PlanStore) (calm : env.Calm) (still : later.Calm) (config : store.config = world.store.config)
    (closed : store.isOpen = false) (lists : later.Lists (world.after env .close).dir) :
    (openStore later (world.after env .close).dir store).result = .ok () ∧
      list (openStore later (world.after env .close).dir store).store = list world.store := by
  have persisted : (world.after env .close).dir metaFileName =
      some (encodeMeta world.store.epoch world.store.incarnation world.store.sequence) := by
    have done : (close env world.store).effects = (persistMeta env world.store 0 0).2 := by rw [close, if_neg (by simp [opened])]
    rw [StoreWorld.after, StoreCall.perform, done]
    exact persisted_steady env calm.toSteady world.store 0 0 [] world.dir
  have rooted : store.config.root.isEmpty = false := config ▸ refined.tidy.rooted opened
  have reopened := steady_opened later still.toSteady ⟨(world.after env .close).dir, store⟩ closed rooted _ _ _ persisted
  have tidy := call_layout later ⟨(world.after env .close).dir, store⟩ .openStore (call_layout env world .close refined.tidy.layout)
  have listed := lists_after later _ _ lists (open_untouched later (world.after env .close).dir store)
  have found := rebuilt_mirrors id later still.toSteady _ world.store.config tidy listed 1
  have kept : Mirrors id world.store.config (StoreWorld.after ⟨(world.after env .close).dir, store⟩ later .openStore).dir world.store.index := by
    intro key
    rw [refined.mirrors opened key]
    refine congrArg _ (record_of_held _ _ _ _ ?_).symm
    exact (reopened.records _ (record_file_name_record key)).trans
      (perform_spared _ _ _ (close_untouched env world.store _ (record_file_name_record key)))
  have same := mirrors_index _ _ _ _ found kept
  refine ⟨reopened.result, list_index _ _ ?_ ?_⟩
  · rw [opened]
    exact congrArg PlanStore.isOpen reopened.store
  · rw [← config] at same
    exact (congrArg PlanStore.index reopened.store).trans same

-- In every open state of a faithful run the index is what the directory holds.
theorem index_refines_directory (config : StoreConfig) (dir : Directory) (layout : Layout dir) (world : StoreWorld)
    (run : Runs FaithfulMove ⟨dir, { config }⟩ world) (opened : world.store.isOpen = true) : ListsDirectory world := by
  have closed (config : StoreConfig) : ({ config } : PlanStore).isOpen = false := rfl
  have start : Refined ⟨dir, { config }⟩ :=
    ⟨⟨layout, paths_empty, fun opened => absurd ((closed config).symm.trans opened) (by decide)⟩,
      fun opened => absurd ((closed config).symm.trans opened) (by decide)⟩
  have refined := runs_invariant _ Refined refined_moved _ world start run
  exact ⟨refined_verified world refined opened, refined_reopened world refined opened⟩

theorem stored_opened (records : Nat) (some : 0 < records) : (storedWorld records).store.isOpen = true := by
  have stored := steady_put (quietEnvironment [] 0) (quiet_calm [] 0).toSteady (sampleWorld records) paths_empty _ _ _
    (sample_prepared _ records some rfl)
  rw [storedWorld, samplePut, stored.1]
  rfl

theorem sample_nothing : (quietEnvironment [] 0).Lists fun _ => none := by
  intro enumeration name record present
  cases present

theorem stored_lists : ListsDirectory (storedWorld 2) := by
  have opened : Runs FaithfulMove ⟨fun _ => none, { config := sampleConfig 2 }⟩ (sampleWorld 2) :=
    .step _ (.finished (quietEnvironment [] 0) .openStore) .refl ⟨quiet_calm [] 0, sample_nothing, by simp⟩
  have nothing : (quietEnvironment [] 0).Lists (sampleWorld 2).dir :=
    lists_after (quietEnvironment [] 0) _ _ sample_nothing (open_untouched (quietEnvironment [] 0) _ _)
  have stored : FaithfulMove (sampleWorld 2) (.finished (quietEnvironment [] 0) samplePut) := by
    refine ⟨quiet_calm [] 0, nothing, fun plan request same _ => ?_⟩
    rw [samplePut, StoreCall.put.injEq] at same
    obtain ⟨rfl, rfl⟩ := same
    exact ⟨two_leaves_storable, rfl⟩
  exact index_refines_directory (sampleConfig 2) (fun _ => none) empty_layout (storedWorld 2)
    (.step _ (.finished (quietEnvironment [] 0) samplePut) opened stored) (stored_opened 2 (by decide))

-- The runs the promise is about: fault-free calls on a clock that does not run backwards.
def FaultFree (world : StoreWorld) : StoreMove → Prop
  | .finished env _ => env.Calm ∧ env.Lists world.dir ∧ ∀ earlier later, earlier ≤ later → env.micros earlier ≤ env.micros later
  | .crashed .. => False

-- A clock that moves on with every reading of one call.
def tickingEnvironment : Environment :=
  { quietEnvironment [] 0 with micros := fun reading => if reading ≤ 1 then 0 else 2 }

theorem ticking_calm : tickingEnvironment.Calm :=
  ⟨⟨rfl, fun _ => rfl, rfl, fun _ => rfl, fun _ => rfl, fun _ => rfl, fun _ => rfl⟩, fun _ => rfl⟩

def tickedWorld : StoreWorld := (sampleWorld 2).after tickingEnvironment samplePut

theorem ticked_put : tickedWorld.store = commit tickingEnvironment (sampleWorld 2).store twoLeavesPlan
      { record := sampleRecord, sequence := 1, evictions := [] } ∧ tickedWorld.dir sampleName = some sampleRecord := by
  have stored := steady_put tickingEnvironment ticking_calm.toSteady (sampleWorld 2) paths_empty _ _ _
    (sample_prepared tickingEnvironment 2 (by decide) rfl)
  rw [tickedWorld, samplePut]
  exact ⟨stored.1, stored.2.1⟩

theorem ticked_lists (names : List FileName) (listed : sampleName ∈ names) : (quietEnvironment names 0).Lists tickedWorld.dir := by
  intro enumeration name record present
  rw [tickedWorld, finished_dir] at present
  rw [sample_only 2 tickingEnvironment _ name record present]
  exact listed

theorem single_listed (store : PlanStore) (opened : store.isOpen = true) (digest : Digest) (summary : StoredPlanSummary)
    (single : store.index = SortedMap.empty.insert digest (entryOf digest summary)) : list store = .ok [summary] := by
  rw [list, then_ok, deny_ok, summaries, single]
  exact ⟨by simp [opened], rfl⟩

theorem ticked_reached : Runs FaultFree ⟨fun _ => none, { config := sampleConfig 2 }⟩ tickedWorld := by
  have nothing : tickingEnvironment.Lists (sampleWorld 2).dir :=
    lists_after tickingEnvironment _ _ sample_nothing (open_untouched (quietEnvironment [] 0) _ _)
  have opened : Runs FaultFree ⟨fun _ => none, { config := sampleConfig 2 }⟩ (sampleWorld 2) :=
    .step _ (.finished (quietEnvironment [] 0) .openStore) .refl ⟨quiet_calm [] 0, sample_nothing, fun _ _ _ => UInt64.le_refl _⟩
  refine .step _ (.finished tickingEnvironment samplePut) opened ⟨ticking_calm, nothing, fun earlier later order => ?_⟩
  change (if earlier ≤ 1 then 0 else 2 : UInt64) ≤ if later ≤ 1 then 0 else 2
  split_ifs <;> first | decide | omega

-- The put reads the clock once for the record and once for the index.
theorem index_runs_ahead : ¬ ∀ (config : StoreConfig) (dir : Directory), Layout dir → ∀ world : StoreWorld,
    Runs FaultFree ⟨dir, { config }⟩ world → world.store.isOpen = true → ListsDirectory world := by
  intro claimed
  have opened : tickedWorld.store.isOpen = true := by rw [ticked_put.1]; rfl
  have lists := ticked_lists [sampleName] List.mem_cons_self
  have verified := ((claimed (sampleConfig 2) (fun _ => none) empty_layout tickedWorld ticked_reached opened).verified
    (quietEnvironment [sampleName] 0) (quiet_calm [sampleName] 0) lists).1
  have small : sampleRecord.length ≤ (sampleConfig 2).maxRecordBytes := sample_length
  have found : recordOf tickedWorld.dir (sampleConfig 2) sampleName = some sampleSummary :=
    (record_of_some _ _ _ _).mpr ⟨sampleRecord, twoLeavesPlan, ticked_put.2, small, sample_decodes⟩
  have index := rebuilt_single (quietEnvironment [sampleName] 0) (quiet_calm [sampleName] 0).toSteady tickedWorld.dir
    (sampleConfig 2) 0 twoLeavesPlan.id.value sampleSummary rfl found sample_named
  have config : tickedWorld.store.config = sampleConfig 2 := by rw [ticked_put.1]; rfl
  rw [verify_steady _ (quiet_calm [sampleName] 0).toSteady _ _ opened, config, index, ticked_put.1] at verified
  have mine : list (commit tickingEnvironment (sampleWorld 2).store twoLeavesPlan
      { record := sampleRecord, sequence := 1, evictions := [] }) = .ok [summaryOf twoLeavesPlan ⟨1⟩ 1 2 sampleRecord.length] :=
    single_listed _ rfl twoLeavesPlan.id.value _ rfl
  rw [mine] at verified
  have clocks := congrArg (fun result : Result (List StoredPlanSummary) => result.toOption.map fun listed =>
    listed.map StoredPlanSummary.writtenUnixMicros) verified
  exact absurd clocks (by simp [summaries, SortedMap.empty, SortedMap.insert, entryOf, sampleSummary, summaryOf, Except.toOption])

end PathPlanner.PlanStore

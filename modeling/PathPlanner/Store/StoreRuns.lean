import PathPlanner.Store.StoreCases

set_option autoImplicit false

namespace PathPlanner.PlanStore

open Checks Codec Sequence StoreFiles StoreRecord

structure StoreWorld where
  dir : Directory
  store : PlanStore

inductive StoreCall where
  | openStore
  | close
  | put (plan : Plan) (request : PlanningRequest)
  | erase (id : CollectivePlanId)
  | verifyAll
  | enforceBounds

def StoreCall.perform (env : Environment) (world : StoreWorld) : StoreCall → PlanStore × List Effect
  | .openStore => let done := PlanStore.openStore env world.dir world.store; (done.store, done.effects)
  | .close => let done := PlanStore.close env world.store; (done.store, done.effects)
  | .put plan request => let done := PlanStore.put env world.store plan request; (done.store, done.effects)
  | .erase id => let done := PlanStore.erase env world.store id; (done.store, done.effects)
  | .verifyAll => let done := PlanStore.verifyAll env world.dir world.store; (done.store, done.effects)
  | .enforceBounds => let done := PlanStore.enforceBounds env world.store; (done.store, done.effects)

def StoreWorld.after (world : StoreWorld) (env : Environment) (call : StoreCall) : StoreWorld where
  dir := performAll (call.perform env world).2 world.dir
  store := (call.perform env world).1

-- A call runs to its end, or the process stops between two of its file system steps and a new store takes over.
inductive StoreMove where
  | finished (env : Environment) (call : StoreCall)
  | crashed (env : Environment) (call : StoreCall) (steps : Nat) (config : StoreConfig)

def StoreWorld.moved (world : StoreWorld) : StoreMove → StoreWorld
  | .finished env call => world.after env call
  | .crashed env call steps config => ⟨performAll ((call.perform env world).2.take steps) world.dir, { config }⟩

theorem crashed_dir (world : StoreWorld) (env : Environment) (call : StoreCall) (steps : Nat) (config : StoreConfig) :
    (world.moved (.crashed env call steps config)).dir = performAll ((call.perform env world).2.take steps) world.dir := rfl

theorem finished_dir (world : StoreWorld) (env : Environment) (call : StoreCall) :
    (world.after env call).dir = performAll ((call.perform env world).2.take (call.perform env world).2.length) world.dir := by
  rw [List.take_length]
  rfl

-- The worlds that moves of an allowed kind lead to.
inductive Runs (allowed : StoreWorld → StoreMove → Prop) (start : StoreWorld) : StoreWorld → Prop where
  | refl : Runs allowed start start
  | step (world : StoreWorld) (move : StoreMove) (reached : Runs allowed start world) (fits : allowed world move) :
      Runs allowed start (world.moved move)

theorem runs_invariant (allowed : StoreWorld → StoreMove → Prop) (invariant : StoreWorld → Prop)
    (kept : ∀ world move, invariant world → allowed world move → invariant (world.moved move))
    (start world : StoreWorld) (holds : invariant start) (run : Runs allowed start world) : invariant world := by
  induction run with
  | refl => exact holds
  | step world move reached fits ih => exact kept world move ih fits

-- The layout the store documents: a record file is named after the plan it holds.
def Layout (dir : Directory) : Prop :=
  ∀ name bytes plan summary, isRecordFile name = true → dir name = some bytes →
    decodePlanRecord bytes = .ok (plan, summary) → name = recordFileName summary.id.value

-- A closed store on a directory of that layout, and whatever the store then does with it.
def Reachable (world : StoreWorld) : Prop :=
  ∃ dir config, Layout dir ∧ Runs (fun _ _ => True) ⟨dir, { config }⟩ world

def PathsMatch (index : SortedMap Digest StoreEntry) : Prop :=
  ∀ key entry, (key, entry) ∈ index.entries → entry.path = recordFileName key

structure Tidy (world : StoreWorld) : Prop where
  layout : Layout world.dir
  paths : PathsMatch world.store.index
  rooted : world.store.isOpen = true → world.store.config.root.isEmpty = false

-- The layout survives the effects, wherever they are cut off.
def KeepsLayout (effects : List Effect) : Prop := ∀ dir, Layout dir → ∀ steps, Layout (performAll (effects.take steps) dir)

theorem keeps_nil : KeepsLayout [] := by
  intro dir layout steps
  rwa [List.take_nil]

theorem keeps_append (first second : List Effect) (here : KeepsLayout first) (there : KeepsLayout second) :
    KeepsLayout (first ++ second) := by
  intro dir layout steps
  rw [List.take_append, perform_append]
  exact there _ (here dir layout steps) _

theorem layout_update_other (dir : Directory) (name : FileName) (content : Option Bytes) (layout : Layout dir)
    (other : isRecordFile name = false) : Layout (Function.update dir name content) := by
  intro found bytes plan summary record held decoded
  have apart : found ≠ name := by
    intro same
    rw [same, other] at record
    cases record
  rw [Function.update_of_ne apart] at held
  exact layout found bytes plan summary record held decoded

theorem layout_removed (dir : Directory) (name : FileName) (layout : Layout dir) : Layout (Function.update dir name none) := by
  intro found bytes plan summary record held decoded
  by_cases same : found = name
  · subst same
    rw [Function.update_self] at held
    cases held
  · rw [Function.update_of_ne same] at held
    exact layout found bytes plan summary record held decoded

theorem keeps_remove (name : FileName) : KeepsLayout [.remove name] := by
  intro dir layout steps
  cases steps with
  | zero => exact layout
  | succ more =>
      rw [List.take_of_length_le (by simp)]
      exact layout_removed dir name layout

theorem keeps_removes (names : List FileName) : KeepsLayout (names.map Effect.remove) := by
  induction names with
  | nil => exact keeps_nil
  | cons name rest ih => exact keeps_append [.remove name] _ (keeps_remove name) ih

-- A file that is written under a record's name holds a record of that name.
def Matching (target : FileName) (bytes : Bytes) : Prop :=
  isRecordFile target = true → ∀ plan summary, decodePlanRecord bytes = .ok (plan, summary) →
    target = recordFileName summary.id.value

theorem keeps_staged (token micros : UInt64) (bytes : Bytes) : KeepsLayout [.stage (stagingFileName token micros) bytes] := by
  intro dir layout steps
  cases steps with
  | zero => exact layout
  | succ more =>
      rw [List.take_of_length_le (by simp)]
      exact layout_update_other dir _ _ layout (staging_not_record token micros)

theorem keeps_replace (token micros : UInt64) (target : FileName) (bytes : Bytes) (fits : Matching target bytes) :
    KeepsLayout [.stage (stagingFileName token micros) bytes, .rename (stagingFileName token micros) target] := by
  intro dir layout steps
  match steps with
  | 0 => exact layout
  | 1 => exact keeps_staged token micros bytes dir layout 1
  | more + 2 =>
      have kept := layout_removed _ (stagingFileName token micros) (keeps_staged token micros bytes dir layout 1)
      intro found content plan summary record held decoded
      by_cases same : found = target
      · subst same
        have written : content = bytes := by
          have file := replaced_file dir (stagingFileName token micros) found bytes
          rw [List.take_of_length_le (by simp)] at held
          rw [held, Option.some.injEq] at file
          exact file
        subst written
        exact fits record plan summary decoded
      · have other : Function.update (Function.update dir (stagingFileName token micros) (some bytes))
            (stagingFileName token micros) none found = some content := by
          have moved : found ≠ target := same
          simpa [performAll, Effect.apply, Function.update_of_ne moved] using held
        exact kept found content plan summary record other decoded

theorem keeps_write (env : Environment) (root : Bytes) (token micros : UInt64) (target : FileName) (bytes : Bytes)
    (fits : Matching target bytes) :
    KeepsLayout (writeFileAtomic env root (stagingFileName token micros) target bytes).2 := by
  unfold writeFileAtomic
  split
  · exact keeps_nil
  · exact keeps_nil
  · split
    · exact keeps_append [_] [_] (keeps_staged token micros bytes) (keeps_remove _)
    · exact keeps_replace token micros target bytes fits

theorem keeps_persist (env : Environment) (store : PlanStore) (token reading : Nat) :
    KeepsLayout (persistMeta env store token reading).2 := by
  refine keeps_write env _ _ _ metaFileName _ fun record => ?_
  rw [meta_not_record] at record
  cases record

theorem valid_identity (plan : Plan) (request : PlanningRequest) (valid : validatePlan plan request = .ok ()) :
    plan.id.value = plan.inputDigest := by
  unfold validatePlan at valid
  rw [then_ok] at valid
  have identity := valid.1
  unfold ValidatePlan.checkIdentity at identity
  simp only [then_ok, deny_ok] at identity
  exact not_not.mp identity.2.1

theorem record_matching (env : Environment) (store : PlanStore) (plan : Plan) (request : PlanningRequest) (pending : PendingPut)
    (prepared : Prepared env store plan request pending) : Matching (recordFileName plan.id.value) pending.record := by
  intro _ found summary decoded
  rw [prepared.record] at decoded
  obtain ⟨storable, same, id⟩ := encoded_record_decodes _ _ _ _ _ _ _ decoded
  rw [id, storable.decodable.fits.identity, valid_identity plan request prepared.valid, encode_digest _ _ same]

theorem keeps_put (env : Environment) (store : PlanStore) (plan : Plan) (request : PlanningRequest) :
    KeepsLayout (put env store plan request).effects := by
  have writes (pending : PendingPut) (checked : preparePut env store plan request = .ok pending) :
      KeepsLayout (writeRecord env store plan pending).2 :=
    keeps_write env _ _ _ _ _ (record_matching env store plan request pending (prepare_put_ok env store plan request pending checked))
  have commits (pending : PendingPut) (checked : preparePut env store plan request = .ok pending) :
      KeepsLayout ((writeRecord env store plan pending).2 ++
        (removalEffects env store pending ++ (persistMeta env (commit env store plan pending) 1 3).2)) :=
    keeps_append _ _ (writes pending checked) (keeps_append _ _ (keeps_removes _) (keeps_persist env _ 1 3))
  have performed := put_case env store plan request
  generalize put env store plan request = done at performed ⊢
  cases performed with
  | refused status checked => exact keeps_nil
  | unwritten status pending written checked write =>
      have kept := writes pending checked
      rwa [write] at kept
  | unpersisted status pending written persisted checked write persist =>
      have kept := commits pending checked
      rwa [write, persist] at kept
  | committed pending written persisted checked write persist =>
      have kept := commits pending checked
      rwa [write, persist] at kept

theorem keeps_close (env : Environment) (store : PlanStore) : KeepsLayout (close env store).effects := by
  unfold close
  split
  · exact keeps_nil
  · exact keeps_persist env store 0 0

theorem keeps_erase (env : Environment) (store : PlanStore) (id : CollectivePlanId) : KeepsLayout (erase env store id).effects := by
  unfold erase
  split
  · exact keeps_nil
  · split
    · exact keeps_nil
    · exact keeps_append [_] _ (keeps_remove _) (keeps_persist env _ 0 0)

theorem keeps_drop (env : Environment) (keys : List Digest) (count : Nat) (bytes : UInt64) (store : PlanStore) :
    KeepsLayout (dropOldest env keys count bytes store).effects := by
  fun_induction dropOldest env keys count bytes store with
  | case1 => exact keeps_nil
  | case2 => exact keeps_nil
  | case3 _ _ _ _ _ _ _ ih => exact ih
  | case4 => exact keeps_nil
  | case5 _ _ _ _ _ _ entry _ _ later ih => exact keeps_append [_] _ (keeps_remove entry.path) ih

theorem keeps_enforce (env : Environment) (store : PlanStore) : KeepsLayout (enforceBounds env store).effects := by
  have dropped := keeps_drop env (oldestFirst store.index.entries) store.index.entries.length (totalBytes store) store
  unfold enforceBounds
  split
  · exact keeps_nil
  · simp only
    split
    · exact dropped
    · exact keeps_append _ _ dropped (keeps_persist env _ 0 0)

theorem keeps_open (env : Environment) (dir : Directory) (store : PlanStore) : KeepsLayout (openStore env dir store).effects := by
  have cleared : KeepsLayout (staleEffects env) := keeps_removes _
  have persists (fenced : PlanStore) : KeepsLayout (staleEffects env ++ (persistMeta env fenced 0 0).2) :=
    keeps_append _ _ cleared (keeps_persist env fenced 0 0)
  have performed := open_case env dir store
  generalize openStore env dir store = done at performed ⊢
  cases performed with
  | refused status => exact keeps_nil
  | unfenced status closed => exact cleared
  | unpersisted status fenced written closed fences persist =>
      have kept := persists fenced
      rwa [persist] at kept
  | unlisted status fenced written closed fences persist =>
      have kept := persists fenced
      rwa [persist] at kept
  | opened fenced written closed rooted fences persist =>
      have kept := persists fenced
      rwa [persist] at kept

theorem keeps_call (env : Environment) (world : StoreWorld) (call : StoreCall) : KeepsLayout (call.perform env world).2 := by
  cases call with
  | openStore => exact keeps_open env world.dir world.store
  | close => exact keeps_close env world.store
  | put plan request => exact keeps_put env world.store plan request
  | erase id => exact keeps_erase env world.store id
  | verifyAll =>
      have none : (verifyAll env world.dir world.store).effects = [] := by
        unfold verifyAll
        split
        · rfl
        · split <;> rfl
      rw [StoreCall.perform, none]
      exact keeps_nil
  | enforceBounds => exact keeps_enforce env world.store

-- A property of entries that holds throughout an index.
def EachEntry (fits : Digest → StoreEntry → Prop) (index : SortedMap Digest StoreEntry) : Prop :=
  ∀ key entry, (key, entry) ∈ index.entries → fits key entry

theorem each_empty (fits : Digest → StoreEntry → Prop) : EachEntry fits SortedMap.empty := by
  intro key entry member
  cases member

theorem paths_empty : PathsMatch SortedMap.empty := each_empty _

theorem each_insert (fits : Digest → StoreEntry → Prop) (index : SortedMap Digest StoreEntry) (key : Digest) (entry : StoreEntry)
    (each : EachEntry fits index) (here : fits key entry) : EachEntry fits (index.insert key entry) := by
  intro other held member
  rcases (index.mem_insert key other entry held).mp member with ⟨rfl, rfl⟩ | ⟨_, kept⟩
  · exact here
  · exact each other held kept

theorem each_erase_all (fits : Digest → StoreEntry → Prop) (index : SortedMap Digest StoreEntry) (keys : List Digest)
    (each : EachEntry fits index) : EachEntry fits (index.eraseAll keys) :=
  fun other held member => each other held ((index.mem_erase_all keys other held).mp member).2

theorem each_erase (fits : Digest → StoreEntry → Prop) (index : SortedMap Digest StoreEntry) (key : Digest)
    (each : EachEntry fits index) : EachEntry fits (index.erase key) := each_erase_all fits index [key] each

-- What indexing one file can do.
theorem index_file_cases (env : Environment) (dir : Directory) (config : StoreConfig) (index : SortedMap Digest StoreEntry)
    (name : FileName) :
    indexFile env dir config index name = index ∨
      ∃ bytes plan summary, isRecordFile name = true ∧ dir name = some bytes ∧ bytes.length ≤ config.maxRecordBytes ∧
        decodePlanRecord bytes = .ok (plan, summary) ∧
        indexFile env dir config index name = index.insert summary.id.value { summary, path := name } := by
  unfold indexFile
  split
  · exact Or.inl rfl
  rename_i eligible
  rw [not_or, Bool.not_eq_false] at eligible
  split
  · exact Or.inl rfl
  rename_i bytes read
  split
  · exact Or.inl rfl
  rename_i plan summary decoded
  obtain ⟨held, small⟩ := read_file_ok env config.root dir name config.maxRecordBytes bytes read
  exact Or.inr ⟨bytes, plan, summary, eligible.2, held, small, decoded, rfl⟩

-- What the record files of a directory put into an index.
def Listed (fits : Digest → StoreEntry → Prop) (dir : Directory) : Prop :=
  ∀ name bytes plan summary, isRecordFile name = true → dir name = some bytes → decodePlanRecord bytes = .ok (plan, summary) →
    fits summary.id.value { summary, path := name }

theorem each_rebuilt (fits : Digest → StoreEntry → Prop) (env : Environment) (dir : Directory) (config : StoreConfig)
    (listed : Listed fits dir) (names : List FileName) (index : SortedMap Digest StoreEntry) (each : EachEntry fits index) :
    EachEntry fits (names.foldl (indexFile env dir config) index) := by
  induction names generalizing index with
  | nil => exact each
  | cons name rest ih =>
      apply ih
      rcases index_file_cases env dir config index name with same | ⟨bytes, plan, summary, record, held, _, decoded, inserted⟩
      · rwa [same]
      · rw [inserted]
        exact each_insert fits index _ _ each (listed name bytes plan summary record held decoded)

theorem each_rebuild (fits : Digest → StoreEntry → Prop) (env : Environment) (dir : Directory) (store : PlanStore)
    (enumeration : Nat) (listed : Listed fits dir) : EachEntry fits (rebuildIndex env dir store enumeration).2.index := by
  unfold rebuildIndex
  split
  · exact each_empty fits
  · exact each_rebuilt fits env dir store.config listed _ _ (each_empty fits)

theorem each_drop (fits : Digest → StoreEntry → Prop) (env : Environment) (keys : List Digest) (count : Nat) (bytes : UInt64)
    (store : PlanStore) (each : EachEntry fits store.index) : EachEntry fits (dropOldest env keys count bytes store).store.index := by
  fun_induction dropOldest env keys count bytes store with
  | case1 => exact each
  | case2 => exact each
  | case3 _ _ _ _ _ _ _ ih => exact ih each
  | case4 => exact each
  | case5 _ _ _ _ _ _ entry _ _ later ih => exact ih (each_erase fits _ _ each)

theorem call_config (env : Environment) (world : StoreWorld) (call : StoreCall) :
    (call.perform env world).1.config = world.store.config := by
  cases call with
  | openStore =>
      have performed := open_case env world.dir world.store
      change (openStore env world.dir world.store).store.config = _
      generalize openStore env world.dir world.store = done at performed ⊢
      cases performed with
      | refused status => rfl
      | unfenced status closed => rfl
      | unpersisted status fenced written closed fences persist =>
          obtain ⟨_, _, _, _, rfl⟩ := fences
          rfl
      | unlisted status fenced written closed fences persist =>
          obtain ⟨_, _, _, _, rfl⟩ := fences
          rfl
      | opened fenced written closed rooted fences persist =>
          obtain ⟨_, _, _, _, rfl⟩ := fences
          rfl
  | close =>
      change (close env world.store).store.config = _
      unfold close
      split <;> rfl
  | put plan request =>
      have performed := put_case env world.store plan request
      change (put env world.store plan request).store.config = _
      generalize put env world.store plan request = done at performed ⊢
      cases performed <;> rfl
  | erase id =>
      change (erase env world.store id).store.config = _
      unfold erase
      split
      · rfl
      · split <;> rfl
  | verifyAll =>
      change (verifyAll env world.dir world.store).store.config = _
      unfold verifyAll rebuildIndex
      cases world.store.isOpen <;> cases env.enumerateFault 0 <;> rfl
  | enforceBounds =>
      have dropped (keys : List Digest) (count : Nat) (bytes : UInt64) (store : PlanStore) :
          (dropOldest env keys count bytes store).store.config = store.config := by
        fun_induction dropOldest env keys count bytes store with
        | case3 _ _ _ _ _ _ _ ih => exact ih
        | case5 _ _ _ _ _ _ _ _ _ _ ih => exact ih
        | _ => rfl
      change (enforceBounds env world.store).store.config = _
      unfold enforceBounds
      split
      · rfl
      · simp only
        split <;> exact dropped _ _ _ _

-- Entries come from a commit or from a record file, and nothing else changes them.
theorem call_entries (fits : Digest → StoreEntry → Prop) (env : Environment) (world : StoreWorld) (call : StoreCall)
    (stored : ∀ key summary, fits key { summary, path := recordFileName key }) (before : Listed fits world.dir)
    (after : Listed fits (world.after env call).dir) (each : EachEntry fits world.store.index) :
    EachEntry fits (call.perform env world).1.index := by
  cases call with
  | openStore =>
      have performed := open_case env world.dir world.store
      change EachEntry fits (openStore env world.dir world.store).store.index
      change Listed fits (performAll (openStore env world.dir world.store).effects world.dir) at after
      generalize openStore env world.dir world.store = done at performed after ⊢
      cases performed with
      | refused status => exact each
      | unfenced status closed => exact each
      | unpersisted status fenced written closed fences persist =>
          obtain ⟨_, _, _, _, rfl⟩ := fences
          exact each
      | unlisted status fenced written closed fences persist => exact each_empty fits
      | opened fenced written closed rooted fences persist => exact each_rebuilt fits env _ _ after _ _ (each_empty fits)
  | close =>
      change EachEntry fits (close env world.store).store.index
      unfold close
      split
      · exact each
      · exact each_empty fits
  | put plan request =>
      have performed := put_case env world.store plan request
      change EachEntry fits (put env world.store plan request).store.index
      generalize put env world.store plan request = done at performed ⊢
      cases performed with
      | refused status checked => exact each
      | unwritten status pending written checked write => exact each
      | unpersisted status pending written persisted checked write persist =>
          exact each_erase_all fits _ _ (each_insert fits _ _ _ each (stored _ _))
      | committed pending written persisted checked write persist =>
          exact each_erase_all fits _ _ (each_insert fits _ _ _ each (stored _ _))
  | erase id =>
      change EachEntry fits (erase env world.store id).store.index
      unfold erase
      split
      · exact each
      · split
        · exact each
        · exact each_erase fits _ _ each
  | verifyAll =>
      change EachEntry fits (verifyAll env world.dir world.store).store.index
      have rebuilt := each_rebuild fits env world.dir world.store 0 before
      unfold verifyAll
      split
      · exact each
      · split <;> rename_i outcome <;> rw [outcome] at rebuilt <;> exact rebuilt
  | enforceBounds =>
      change EachEntry fits (enforceBounds env world.store).store.index
      have dropped := each_drop fits env (oldestFirst world.store.index.entries) world.store.index.entries.length
        (totalBytes world.store) world.store each
      unfold enforceBounds
      split
      · exact each
      · simp only
        split <;> exact dropped

theorem call_layout (env : Environment) (world : StoreWorld) (call : StoreCall) (layout : Layout world.dir) :
    Layout (world.after env call).dir := by
  have kept := keeps_call env world call world.dir layout (call.perform env world).2.length
  rwa [List.take_length] at kept

-- Only an opening opens, and only on a directory that is named.
theorem call_rooted (env : Environment) (world : StoreWorld) (call : StoreCall)
    (rooted : world.store.isOpen = true → world.store.config.root.isEmpty = false)
    (opened : (call.perform env world).1.isOpen = true) : world.store.config.root.isEmpty = false := by
  cases call with
  | openStore =>
      have performed := open_case env world.dir world.store
      change (openStore env world.dir world.store).store.isOpen = true at opened
      generalize openStore env world.dir world.store = done at performed opened
      cases performed with
      | refused status => exact rooted opened
      | unfenced status closed => exact rooted opened
      | unpersisted status fenced written closed fences persist =>
          obtain ⟨_, _, _, _, rfl⟩ := fences
          exact rooted opened
      | unlisted status fenced written closed fences persist =>
          obtain ⟨_, _, _, _, rfl⟩ := fences
          exact rooted opened
      | opened fenced written closed named fences persist => exact named
  | close =>
      change (close env world.store).store.isOpen = true at opened
      unfold close at opened
      split at opened
      · exact rooted opened
      · cases opened
  | put plan request =>
      have performed := put_case env world.store plan request
      change (put env world.store plan request).store.isOpen = true at opened
      generalize put env world.store plan request = done at performed opened
      cases performed <;> exact rooted opened
  | erase id =>
      change (erase env world.store id).store.isOpen = true at opened
      unfold erase at opened
      split at opened
      · exact rooted opened
      · split at opened <;> exact rooted opened
  | verifyAll =>
      change (verifyAll env world.dir world.store).store.isOpen = true at opened
      unfold verifyAll at opened
      by_cases closed : world.store.isOpen = false
      · rw [if_pos closed] at opened
        exact rooted opened
      · exact rooted (by simpa using closed)
  | enforceBounds =>
      change (enforceBounds env world.store).store.isOpen = true at opened
      unfold enforceBounds at opened
      by_cases closed : world.store.isOpen = false
      · rw [if_pos closed] at opened
        exact rooted opened
      · exact rooted (by simpa using closed)

theorem tidy_moved (world : StoreWorld) (move : StoreMove) (tidy : Tidy world) : Tidy (world.moved move) := by
  cases move with
  | finished env call =>
      have layout := call_layout env world call tidy.layout
      refine ⟨layout, call_entries _ env world call (fun _ _ => rfl) tidy.layout layout tidy.paths, fun opened => ?_⟩
      · change (call.perform env world).1.config.root.isEmpty = false
        rw [call_config]
        exact call_rooted env world call tidy.rooted opened
  | crashed env call steps config =>
      refine ⟨keeps_call env world call world.dir tidy.layout steps, paths_empty, fun opened => ?_⟩
      cases opened

theorem reachable_tidy (world : StoreWorld) (reachable : Reachable world) : Tidy world := by
  obtain ⟨dir, config, layout, run⟩ := reachable
  refine runs_invariant _ Tidy (fun world move tidy _ => tidy_moved world move tidy) _ world ⟨layout, paths_empty, ?_⟩ run
  intro opened
  cases opened

end PathPlanner.PlanStore

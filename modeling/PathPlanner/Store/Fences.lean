import PathPlanner.Store.Crashes

set_option autoImplicit false

namespace PathPlanner.PlanStore

open Checks Codec StoreFiles StoreRecord

theorem fenced_advanced (env : Environment) (dir : Directory) (store fenced : PlanStore) (probe : env.existsFault = false)
    (epoch : Epoch) (incarnation : Incarnation) (sequence : UInt64)
    (metadata : dir metaFileName = some (encodeMeta epoch incarnation sequence)) (fences : Fenced env dir store fenced) :
    fenced = advanced store epoch incarnation sequence := by
  obtain ⟨found, another, number, taken, rfl⟩ := fences
  have kept : performAll (staleEffects env) dir metaFileName = some (encodeMeta epoch incarnation sequence) := by
    rw [perform_spared _ _ _ (stale_untouched env metaFileName meta_not_staging)]
    exact metadata
  rw [PlanStore.fences, if_pos ⟨by rw [kept]; rfl, probe⟩, bind_ok] at taken
  obtain ⟨bytes, read, taken⟩ := taken
  obtain ⟨held, _⟩ := read_file_ok _ _ _ _ _ _ read
  rw [kept, Option.some.injEq] at held
  rw [← held, bind_ok, decode_encode_meta] at taken
  obtain ⟨_, ⟨⟩, ⟨⟩⟩ := taken
  rfl

theorem open_ok (env : Environment) (dir : Directory) (store : PlanStore) (opened : (openStore env dir store).result = .ok ()) :
    ∃ fenced written, store.isOpen = false ∧ store.config.root.isEmpty = false ∧ Fenced env dir store fenced ∧
      persistMeta env fenced 0 0 = (.ok (), written) ∧
      openStore env dir store = ⟨.ok (), { fenced with
        index := rebuiltIndex env (performAll (staleEffects env ++ written) dir) store.config 1
        isOpen := true }, staleEffects env ++ written⟩ := by
  have performed := open_case env dir store
  generalize openStore env dir store = done at performed opened ⊢
  cases performed with
  | refused status => cases opened
  | unfenced status closed => cases opened
  | unpersisted status fenced written closed fences persist => cases opened
  | unlisted status fenced written closed fences persist => cases opened
  | opened fenced written closed rooted fences persist => exact ⟨fenced, written, closed, rooted, fences, persist, rfl⟩

-- An opening that leaves the store open has written the fences it runs under.
theorem opened_fences (env : Environment) (world : StoreWorld) (opened : (openStore env world.dir world.store).result = .ok ()) :
    ∃ fenced, Fenced env world.dir world.store fenced ∧
      SameFences fenced (world.after env .openStore).store ∧
      (world.after env .openStore).dir metaFileName = some (encodeMeta fenced.epoch fenced.incarnation fenced.sequence) := by
  obtain ⟨fenced, written, _, _, fences, persist, done⟩ := open_ok env world.dir world.store opened
  refine ⟨fenced, fences, ?_, ?_⟩
  · change SameFences fenced (openStore env world.dir world.store).store
    rw [done]
    exact ⟨rfl, rfl, rfl⟩
  · change performAll (openStore env world.dir world.store).effects world.dir metaFileName = _
    rw [done]
    exact persisted_meta env fenced 0 0 (staleEffects env) written world.dir persist

theorem open_failed (env : Environment) (dir : Directory) (store : PlanStore)
    (failed : (openStore env dir store).result ≠ .ok ()) (still : (openStore env dir store).store.isOpen = true) :
    (openStore env dir store).store = store := by
  have performed := open_case env dir store
  generalize openStore env dir store = done at performed failed still ⊢
  cases performed with
  | refused status => rfl
  | unfenced status closed => rfl
  | unpersisted status fenced written closed fences persist =>
      obtain ⟨_, _, _, _, rfl⟩ := fences
      exact absurd (closed.symm.trans still) (by decide)
  | unlisted status fenced written closed fences persist =>
      obtain ⟨_, _, _, _, rfl⟩ := fences
      exact absurd (closed.symm.trans still) (by decide)
  | opened fenced written closed rooted fences persist => exact absurd rfl failed

theorem open_refused (env : Environment) (world : StoreWorld) (opened : world.store.isOpen = true) :
    world.after env .openStore = world := by
  have refused : openStore env world.dir world.store =
      ⟨.error (failure .storeAlreadyOpen "the store is already open"), world.store, []⟩ := by
    rw [openStore, if_pos opened]
  rw [StoreWorld.after, StoreCall.perform, refused]
  rfl

-- A closed store that is open afterwards was opened.
theorem open_fresh (env : Environment) (world : StoreWorld) (closed : world.store.isOpen = false)
    (opened : (world.after env .openStore).store.isOpen = true) : (openStore env world.dir world.store).result = .ok () := by
  by_contra failed
  have same : (world.after env .openStore).store = world.store := open_failed env world.dir world.store failed opened
  rw [same, closed] at opened
  cases opened

-- The opening sees the metadata that is there, and its counters have successors.
def Advances (env : Environment) (world : StoreWorld) : StoreCall → Prop
  | .openStore => env.existsFault = false ∧ ∀ epoch incarnation sequence,
      world.dir metaFileName = some (encodeMeta epoch incarnation sequence) →
        epoch.value.toNat + 1 < 2 ^ 64 ∧ incarnation.value.toNat + 1 < 2 ^ 64
  | _ => True

def AdvancingMove (world : StoreWorld) : StoreMove → Prop
  | .finished env call => Advances env world call
  | .crashed env call _ _ => Advances env world call

def Reached (epoch : Epoch) (incarnation : Incarnation) (later : Epoch) (another : Incarnation) : Prop :=
  epoch.value.toNat ≤ later.value.toNat ∧ incarnation.value.toNat ≤ another.value.toNat

def MetaReached (epoch : Epoch) (incarnation : Incarnation) (file : Option Bytes) : Prop :=
  ∃ later another sequence, file = some (encodeMeta later another sequence) ∧ Reached epoch incarnation later another

-- The directory and an open store have moved on from a pair of fences.
structure FencedFrom (epoch : Epoch) (incarnation : Incarnation) (world : StoreWorld) : Prop where
  named : EachEntry NamesRecord world.store.index
  metadata : MetaReached epoch incarnation (world.dir metaFileName)
  current : world.store.isOpen = true → Reached epoch incarnation world.store.epoch world.store.incarnation

theorem successor_above (value : UInt64) (small : value.toNat + 1 < 2 ^ 64) : value.toNat < (value + 1).toNat := by
  rw [UInt64.toNat_add, UInt64.toNat_one, Nat.mod_eq_of_lt small]
  exact Nat.lt_succ_self _

theorem fenced_above (epoch : Epoch) (incarnation : Incarnation) (world : StoreWorld) (fencedFrom : FencedFrom epoch incarnation world)
    (env : Environment) (advances : Advances env world .openStore) (fenced : PlanStore)
    (fences : Fenced env world.dir world.store fenced) :
    epoch.value.toNat < fenced.epoch.value.toNat ∧ incarnation.value.toNat < fenced.incarnation.value.toNat := by
  obtain ⟨later, another, sequence, metadata, epochs, incarnations⟩ := fencedFrom.metadata
  obtain ⟨small, slight⟩ := advances.2 later another sequence metadata
  rw [fenced_advanced env world.dir world.store fenced advances.1 later another sequence metadata fences]
  exact ⟨lt_of_le_of_lt epochs (successor_above _ small), lt_of_le_of_lt incarnations (successor_above _ slight)⟩

theorem fenced_files (epoch : Epoch) (incarnation : Incarnation) (world : StoreWorld) (env : Environment) (call : StoreCall)
    (steps : Nat) (fencedFrom : FencedFrom epoch incarnation world) (advances : Advances env world call) :
    MetaReached epoch incarnation (performAll ((call.perform env world).2.take steps) world.dir metaFileName) := by
  have own (opened : world.store.isOpen = true) (sequence : UInt64) (file : Option Bytes)
      (written : file = some (encodeMeta world.store.epoch world.store.incarnation sequence)) :
      MetaReached epoch incarnation file := ⟨_, _, sequence, written, fencedFrom.current opened⟩
  rcases call_meta env world call fencedFrom.named world.dir steps with same | written
  · rw [same]
    exact fencedFrom.metadata
  · cases call with
    | openStore =>
        obtain ⟨_, fenced, fences, written⟩ := written
        obtain ⟨above, beyond⟩ := fenced_above epoch incarnation world fencedFrom env advances fenced fences
        exact ⟨_, _, _, written, le_of_lt above, le_of_lt beyond⟩
    | put plan request =>
        obtain ⟨pending, checked, written⟩ := written
        exact own (prepare_put_ok env world.store plan request pending checked).opened _ _ written
    | close => exact own written.1 _ _ written.2
    | erase id => exact own written.1 _ _ written.2
    | verifyAll => exact own written.1 _ _ written.2
    | enforceBounds => exact own written.1 _ _ written.2

theorem fenced_moved (epoch : Epoch) (incarnation : Incarnation) (world : StoreWorld) (move : StoreMove)
    (fencedFrom : FencedFrom epoch incarnation world) (advancing : AdvancingMove world move) :
    FencedFrom epoch incarnation (world.moved move) := by
  have named := named_moved world move fencedFrom.named
  cases move with
  | crashed env call steps config =>
      refine ⟨named, fenced_files epoch incarnation world env call steps fencedFrom advancing, fun opened => ?_⟩
      cases opened
  | finished env call =>
      have files := fenced_files epoch incarnation world env call (call.perform env world).2.length fencedFrom advancing
      rw [List.take_length] at files
      refine ⟨named, files, fun opened => ?_⟩
      by_cases opening : call = .openStore
      · subst opening
        by_cases fresh : (openStore env world.dir world.store).result = .ok ()
        · obtain ⟨fenced, fences, same, _⟩ := opened_fences env world fresh
          obtain ⟨above, beyond⟩ := fenced_above epoch incarnation world fencedFrom env advancing fenced fences
          change Reached epoch incarnation (world.after env .openStore).store.epoch (world.after env .openStore).store.incarnation
          rw [same.epoch, same.incarnation]
          exact ⟨le_of_lt above, le_of_lt beyond⟩
        · have same : (world.after env .openStore).store = world.store := open_failed env world.dir world.store fresh opened
          rw [StoreWorld.moved, same] at opened ⊢
          exact fencedFrom.current opened
      · have kept := call_fences env world call
        change Reached epoch incarnation (call.perform env world).1.epoch (call.perform env world).1.incarnation
        rw [kept.epoch opening, kept.incarnation opening]
        exact fencedFrom.current (kept.opened opening opened)

-- A store, closed, on any directory, and whatever its process then does.
def StartedFrom (config : StoreConfig) (dir : Directory) (world : StoreWorld) : Prop :=
  Runs (fun _ _ => True) ⟨dir, { config }⟩ world

theorem started_named (config : StoreConfig) (dir : Directory) (world : StoreWorld) (started : StartedFrom config dir world) :
    EachEntry NamesRecord world.store.index :=
  runs_invariant _ (fun world => EachEntry NamesRecord world.store.index) (fun world move named _ => named_moved world move named)
    _ world (each_empty NamesRecord) started

theorem fences_advance (config : StoreConfig) (dir : Directory) (world later : StoreWorld) (env reopening : Environment)
    (started : StartedFrom config dir world) (first : (openStore env world.dir world.store).result = .ok ())
    (run : Runs AdvancingMove (world.after env .openStore) later) (advances : Advances reopening later .openStore)
    (second : (openStore reopening later.dir later.store).result = .ok ()) :
    (world.after env .openStore).store.epoch.value < (later.after reopening .openStore).store.epoch.value ∧
      (world.after env .openStore).store.incarnation.value < (later.after reopening .openStore).store.incarnation.value := by
  obtain ⟨fenced, _, same, metadata⟩ := opened_fences env world first
  rw [← same.epoch, ← same.incarnation] at metadata
  have named := named_moved world (.finished env .openStore) (started_named config dir world started)
  have start : FencedFrom (world.after env .openStore).store.epoch (world.after env .openStore).store.incarnation
      (world.after env .openStore) :=
    ⟨named, ⟨_, _, _, metadata, le_refl _, le_refl _⟩, fun _ => ⟨le_refl _, le_refl _⟩⟩
  have fencedFrom := runs_invariant _ (FencedFrom _ _) (fun world move => fenced_moved _ _ world move) _ later start run
  obtain ⟨refenced, fences, again, _⟩ := opened_fences reopening later second
  rw [again.epoch, again.incarnation, UInt64.lt_iff_toNat_lt, UInt64.lt_iff_toNat_lt]
  exact fenced_above _ _ later fencedFrom reopening advances refenced fences

-- The opened store's process stops, and another one opens the directory.
def abandonedWorld : StoreWorld := openedWorld.moved (.crashed (quietEnvironment [] 0) .close 0 emptyWorld.store.config)

theorem abandoned_file : abandonedWorld.dir metaFileName = some (encodeMeta ⟨1⟩ ⟨1⟩ 0) :=
  persisted_steady (quietEnvironment [] 0) (quiet_calm [] 0).toSteady { openedWorld.store with isOpen := false } 0 0 [] emptyWorld.dir

theorem abandoned_meta (epoch : Epoch) (incarnation : Incarnation) (sequence : UInt64)
    (metadata : abandonedWorld.dir metaFileName = some (encodeMeta epoch incarnation sequence)) :
    epoch = ⟨1⟩ ∧ incarnation = ⟨1⟩ := by
  have decoded := congrArg decodeMeta (Option.some.inj (abandoned_file.symm.trans metadata))
  rw [decode_encode_meta, decode_encode_meta] at decoded
  cases decoded
  exact ⟨rfl, rfl⟩

theorem abandoned_advances : Advances (quietEnvironment [] 0) abandonedWorld .openStore := by
  refine ⟨rfl, fun epoch incarnation sequence metadata => ?_⟩
  obtain ⟨rfl, rfl⟩ := abandoned_meta epoch incarnation sequence metadata
  decide

theorem abandoned_runs (allowed : StoreWorld → StoreMove → Prop)
    (fits : allowed openedWorld (.crashed (quietEnvironment [] 0) .close 0 emptyWorld.store.config)) :
    Runs allowed openedWorld abandonedWorld := .step openedWorld _ .refl fits

theorem abandoned_fences_advance :
    openedWorld.store.epoch.value < (abandonedWorld.after (quietEnvironment [] 0) .openStore).store.epoch.value ∧
      openedWorld.store.incarnation.value < (abandonedWorld.after (quietEnvironment [] 0) .openStore).store.incarnation.value := by
  have reopened : (openStore (quietEnvironment [] 0) abandonedWorld.dir abandonedWorld.store).result = .ok () := by
    rw [steady_open (quietEnvironment [] 0) (quiet_calm [] 0).toSteady abandonedWorld.dir abandonedWorld.store rfl rfl ⟨1⟩ ⟨1⟩ 0
      abandoned_file]
  exact fences_advance emptyWorld.store.config emptyWorld.dir emptyWorld abandonedWorld (quietEnvironment [] 0)
    (quietEnvironment [] 0) .refl rfl (abandoned_runs AdvancingMove trivial) abandoned_advances reopened

def probeFault : Environment := { quietEnvironment [] 0 with existsFault := true }

-- A probe that fails is taken for a directory without metadata.
theorem fences_restart : ¬ ∀ (config : StoreConfig) (dir : Directory) (world later : StoreWorld) (env reopening : Environment),
    StartedFrom config dir world → (openStore env world.dir world.store).result = .ok () →
    Runs (fun _ _ => True) (world.after env .openStore) later → (openStore reopening later.dir later.store).result = .ok () →
    (world.after env .openStore).store.epoch.value < (later.after reopening .openStore).store.epoch.value ∧
      (world.after env .openStore).store.incarnation.value < (later.after reopening .openStore).store.incarnation.value := by
  intro claimed
  have higher := (claimed emptyWorld.store.config emptyWorld.dir emptyWorld abandonedWorld (quietEnvironment [] 0) probeFault .refl rfl
    (abandoned_runs (fun _ _ => True) trivial) rfl).1
  exact absurd higher (by decide)

end PathPlanner.PlanStore

import PathPlanner.Store.StoreRuns

set_option autoImplicit false

namespace PathPlanner

open Checks Codec Sequence StoreFiles StoreRecord

namespace StoreFiles

-- A world in which no file system call but a removal fails.
structure Environment.Steady (env : Environment) : Prop where
  directory : env.directoryFault = none
  enumerate : ∀ enumeration, env.enumerateFault enumeration = none
  probe : env.existsFault = false
  regular : ∀ name, env.regularFault name = false
  read : ∀ name, env.readFault name = none
  staging : ∀ name, env.stagingFault name = none
  replace : ∀ name, env.replaceFault name = none

structure Environment.Calm (env : Environment) : Prop extends env.Steady where
  remove : ∀ name, env.removeFault name = none

-- An enumeration misses no record file.
def Environment.Lists (env : Environment) (dir : Directory) : Prop :=
  ∀ enumeration name, isRecordFile name = true → (dir name).isSome = true → name ∈ env.listing enumeration

def quietEnvironment (names : List FileName) (clock : UInt64) : Environment where
  token := fun _ => 0
  micros := fun _ => clock
  listing := fun _ => names
  directoryFault := none
  enumerateFault := fun _ => none
  existsFault := false
  regularFault := fun _ => false
  readFault := fun _ => none
  stagingFault := fun _ => none
  replaceFault := fun _ => none
  removeFault := fun _ => none

theorem quiet_calm (names : List FileName) (clock : UInt64) : (quietEnvironment names clock).Calm :=
  ⟨⟨rfl, fun _ => rfl, rfl, fun _ => rfl, fun _ => rfl, fun _ => rfl, fun _ => rfl⟩, fun _ => rfl⟩

theorem write_steady (env : Environment) (steady : env.Steady) (root : Bytes) (staging target : FileName) (bytes : Bytes) :
    writeFileAtomic env root staging target bytes = (.ok (), [.stage staging bytes, .rename staging target]) := by
  simp only [writeFileAtomic, steady.staging, steady.replace]

end StoreFiles

namespace PlanStore

-- The summary an enumeration takes from a record file.
def recordOf (dir : Directory) (config : StoreConfig) (name : FileName) : Option StoredPlanSummary :=
  (dir name).bind fun bytes =>
    if bytes.length ≤ config.maxRecordBytes then (decodePlanRecord bytes).toOption.map Prod.snd else none

theorem record_of_some (dir : Directory) (config : StoreConfig) (name : FileName) (summary : StoredPlanSummary) :
    recordOf dir config name = some summary ↔
      ∃ bytes plan, dir name = some bytes ∧ bytes.length ≤ config.maxRecordBytes ∧ decodePlanRecord bytes = .ok (plan, summary) := by
  unfold recordOf
  rw [Option.bind_eq_some_iff]
  constructor
  · rintro ⟨bytes, held, found⟩
    by_cases small : bytes.length ≤ config.maxRecordBytes
    · rw [if_pos small] at found
      cases decoded : decodePlanRecord bytes with
      | error status => simp [decoded, Except.toOption] at found
      | ok record =>
          obtain ⟨plan, carried⟩ := record
          simp only [decoded, Except.toOption, Option.map_some, Option.some.injEq] at found
          exact ⟨bytes, plan, held, small, by rw [decoded, found]⟩
    · rw [if_neg small] at found
      cases found
  · rintro ⟨bytes, plan, held, small, decoded⟩
    exact ⟨bytes, held, by rw [if_pos small, decoded]; rfl⟩

theorem index_file_steady (env : Environment) (steady : env.Steady) (dir : Directory) (config : StoreConfig)
    (index : SortedMap Digest StoreEntry) (name : FileName) (record : isRecordFile name = true) :
    indexFile env dir config index name =
      match recordOf dir config name with
      | none => index
      | some summary => index.insert summary.id.value { summary, path := name } := by
  unfold indexFile recordOf
  rw [if_neg (by simp [steady.regular, record])]
  cases held : dir name with
  | none => simp [readFile, steady.read, held]
  | some bytes =>
      by_cases small : bytes.length ≤ config.maxRecordBytes
      · rw [read_file_calm env config.root dir name _ bytes (steady.read name) held small]
        simp only [Option.bind_some, if_pos small]
        cases decodePlanRecord bytes <;> rfl
      · have long := not_le.mp small
        simp [readFile, steady.read, held, small, long]

theorem index_file_other (env : Environment) (dir : Directory) (config : StoreConfig) (index : SortedMap Digest StoreEntry)
    (name : FileName) (other : isRecordFile name = false) : indexFile env dir config index name = index := by
  unfold indexFile
  rw [if_pos (Or.inr other)]

theorem record_of_named (dir : Directory) (config : StoreConfig) (layout : Layout dir) (name : FileName)
    (summary : StoredPlanSummary) (record : isRecordFile name = true) (found : recordOf dir config name = some summary) :
    name = recordFileName summary.id.value := by
  obtain ⟨bytes, plan, held, _, decoded⟩ := (record_of_some dir config name summary).mp found
  exact layout name bytes plan summary record held decoded

def entryOf (key : Digest) (summary : StoredPlanSummary) : StoreEntry := { summary, path := recordFileName key }

-- Each record file decides the entry of its own key and of no other.
theorem index_file_find (env : Environment) (steady : env.Steady) (dir : Directory) (config : StoreConfig) (layout : Layout dir)
    (index : SortedMap Digest StoreEntry) (name : FileName) (key : Digest) :
    (indexFile env dir config index name).find key =
      if name = recordFileName key then
        ((recordOf dir config (recordFileName key)).map (entryOf key)).or (index.find key)
      else index.find key := by
  cases record : isRecordFile name with
  | false =>
      have apart : name ≠ recordFileName key := by
        intro same
        rw [same, record_file_name_record] at record
        cases record
      rw [index_file_other env dir config index name record, if_neg apart]
  | true =>
      rw [index_file_steady env steady dir config index name record]
      cases found : recordOf dir config name with
      | none =>
          by_cases here : name = recordFileName key
          · subst here
            simp [found]
          · rw [if_neg here]
      | some summary =>
          have named := record_of_named dir config layout name summary record found
          by_cases here : name = recordFileName key
          · subst here
            have same := record_file_name_injective named
            rw [if_pos rfl, found]
            simp [← same, entryOf]
          · have apart : key ≠ summary.id.value := by
              rintro rfl
              exact here named
            rw [if_neg here]
            exact index.find_insert_other _ _ _ apart

theorem listed_find (env : Environment) (steady : env.Steady) (dir : Directory) (config : StoreConfig) (layout : Layout dir)
    (names : List FileName) (index : SortedMap Digest StoreEntry) (key : Digest) :
    (names.foldl (indexFile env dir config) index).find key =
      if recordFileName key ∈ names then ((recordOf dir config (recordFileName key)).map (entryOf key)).or (index.find key)
      else index.find key := by
  induction names generalizing index with
  | nil => rfl
  | cons name rest ih =>
      rw [List.foldl_cons, ih, index_file_find env steady dir config layout]
      by_cases here : name = recordFileName key
      · subst here
        rw [if_pos rfl, if_pos List.mem_cons_self]
        split_ifs
        · cases recordOf dir config (recordFileName key) <;> rfl
        · rfl
      · have later : recordFileName key ∈ name :: rest ↔ recordFileName key ∈ rest := by
          rw [List.mem_cons]
          exact or_iff_right fun same => here same.symm
        rw [if_neg here]
        simp only [later]

-- A complete enumeration indexes exactly the record files that decode.
theorem rebuilt_find (env : Environment) (steady : env.Steady) (dir : Directory) (config : StoreConfig) (layout : Layout dir)
    (lists : env.Lists dir) (enumeration : Nat) (key : Digest) :
    (rebuiltIndex env dir config enumeration).find key = (recordOf dir config (recordFileName key)).map (entryOf key) := by
  rw [rebuiltIndex, listed_find env steady dir config layout]
  split_ifs with listed
  · simp
  · cases found : recordOf dir config (recordFileName key) with
    | none => rfl
    | some summary =>
        obtain ⟨bytes, plan, held, _⟩ := (record_of_some dir config _ summary).mp found
        exact absurd (lists enumeration _ (record_file_name_record key) (by rw [held]; rfl)) listed

-- A store just opened on an empty directory.
def emptyWorld : StoreWorld := ⟨fun _ => none, { config := { root := text "plans" } }⟩

def openedWorld : StoreWorld := emptyWorld.after (quietEnvironment [] 0) .openStore

theorem opened_store : openedWorld.store =
    { config := { root := text "plans" }, isOpen := true, epoch := ⟨1⟩, incarnation := ⟨1⟩, sequence := 0 } := rfl

theorem empty_layout : Layout emptyWorld.dir := by
  intro name bytes plan summary record held
  cases held

theorem opened_reachable : Reachable openedWorld :=
  ⟨emptyWorld.dir, emptyWorld.store.config, empty_layout,
    .step emptyWorld (.finished (quietEnvironment [] 0) .openStore) .refl trivial⟩

end PlanStore

end PathPlanner

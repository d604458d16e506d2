import PathPlanner.Store.Files
import PathPlanner.Lib.SortedMap
import PathPlanner.Plan

set_option autoImplicit false

namespace PathPlanner

open Checks Codec Sequence StoreFiles StoreRecord

def kMaxStoreTotalBytes : Nat := 512 * 1024 * 1024

structure StoreConfig where
  root : Bytes := []
  maxRecords : Nat := kMaxStoreRecords
  maxRecordBytes : Nat := kMaxPlanRecordBytes
  maxTotalBytes : UInt64 := UInt64.ofNat kMaxStoreTotalBytes

structure StoreEntry where
  summary : StoredPlanSummary := {}
  path : FileName := []

structure PlanStore where
  config : StoreConfig
  isOpen : Bool := false
  epoch : Epoch := ⟨0⟩
  incarnation : Incarnation := ⟨0⟩
  sequence : UInt64 := 0
  index : SortedMap Digest StoreEntry := SortedMap.empty

-- What an operation returns, the store it leaves and what it did to the directory, in order.
structure Performed (α : Type) where
  result : Result α
  store : PlanStore
  effects : List Effect

namespace PlanStore

def encodeMeta (epoch : Epoch) (incarnation : Incarnation) (sequence : UInt64) : Bytes :=
  let body := kMetaMagic ++ ByteWriter.u16 kStoreFormatVersion ++ ByteWriter.generation epoch ++
    ByteWriter.generation incarnation ++ ByteWriter.u64 sequence.toNat
  body ++ ByteWriter.u32 (crc32 body).toNat

structure StoreMeta where
  version : UInt16
  epoch : Epoch
  incarnation : Incarnation
  sequence : UInt64

def readMeta : ByteReader StoreMeta := do
  let version ← ByteReader.word16
  let epoch ← ByteReader.generation _
  let incarnation ← ByteReader.generation _
  let sequence ← ByteReader.word64
  pure { version, epoch, incarnation, sequence }

def decodeMeta (bytes : Bytes) : Result StoreMeta := do
  deny (bytes.length ≠ kMetaBytes) (failure .corruptRecord "store metadata has an unexpected size")
  deny ((crc32 (bytes.take (bytes.length - 4))).toNat ≠ wordAt bytes (bytes.length - 4))
    (failure .corruptRecord "store metadata failed its integrity check")
  let (magic, rest) ← ByteReader.raw kMetaMagic.length bytes
  deny (magic ≠ kMetaMagic) (failure .corruptRecord "store metadata magic is wrong")
  let (found, _) ← readMeta rest
  deny (found.version.toNat ≠ kStoreFormatVersion) ⟨.unsupportedRecordVersion,
    text "store metadata format version " ++ decimal found.version.toNat ++ text " is not supported"⟩
  .ok found

variable (env : Environment) (dir : Directory) (store : PlanStore)

-- The draws of the staging counter and of the clock are numbered within one call.
def persistMeta (token reading : Nat) : Result Unit × List Effect :=
  writeFileAtomic env store.config.root (stagingFileName (env.token token) (env.micros reading)) metaFileName
    (encodeMeta store.epoch store.incarnation store.sequence)

def indexFile (config : StoreConfig) (index : SortedMap Digest StoreEntry) (name : FileName) : SortedMap Digest StoreEntry :=
  if env.regularFault name ∨ isRecordFile name = false then index
  else
    match readFile env config.root dir name config.maxRecordBytes with
    | .error _ => index
    | .ok bytes =>
        match decodePlanRecord bytes with
        | .error _ => index
        | .ok (_, summary) => index.insert summary.id.value { summary, path := name }

def rebuildIndex (enumeration : Nat) : Result Unit × PlanStore :=
  match env.enumerateFault enumeration with
  | some message => (.error (filesystemFailure "cannot enumerate" store.config.root message),
      { store with index := SortedMap.empty })
  | none => (.ok (),
      { store with index := (env.listing enumeration).foldl (indexFile env dir store.config) SortedMap.empty })

-- The first enumeration of the directory finds the files to clear away.
def staleEffects : List Effect :=
  ((env.listing 0).filter fun name => isStagingFile name && (env.removeFault name).isNone).map Effect.remove

-- Opening advances both fences; a directory without readable metadata starts afresh.
def fences : Result (Epoch × Incarnation × UInt64) :=
  if (dir metaFileName).isSome ∧ env.existsFault = false then do
    let bytes ← readFile env store.config.root dir metaFileName kMetaBytes
    let found ← decodeMeta bytes
    .ok (⟨found.epoch.value + 1⟩, ⟨found.incarnation.value + 1⟩, found.sequence)
  else .ok (⟨1⟩, ⟨1⟩, 0)

def openStore : Performed Unit :=
  if store.isOpen then ⟨.error (failure .storeAlreadyOpen "the store is already open"), store, []⟩
  else if store.config.root.isEmpty then ⟨.error (failure .storeIoFailure "the store has no root directory"), store, []⟩
  else
    match env.directoryFault, env.enumerateFault 0 with
    | some message, _ =>
        ⟨.error (filesystemFailure "cannot create the store directory" store.config.root message), store, []⟩
    | none, some message => ⟨.error (filesystemFailure "cannot enumerate" store.config.root message), store, []⟩
    | none, none =>
        let cleared := staleEffects env
        match fences env (performAll cleared dir) store with
        | .error status => ⟨.error status, store, cleared⟩
        | .ok (epoch, incarnation, sequence) =>
            let fenced := { store with epoch, incarnation, sequence }
            match persistMeta env fenced 0 0 with
            | (.error status, written) => ⟨.error status, fenced, cleared ++ written⟩
            | (.ok _, written) =>
                match rebuildIndex env (performAll (cleared ++ written) dir) fenced 1 with
                | (.error status, rebuilt) => ⟨.error status, rebuilt, cleared ++ written⟩
                | (.ok _, rebuilt) => ⟨.ok (), { rebuilt with isOpen := true }, cleared ++ written⟩

def close : Performed Unit :=
  if store.isOpen = false then ⟨.ok (), store, []⟩
  else
    let (status, written) := persistMeta env store 0 0
    ⟨status, { store with index := SortedMap.empty, isOpen := false }, written⟩

def notOpen : Status := failure .storeNotOpen "the store is not open"

def notFound (id : CollectivePlanId) : Status := ⟨.notFound, text "no record holds digest " ++ id.value.hex⟩

def recordBytesOf (key : Digest) : UInt64 := ((store.index.find key).map fun entry => entry.summary.recordBytes).getD 0

-- Record keys from the oldest commit on, ties by digest.
def oldestFirst (entries : List (Digest × StoreEntry)) : List Digest :=
  (sortValues (entries.map fun entry => toLex (entry.2.summary.storedSequence.toNat, entry.1))).map fun key => (ofLex key).2

def totalBytes : UInt64 := (store.index.entries.map fun entry => entry.2.summary.recordBytes).foldl (· + ·) 0

def WithinBounds (count : Nat) (bytes : UInt64) : Prop := count ≤ store.config.maxRecords ∧ bytes ≤ store.config.maxTotalBytes

instance (count : Nat) (bytes : UInt64) : Decidable (WithinBounds store count bytes) := inferInstanceAs (Decidable (_ ∧ _))

def evict : List Digest → Nat → UInt64 → List Digest × Nat × UInt64
  | [], count, bytes => ([], count, bytes)
  | key :: rest, count, bytes =>
      if WithinBounds store count bytes then ([], count, bytes)
      else
        let (keys, left, remaining) := evict rest (count - 1) (bytes - recordBytesOf store key)
        (key :: keys, left, remaining)

-- The records a put may evict: all but the one it replaces.
def others (digest : Digest) : List (Digest × StoreEntry) :=
  store.index.entries.filter fun entry => ¬ ((store.index.find digest).isSome = true ∧ entry.1 = digest)

-- The victims of a put, and the count and bytes the store would have without them.
def projectPut (digest : Digest) (recordLength : Nat) : List Digest × Nat × UInt64 :=
  let count := store.index.entries.length + if (store.index.find digest).isSome then 0 else 1
  -- The subtraction may wrap; adding the replaced record's bytes back undoes it.
  let bytes := UInt64.ofNat recordLength - recordBytesOf store digest
  evict store (oldestFirst (others store digest)) count
    ((store.index.entries.map fun entry => entry.2.summary.recordBytes).foldl (· + ·) bytes)

-- What a put that passed every check is about to commit.
structure PendingPut where
  record : Bytes
  sequence : UInt64
  evictions : List Digest

def preparePut (plan : Plan) (request : PlanningRequest) : Result PendingPut := do
  deny (store.isOpen = false) notOpen
  deny (plan.inputDigest ≠ request.canonicalDigest)
    (failure .recordIncompatible "the plan was not produced from this request's canonical digest")
  validatePlan plan request
  let sequence := store.sequence + 1
  let record := encodePlanRecord plan request.canonicalDigest store.incarnation sequence (env.micros 0)
  deny (record.length > store.config.maxRecordBytes)
    (failure .oversizedRecord "the encoded plan record exceeds the configured bound")
  let (evictions, count, bytes) := projectPut store plan.id.value record.length
  deny (¬ WithinBounds store count bytes) (failure .storeCapacityExceeded
    "the store cannot make room for this record within its configured bounds")
  .ok { record, sequence, evictions }

def removals (keys : List Digest) : List FileName := keys.map fun key => ((store.index.find key).getD {}).path

def commit (plan : Plan) (pending : PendingPut) : PlanStore :=
  let summary := summaryOf plan store.incarnation pending.sequence (env.micros 2) pending.record.length
  { store with
    sequence := pending.sequence
    index := (store.index.insert plan.id.value { summary, path := recordFileName plan.id.value }).eraseAll pending.evictions }

-- A file that cannot be removed is left behind.
def removalEffects (pending : PendingPut) : List Effect :=
  ((removals store pending.evictions).filter fun name => (env.removeFault name).isNone).map Effect.remove

def put (plan : Plan) (request : PlanningRequest) : Performed StoredPlanSummary :=
  match preparePut env store plan request with
  | .error status => ⟨.error status, store, []⟩
  | .ok pending =>
      match writeFileAtomic env store.config.root (stagingFileName (env.token 0) (env.micros 1))
          (recordFileName plan.id.value) pending.record with
      | (.error status, written) => ⟨.error status, store, written⟩
      | (.ok _, written) =>
          let committed := commit env store plan pending
          let removed := removalEffects env store pending
          match persistMeta env committed 1 3 with
          | (.error status, persisted) => ⟨.error status, committed, written ++ (removed ++ persisted)⟩
          | (.ok _, persisted) =>
              ⟨.ok (summaryOf plan store.incarnation pending.sequence (env.micros 2) pending.record.length), committed,
                written ++ (removed ++ persisted)⟩

def findEntry (id : CollectivePlanId) : Result StoreEntry := do
  deny (store.isOpen = false) notOpen
  match store.index.find id.value with
  | none => .error (notFound id)
  | some entry => .ok entry

def get (id : CollectivePlanId) : Result Plan := do
  let entry ← findEntry store id
  let bytes ← readFile env store.config.root dir entry.path store.config.maxRecordBytes
  let (plan, _) ← decodePlanRecord bytes
  .ok plan

def summary (id : CollectivePlanId) : Result StoredPlanSummary := do
  let entry ← findEntry store id
  .ok entry.summary

def summaries : List StoredPlanSummary := store.index.entries.map fun entry => entry.2.summary

def list : Result (List StoredPlanSummary) := do
  deny (store.isOpen = false) notOpen
  .ok (summaries store)

def erase (id : CollectivePlanId) : Performed Unit :=
  match findEntry store id with
  | .error status => ⟨.error status, store, []⟩
  | .ok entry =>
      match env.removeFault entry.path with
      | some message => ⟨.error (filesystemFailure "cannot remove" (pathText store.config.root entry.path) message), store, []⟩
      | none =>
          let erased := { store with index := store.index.erase id.value }
          let (status, persisted) := persistMeta env erased 0 0
          ⟨status, erased, .remove entry.path :: persisted⟩

def verifyAll : Performed (List StoredPlanSummary) :=
  if store.isOpen = false then ⟨.error notOpen, store, []⟩
  else
    match rebuildIndex env dir store 0 with
    | (.error status, rebuilt) => ⟨.error status, rebuilt, []⟩
    | (.ok _, rebuilt) => ⟨.ok (summaries rebuilt), rebuilt, []⟩

def dropOldest : List Digest → Nat → UInt64 → PlanStore → Performed Unit
  | [], _, _, store => ⟨.ok (), store, []⟩
  | key :: rest, count, bytes, store =>
      if WithinBounds store count bytes then ⟨.ok (), store, []⟩
      else
        match store.index.find key with
        | none => dropOldest rest count bytes store
        | some entry =>
            match env.removeFault entry.path with
            | some message =>
                ⟨.error (filesystemFailure "cannot remove" (pathText store.config.root entry.path) message), store, []⟩
            | none =>
                let later := dropOldest rest (count - 1) (bytes - entry.summary.recordBytes)
                  { store with index := store.index.erase key }
                { later with effects := .remove entry.path :: later.effects }

def enforceBounds : Performed Unit :=
  if store.isOpen = false then ⟨.error notOpen, store, []⟩
  else
    let dropped := dropOldest env (oldestFirst store.index.entries) store.index.entries.length (totalBytes store) store
    match dropped.result with
    | .error _ => dropped
    | .ok _ =>
        let (status, persisted) := persistMeta env dropped.store 0 0
        ⟨status, dropped.store, dropped.effects ++ persisted⟩

end PlanStore

end PathPlanner

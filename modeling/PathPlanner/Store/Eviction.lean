import PathPlanner.Store.PutFailure

set_option autoImplicit false

namespace PathPlanner.PlanStore

open Checks Codec Sequence StoreFiles StoreRecord ValidatePlan

-- The bytes the index accounts for, as a number that does not wrap.
def recordSizes (index : SortedMap Digest StoreEntry) : Nat := (index.entries.map fun entry => entry.2.summary.recordBytes.toNat).sum

def FitsBounds (config : StoreConfig) (index : SortedMap Digest StoreEntry) : Prop :=
  index.entries.length ≤ config.maxRecords ∧ recordSizes index ≤ config.maxTotalBytes.toNat

-- Victims come in the order of their commits, ties by digest.
theorem oldest_first_ordered (entries : List (Digest × StoreEntry)) :
    ∃ keys : List (Nat ×ₗ Digest), keys.Pairwise (· ≤ ·) ∧ oldestFirst entries = keys.map (fun key => (ofLex key).2) ∧
      keys.Perm (entries.map fun entry => toLex (entry.2.summary.storedSequence.toNat, entry.1)) :=
  ⟨_, sort_values_sorted _, rfl, sort_values_perm _⟩

theorem erase_count (index : SortedMap Digest StoreEntry) (key : Digest) (entry : StoreEntry) (found : index.find key = some entry) :
    index.entries.length = (index.erase key).entries.length + 1 := by
  rw [(index.erase_perm key entry found).length_eq, List.length_cons]

theorem erase_sizes (index : SortedMap Digest StoreEntry) (key : Digest) (entry : StoreEntry) (found : index.find key = some entry) :
    recordSizes index = entry.summary.recordBytes.toNat + recordSizes (index.erase key) := by
  rw [recordSizes, ((index.erase_perm key entry found).map _).sum_eq, List.map_cons, List.sum_cons]
  rfl

theorem within_iff (store : PlanStore) (index : SortedMap Digest StoreEntry) (count : Nat) (bytes : UInt64)
    (counted : count = index.entries.length) (sized : bytes.toNat = recordSizes index) :
    WithinBounds store count bytes ↔ FitsBounds store.config index := by
  rw [WithinBounds, FitsBounds, counted, UInt64.le_iff_toNat_le, sized]

-- The loop: what it projects is the truth about the index without the victims, and it stops as soon as that fits.
theorem evict_exact (store : PlanStore) (keys : List Digest) (index : SortedMap Digest StoreEntry) (count : Nat) (bytes : UInt64)
    (distinct : keys.Nodup)
    (known : ∀ key ∈ keys, ∃ entry, index.find key = some entry ∧ entry.summary.recordBytes = recordBytesOf store key)
    (counted : count = index.entries.length) (sized : bytes.toNat = recordSizes index) :
    ∃ n ≤ keys.length, (evict store keys count bytes).1 = keys.take n ∧
      (evict store keys count bytes).2.1 = (index.eraseAll (keys.take n)).entries.length ∧
      (evict store keys count bytes).2.2.toNat = recordSizes (index.eraseAll (keys.take n)) ∧
      (∀ m < n, ¬ FitsBounds store.config (index.eraseAll (keys.take m))) ∧
      (FitsBounds store.config (index.eraseAll (keys.take n)) ∨ n = keys.length) := by
  induction keys generalizing index count bytes with
  | nil => exact ⟨0, le_refl _, rfl, counted, sized, fun m less => absurd less (Nat.not_lt_zero m), Or.inr rfl⟩
  | cons key rest ih =>
      rw [evict]
      by_cases inside : WithinBounds store count bytes
      · rw [if_pos inside]
        refine ⟨0, Nat.zero_le _, rfl, counted, sized, fun m less => absurd less (Nat.not_lt_zero m), Or.inl ?_⟩
        exact (within_iff store index count bytes counted sized).mp inside
      · rw [if_neg inside]
        obtain ⟨entry, found, size⟩ := known key List.mem_cons_self
        obtain ⟨fresh, others⟩ := List.nodup_cons.mp distinct
        have total := erase_sizes index key entry found
        have smaller : recordBytesOf store key ≤ bytes := by
          rw [UInt64.le_iff_toNat_le, sized, total, size]
          exact Nat.le_add_right _ _
        obtain ⟨n, bound, victims, left, remaining, tight, enough⟩ := ih (index.erase key) (count - 1) (bytes - recordBytesOf store key) others
          (fun other member => by
            obtain ⟨content, held, same⟩ := known other (List.mem_cons_of_mem _ member)
            have apart : other ≠ key := fun eq => fresh (eq ▸ member)
            exact ⟨content, (index.find_erase_other key other apart).trans held, same⟩)
          (by rw [counted, erase_count index key entry found, Nat.add_sub_cancel])
          (by rw [UInt64.toNat_sub_of_le _ _ smaller, sized, total, size, Nat.add_sub_cancel_left])
        refine ⟨n + 1, Nat.succ_le_succ bound, by rw [List.take_succ_cons, ← victims], left, remaining, fun m less => ?_, ?_⟩
        · cases m with
          | zero => exact fun fits => inside ((within_iff store index count bytes counted sized).mpr fits)
          | succ fewer => exact tight fewer (Nat.lt_of_succ_lt_succ less)
        · exact enough.imp id fun all => by rw [all, List.length_cons]

theorem fold_bytes (entries : List (Digest × StoreEntry)) (start : UInt64) :
    (entries.map fun entry => entry.2.summary.recordBytes).foldl (· + ·) start =
      start + UInt64.ofNat (entries.map fun entry => entry.2.summary.recordBytes.toNat).sum := by
  induction entries generalizing start with
  | nil => simp
  | cons entry rest ih =>
      rw [List.map_cons, List.foldl_cons, ih, List.map_cons, List.sum_cons, UInt64.ofNat_add, UInt64.ofNat_toNat, UInt64.add_assoc]

theorem insert_count (index : SortedMap Digest StoreEntry) (key : Digest) (entry : StoreEntry) :
    (index.insert key entry).entries.length = index.entries.length + if (index.find key).isSome then 0 else 1 := by
  rw [(index.insert_perm key entry).length_eq, List.length_cons]
  cases found : index.find key with
  | none => rw [index.erase_absent key found]; rfl
  | some old => rw [erase_count index key old found]; rfl

theorem insert_sizes (index : SortedMap Digest StoreEntry) (key : Digest) (entry : StoreEntry) :
    recordSizes (index.insert key entry) = entry.summary.recordBytes.toNat + recordSizes (index.erase key) := by
  rw [recordSizes, ((index.insert_perm key entry).map _).sum_eq, List.map_cons, List.sum_cons]
  rfl

theorem erase_sizes_le (index : SortedMap Digest StoreEntry) (key : Digest) : recordSizes (index.erase key) ≤ recordSizes index :=
  List.Sublist.sum_le_sum ((index.erase_sublist key).map fun entry => entry.2.summary.recordBytes.toNat) fun _ _ => Nat.zero_le _

theorem insert_count_le (index : SortedMap Digest StoreEntry) (key : Digest) (entry : StoreEntry) :
    (index.insert key entry).entries.length ≤ index.entries.length + 1 := by
  rw [insert_count]
  split_ifs
  · exact Nat.le_succ _
  · exact le_refl _

theorem insert_sizes_le (index : SortedMap Digest StoreEntry) (key : Digest) (entry : StoreEntry) :
    recordSizes (index.insert key entry) ≤ entry.summary.recordBytes.toNat + recordSizes index := by
  rw [insert_sizes]
  exact Nat.add_le_add_left (erase_sizes_le index key) _

-- The unsigned projection starts at the true total, also where the subtraction wraps.
theorem projected_start (store : PlanStore) (digest : Digest) (entry : StoreEntry) (recordLength : Nat)
    (size : entry.summary.recordBytes = UInt64.ofNat recordLength) (representable : recordSizes store.index + recordLength < 2 ^ 64) :
    ((store.index.entries.map fun entry => entry.2.summary.recordBytes).foldl (· + ·)
      (UInt64.ofNat recordLength - recordBytesOf store digest)).toNat = recordSizes (store.index.insert digest entry) := by
  rw [insert_sizes, size, fold_bytes, ← recordSizes]
  have small : (UInt64.ofNat recordLength).toNat = recordLength := by
    rw [UInt64.toNat_ofNat']
    exact Nat.mod_eq_of_lt (by omega)
  have whole : UInt64.ofNat recordLength - recordBytesOf store digest + UInt64.ofNat (recordSizes store.index) =
      UInt64.ofNat (recordLength + recordSizes (store.index.erase digest)) := by
    cases found : store.index.find digest with
    | none =>
        have zero : recordBytesOf store digest = 0 := by rw [recordBytesOf, found]; rfl
        rw [zero, UInt64.sub_zero, store.index.erase_absent digest found, UInt64.ofNat_add]
    | some old =>
        have replaced : recordBytesOf store digest = old.summary.recordBytes := by rw [recordBytesOf, found]; rfl
        rw [replaced, erase_sizes store.index digest old found, UInt64.ofNat_add, UInt64.ofNat_toNat, ← UInt64.add_assoc,
          UInt64.sub_add_cancel, UInt64.ofNat_add]
  have fewer := erase_sizes_le store.index digest
  rw [whole, small, UInt64.toNat_ofNat']
  exact Nat.mod_eq_of_lt (by omega)

-- The records a put may evict, oldest first.
def victims (store : PlanStore) (digest : Digest) : List Digest := oldestFirst (others store digest)

theorem victims_distinct (store : PlanStore) (digest : Digest) : (victims store digest).Nodup := by
  rw [victims, (oldest_first_perm _).nodup_iff]
  have keys : (store.index.entries.map Prod.fst).Nodup := by
    rw [List.Nodup, List.pairwise_map]
    exact store.index.sorted.imp fun less => ne_of_lt less
  exact keys.sublist (List.filter_sublist.map Prod.fst)

theorem victim_known (store : PlanStore) (digest key : Digest) (entry : StoreEntry) (victim : key ∈ victims store digest) :
    ∃ held, (store.index.insert digest entry).find key = some held ∧ held.summary.recordBytes = recordBytesOf store key := by
  obtain ⟨⟨other, held⟩, member, rfl⟩ := List.mem_map.mp ((oldest_first_perm _).mem_iff.mp victim)
  obtain ⟨listed, apart⟩ := (others_keys store digest other held).mp member
  have found := (store.index.find_some other held).mpr listed
  exact ⟨held, (store.index.find_insert_other digest other entry apart).trans found, by rw [recordBytesOf, found]; rfl⟩

-- The index once the new record is in and the first n victims are out.
def evicted (store : PlanStore) (digest : Digest) (entry : StoreEntry) (n : Nat) : SortedMap Digest StoreEntry :=
  (store.index.insert digest entry).eraseAll ((victims store digest).take n)

theorem project_exact (store : PlanStore) (digest : Digest) (entry : StoreEntry) (recordLength : Nat)
    (size : entry.summary.recordBytes = UInt64.ofNat recordLength) (representable : recordSizes store.index + recordLength < 2 ^ 64) :
    ∃ n ≤ (victims store digest).length, (projectPut store digest recordLength).1 = (victims store digest).take n ∧
      (projectPut store digest recordLength).2.1 = (evicted store digest entry n).entries.length ∧
      (projectPut store digest recordLength).2.2.toNat = recordSizes (evicted store digest entry n) ∧
      (∀ m < n, ¬ FitsBounds store.config (evicted store digest entry m)) ∧
      (FitsBounds store.config (evicted store digest entry n) ∨ n = (victims store digest).length) :=
  evict_exact store (victims store digest) (store.index.insert digest entry) _ _ (victims_distinct store digest)
    (fun key victim => victim_known store digest key entry victim) (insert_count store.index digest entry).symm
    (projected_start store digest entry recordLength size representable)

theorem committed_fits (env : Environment) (store : PlanStore) (plan : Plan) (request : PlanningRequest) (pending : PendingPut)
    (prepared : Prepared env store plan request pending)
    (representable : recordSizes store.index + pending.record.length < 2 ^ 64) :
    FitsBounds store.config (commit env store plan pending).index := by
  let entry := entryOf plan.id.value (summaryOf plan store.incarnation pending.sequence (env.micros 2) pending.record.length)
  obtain ⟨n, _, keys, count, bytes, _⟩ := project_exact store plan.id.value entry pending.record.length rfl representable
  have fits := (within_iff store (evicted store plan.id.value entry n) _ _ count bytes).mp prepared.room
  rwa [evicted, ← keys, ← prepared.evictions] at fits

def recordLength (plan : Plan) : Nat := 127 + plan.collective.value.length + ((Plan.encode plan).length + kRecordDigests)

theorem record_length (plan : Plan) (digest : Digest) (incarnation : Incarnation) (sequence unixMicros : UInt64) :
    (encodePlanRecord plan digest incarnation sequence unixMicros).length = recordLength plan :=
  encode_record_length plan digest incarnation sequence unixMicros

-- What put checks before it looks for room.
structure Acceptable (store : PlanStore) (plan : Plan) (request : PlanningRequest) : Prop where
  opened : store.isOpen = true
  digest : plan.inputDigest = request.canonicalDigest
  valid : validatePlan plan request = .ok ()
  size : recordLength plan ≤ store.config.maxRecordBytes

theorem prepare_acceptable (env : Environment) (store : PlanStore) (plan : Plan) (request : PlanningRequest)
    (acceptable : Acceptable store plan request) :
    preparePut env store plan request =
      if WithinBounds store (projectPut store plan.id.value (recordLength plan)).2.1 (projectPut store plan.id.value (recordLength plan)).2.2
      then .ok {
        record := encodePlanRecord plan request.canonicalDigest store.incarnation (store.sequence + 1) (env.micros 0)
        sequence := store.sequence + 1
        evictions := (projectPut store plan.id.value (recordLength plan)).1 }
      else .error (failure .storeCapacityExceeded "the store cannot make room for this record within its configured bounds") := by
  have long := encode_record_length plan request.canonicalDigest store.incarnation (store.sequence + 1) (env.micros 0)
  rw [← recordLength] at long
  unfold preparePut
  simp only [long, deny, acceptable.opened, acceptable.digest, acceptable.valid, not_lt.mpr acceptable.size, ne_eq,
    not_true_eq_false, if_false, Bool.true_eq_false]
  split_ifs with room <;> rfl

-- The entry a put commits.
def committedEntry (env : Environment) (store : PlanStore) (plan : Plan) : StoreEntry :=
  entryOf plan.id.value (summaryOf plan store.incarnation (store.sequence + 1) (env.micros 2) (recordLength plan))

theorem committed_bytes (env : Environment) (store : PlanStore) (plan : Plan) :
    (committedEntry env store plan).summary.recordBytes = UInt64.ofNat (recordLength plan) := rfl

-- With every victim gone, only the new record is left.
theorem evicted_all_alone (store : PlanStore) (digest : Digest) (entry : StoreEntry) :
    (evicted store digest entry (victims store digest).length).entries = [(digest, entry)] := by
  have victim (key : Digest) : key ∈ victims store digest ↔ key ∈ (others store digest).map Prod.fst := (oldest_first_perm _).mem_iff
  have members (found : Digest × StoreEntry) :
      found ∈ (evicted store digest entry (victims store digest).length).entries ↔ found ∈ [(digest, entry)] := by
    obtain ⟨key, held⟩ := found
    rw [evicted, List.take_length, SortedMap.mem_erase_all, SortedMap.mem_insert, List.mem_singleton, Prod.mk.injEq, victim]
    constructor
    · rintro ⟨spared, origin⟩
      rcases origin with here | ⟨apart, listed⟩
      · exact here
      · exact absurd (List.mem_map.mpr ⟨(key, held), (others_keys store digest key held).mpr ⟨listed, apart⟩, rfl⟩) spared
    · rintro ⟨rfl, rfl⟩
      refine ⟨fun listed => ?_, Or.inl ⟨rfl, rfl⟩⟩
      obtain ⟨⟨other, content⟩, member, same⟩ := List.mem_map.mp listed
      exact ((others_keys store key other content).mp member).2 same
  exact List.perm_singleton.mp ((List.perm_ext_iff_of_nodup (SortedMap.entries_nodup _) (List.nodup_singleton _)).mpr members)

-- A record that fits alone is let in.
theorem prepare_alone (env : Environment) (store : PlanStore) (plan : Plan) (request : PlanningRequest)
    (acceptable : Acceptable store plan request) (representable : recordSizes store.index + recordLength plan < 2 ^ 64)
    (records : 1 ≤ store.config.maxRecords) (bytes : recordLength plan ≤ store.config.maxTotalBytes.toNat) :
    ∃ pending, preparePut env store plan request = .ok pending := by
  obtain ⟨n, _, _, count, total, _, enough⟩ :=
    project_exact store plan.id.value (committedEntry env store plan) (recordLength plan) rfl representable
  have alone : FitsBounds store.config (evicted store plan.id.value (committedEntry env store plan) (victims store plan.id.value).length) := by
    rw [FitsBounds, recordSizes, evicted_all_alone]
    refine ⟨records, ?_⟩
    change (UInt64.ofNat (recordLength plan)).toNat + 0 ≤ _
    rw [UInt64.toNat_ofNat', Nat.add_zero]
    exact (Nat.mod_le _ _).trans bytes
  have fits : FitsBounds store.config (evicted store plan.id.value (committedEntry env store plan) n) := by
    rcases enough with here | all
    · exact here
    · rw [all]
      exact alone
  have room := (within_iff store (evicted store plan.id.value (committedEntry env store plan) n) _ _ count total).mpr fits
  rw [prepare_acceptable env store plan request acceptable, if_pos room]
  exact ⟨_, rfl⟩

-- A record that fits beside the others evicts none of them.
theorem prepare_roomy (env : Environment) (store : PlanStore) (plan : Plan) (request : PlanningRequest)
    (acceptable : Acceptable store plan request) (representable : recordSizes store.index + recordLength plan < 2 ^ 64)
    (fits : FitsBounds store.config (store.index.insert plan.id.value (committedEntry env store plan))) :
    preparePut env store plan request = .ok {
      record := encodePlanRecord plan request.canonicalDigest store.incarnation (store.sequence + 1) (env.micros 0)
      sequence := store.sequence + 1
      evictions := [] } := by
  obtain ⟨n, _, keys, count, bytes, tight, _⟩ :=
    project_exact store plan.id.value (committedEntry env store plan) (recordLength plan) rfl representable
  have none : n = 0 := by
    by_contra some
    exact tight 0 (Nat.pos_of_ne_zero some) fits
  subst none
  rw [List.take_zero] at keys
  rw [prepare_acceptable env store plan request acceptable,
    if_pos ((within_iff store (evicted store plan.id.value (committedEntry env store plan) 0) _ _ count bytes).mpr fits), keys]

end PathPlanner.PlanStore

import PathPlanner.Store.Fences
import PathPlanner.Store.RecordAudit
import PathPlanner.Store.Eviction

set_option autoImplicit false

namespace PathPlanner.PlanStore

open Checks Codec PlanCollective StoreFiles StoreRecord ValidatePlan

-- No readable record carries a number above the sequence.
def Below (dir : Directory) (sequence : UInt64) : Prop :=
  ∀ name bytes plan summary, isRecordFile name = true → dir name = some bytes → decodePlanRecord bytes = .ok (plan, summary) →
    summary.storedSequence.toNat ≤ sequence.toNat

def NumberedAt (dir : Directory) (sequence : UInt64) : Prop :=
  (∃ epoch incarnation, dir metaFileName = some (encodeMeta epoch incarnation sequence)) ∧ Below dir sequence

-- The metadata bounds the numbers in use, or no record has a number yet.
structure Numbered (world : StoreWorld) : Prop where
  named : EachEntry NamesRecord world.store.index
  numbered : (∃ sequence, NumberedAt world.dir sequence ∧ (world.store.isOpen = true → world.store.sequence = sequence)) ∨
    (world.store.isOpen = false ∧ Below world.dir 0)

-- A put is not cut off between its record and its metadata, and an opening sees the metadata that is there.
def KeepsSequence (env : Environment) (world : StoreWorld) (steps : Nat) : StoreCall → Prop
  | .openStore => env.existsFault = false
  | .put plan request => (preparePut env world.store plan request).isOk = true → world.store.sequence.toNat + 1 < 2 ^ 64 ∧
      (steps ≤ 1 ∨ WriteFails env (recordFileName plan.id.value) ∨
        ((put env world.store plan request).effects.length ≤ steps ∧ ¬ WriteFails env metaFileName))
  | _ => True

def SequenceMove (world : StoreWorld) : StoreMove → Prop
  | .finished env call => KeepsSequence env world (call.perform env world).2.length call
  | .crashed env call steps _ => KeepsSequence env world steps call

theorem below_more (dir : Directory) (sequence more : UInt64) (above : sequence.toNat ≤ more.toNat) (below : Below dir sequence) :
    Below dir more := fun name bytes plan summary record held decoded => (below name bytes plan summary record held decoded).trans above

-- A call that is no put only removes records.
theorem below_cut (env : Environment) (world : StoreWorld) (call : StoreCall) (steps : Nat) (sequence : UInt64)
    (other : ∀ plan request, call ≠ .put plan request) (below : Below world.dir sequence) :
    Below (performAll ((call.perform env world).2.take steps) world.dir) sequence := by
  intro name bytes plan summary record held decoded
  rcases call_record env world call name record world.dir steps with same | gone
  · exact below name bytes plan summary record (same.symm.trans held) decoded
  · rw [held] at gone
    cases call with
    | put stored request => exact absurd rfl (other stored request)
    | openStore => cases gone
    | close => cases gone
    | erase id => cases gone
    | verifyAll => cases gone
    | enforceBounds => cases gone

theorem numbered_cut (env : Environment) (world : StoreWorld) (call : StoreCall) (steps : Nat) (sequence : UInt64)
    (other : ∀ plan request, call ≠ .put plan request) (keeps : KeepsSequence env world steps call)
    (named : EachEntry NamesRecord world.store.index) (placed : NumberedAt world.dir sequence)
    (own : world.store.isOpen = true → world.store.sequence = sequence) :
    NumberedAt (performAll ((call.perform env world).2.take steps) world.dir) sequence := by
  obtain ⟨⟨epoch, incarnation, metadata⟩, below⟩ := placed
  refine ⟨?_, below_cut env world call steps sequence other below⟩
  rcases call_meta env world call named world.dir steps with same | written
  · exact ⟨epoch, incarnation, same.trans metadata⟩
  · cases call with
    | openStore =>
        obtain ⟨_, fenced, fences, written⟩ := written
        rw [fenced_advanced env world.dir world.store fenced keeps epoch incarnation sequence metadata fences] at written
        exact ⟨_, _, written⟩
    | put plan request => exact absurd rfl (other plan request)
    | close => exact ⟨_, _, own written.1 ▸ written.2⟩
    | erase id => exact ⟨_, _, own written.1 ▸ written.2⟩
    | verifyAll => exact ⟨_, _, own written.1 ▸ written.2⟩
    | enforceBounds => exact ⟨_, _, own written.1 ▸ written.2⟩

theorem numbered_quiet (env : Environment) (world : StoreWorld) (call : StoreCall) (other : ∀ plan request, call ≠ .put plan request)
    (numbered : Numbered world) (keeps : KeepsSequence env world (call.perform env world).2.length call) :
    Numbered (world.after env call) := by
  have named := named_moved world (.finished env call) numbered.named
  refine ⟨named, ?_⟩
  rcases numbered.numbered with ⟨sequence, placed, own⟩ | ⟨closed, below⟩
  · have cut := numbered_cut env world call _ sequence other keeps numbered.named placed own
    rw [List.take_length] at cut
    refine Or.inl ⟨sequence, cut, fun opened => ?_⟩
    by_cases opening : call = .openStore
    · subst opening
      cases before : world.store.isOpen with
      | true =>
          rw [open_refused env world before]
          exact own before
      | false =>
          obtain ⟨fenced, fences, same, _⟩ := opened_fences env world (open_fresh env world before opened)
          obtain ⟨⟨epoch, incarnation, metadata⟩, _⟩ := placed
          rw [same.sequence, fenced_advanced env world.dir world.store fenced keeps epoch incarnation sequence metadata fences]
          rfl
    · have kept := call_fences env world call
      exact (kept.sequence opening other).trans (own (kept.opened opening opened))
  · have cut := below_cut env world call (call.perform env world).2.length 0 other below
    rw [List.take_length] at cut
    cases after : (world.after env call).store.isOpen with
    | false => exact Or.inr ⟨rfl, cut⟩
    | true =>
        by_cases opening : call = .openStore
        · subst opening
          obtain ⟨fenced, fences, same, metadata⟩ := opened_fences env world (open_fresh env world closed after)
          exact Or.inl ⟨fenced.sequence, ⟨⟨_, _, metadata⟩, below_more _ 0 _ (Nat.zero_le _) cut⟩, fun _ => same.sequence⟩
        · have before := (call_fences env world call).opened opening after
          rw [closed] at before
          cases before

-- Before its record is moved into place, a put has touched nothing but its staging file.
theorem put_staged (env : Environment) (store : PlanStore) (plan : Plan) (request : PlanningRequest) (name : FileName)
    (kept : isStagingFile name = false) : Untouched name ((put env store plan request).effects.take 1) := by
  have staged (token micros : UInt64) : stagingFileName token micros ≠ name := by
    rintro rfl
    rw [staging_is_staging] at kept
    cases kept
  have performed := put_case env store plan request
  generalize put env store plan request = done at performed ⊢
  cases performed with
  | refused status checked => exact untouched_nil name
  | unwritten status pending written checked write =>
      rcases write_error _ _ _ _ _ _ _ write with rfl | rfl
      · exact untouched_nil name
      · intro effect member
        rw [List.mem_singleton.mp member]
        exact staged _ _
  | unpersisted status pending written persisted checked write persist =>
      obtain ⟨rfl, _⟩ := write_ok _ _ _ _ _ _ write
      intro effect member
      rw [List.mem_singleton.mp member]
      exact staged _ _
  | committed pending written persisted checked write persist =>
      obtain ⟨rfl, _⟩ := write_ok _ _ _ _ _ _ write
      intro effect member
      rw [List.mem_singleton.mp member]
      exact staged _ _

-- A put either stops before its record is in place or gets as far as its metadata.
inductive PutSettles (env : Environment) (world : StoreWorld) (plan : Plan) (request : PlanningRequest) (steps : Nat) : Prop where
  | dropped
      (files : ∀ name, isStagingFile name = false →
        performAll ((put env world.store plan request).effects.take steps) world.dir name = world.dir name)
      (store : (put env world.store plan request).effects.length ≤ steps → (put env world.store plan request).store = world.store)
  | numbered (pending : PendingPut) (checked : preparePut env world.store plan request = .ok pending)
      (whole : (put env world.store plan request).effects.length ≤ steps)
      (store : (put env world.store plan request).store = commit env world.store plan pending)
      (metadata : performAll (put env world.store plan request).effects world.dir metaFileName =
        some (encodeMeta world.store.epoch world.store.incarnation pending.sequence))

theorem put_settles (env : Environment) (world : StoreWorld) (plan : Plan) (request : PlanningRequest) (steps : Nat)
    (keeps : KeepsSequence env world steps (.put plan request)) : PutSettles env world plan request steps := by
  have staged := put_staged env world.store plan request
  have performed := put_case env world.store plan request
  have settled := @PutSettles.dropped env world plan request steps
  have settles := @PutSettles.numbered env world plan request steps
  simp only [KeepsSequence] at keeps
  generalize put env world.store plan request = done at performed staged keeps settled settles
  have early (short : steps ≤ 1) (name : FileName) (kept : isStagingFile name = false) :
      performAll (done.effects.take steps) world.dir name = world.dir name :=
    perform_spared _ _ _ fun effect member => staged name kept effect ((List.take_subset_take_left _ short) member)
  have failed (pending : PendingPut) (effects : List Effect) (write : writeRecord env world.store plan pending = (.ok (), effects)) :
      ¬ WriteFails env (recordFileName plan.id.value) := by
    intro fails
    obtain ⟨status, others, refused⟩ := (write_fails_iff env _ _ _ _).mp fails
    exact absurd (refused.symm.trans write) (by simp)
  cases performed with
  | refused status checked => exact settled (fun name _ => by rw [List.take_nil]; rfl) fun _ => rfl
  | unwritten status pending written checked write =>
      refine settled (fun name kept => perform_spared _ _ _ fun effect member => ?_) fun _ => rfl
      exact failed_write_untouched env _ _ _ _ name _ status written kept write effect (List.mem_of_mem_take member)
  | unpersisted status pending written persisted checked write persist =>
      obtain ⟨_, short | unwritten | ⟨_, persists⟩⟩ := keeps (by rw [checked]; rfl)
      · refine settled (early short) fun whole => ?_
        obtain ⟨rfl, _⟩ := write_ok _ _ _ _ _ _ write
        simp only [List.cons_append, List.length_cons] at whole
        omega
      · exact absurd unwritten (failed pending written write)
      · exact absurd ((write_fails_iff env _ _ _ _).mpr ⟨_, _, persist⟩) persists
  | committed pending written persisted checked write persist =>
      obtain ⟨_, short | unwritten | ⟨whole, _⟩⟩ := keeps (by rw [checked]; rfl)
      · refine settled (early short) fun whole => ?_
        obtain ⟨rfl, _⟩ := write_ok _ _ _ _ _ _ write
        simp only [List.cons_append, List.length_cons] at whole
        omega
      · exact absurd unwritten (failed pending written write)
      · refine settles pending checked whole rfl ?_
        rw [← List.append_assoc]
        exact persisted_meta env (commit env world.store plan pending) 1 3 _ persisted world.dir persist

theorem pending_above (env : Environment) (store : PlanStore) (plan : Plan) (request : PlanningRequest) (pending : PendingPut)
    (checked : preparePut env store plan request = .ok pending) (room : store.sequence.toNat + 1 < 2 ^ 64) :
    store.sequence.toNat < pending.sequence.toNat := by
  rw [(prepare_put_ok env store plan request pending checked).sequence]
  exact successor_above store.sequence room

theorem below_put (env : Environment) (world : StoreWorld) (plan : Plan) (request : PlanningRequest) (pending : PendingPut)
    (checked : preparePut env world.store plan request = .ok pending) (room : world.store.sequence.toNat + 1 < 2 ^ 64)
    (below : Below world.dir world.store.sequence) :
    Below (performAll (put env world.store plan request).effects world.dir) pending.sequence := by
  intro name bytes found summary record held decoded
  have above := pending_above env world.store plan request pending checked room
  have left := put_record env world plan request name record world.dir (put env world.store plan request).effects.length
  rw [List.take_length] at left
  rcases left with same | gone | ⟨written, prepared, _, stored⟩
  · exact (below name bytes found summary record (same.symm.trans held) decoded).trans (le_of_lt above)
  · rw [held] at gone
    cases gone
  · rw [checked] at prepared
    cases prepared
    rw [held, Option.some.injEq] at stored
    rw [stored, (prepare_put_ok env world.store plan request pending checked).record] at decoded
    rw [encoded_record_summary found plan _ _ _ _ summary decoded]
    rfl

theorem same_files (dir after : Directory) (sequence : UInt64) (same : ∀ name, isStagingFile name = false → after name = dir name)
    (below : Below dir sequence) : Below after sequence := by
  intro name bytes plan summary record held decoded
  rw [same name (record_not_staging name record)] at held
  exact below name bytes plan summary record held decoded

-- The files of a numbered world, wherever a put stops.
theorem numbered_put (env : Environment) (world : StoreWorld) (plan : Plan) (request : PlanningRequest) (steps : Nat)
    (numbered : Numbered world) (keeps : KeepsSequence env world steps (.put plan request)) :
    (∃ sequence, NumberedAt (performAll ((put env world.store plan request).effects.take steps) world.dir) sequence ∧
      ((put env world.store plan request).effects.length ≤ steps → world.store.isOpen = true →
        (put env world.store plan request).store.sequence = sequence)) ∨
      (world.store.isOpen = false ∧ Below (performAll ((put env world.store plan request).effects.take steps) world.dir) 0) := by
  cases put_settles env world plan request steps keeps with
  | dropped files store =>
      rcases numbered.numbered with ⟨sequence, ⟨⟨epoch, incarnation, metadata⟩, below⟩, own⟩ | ⟨closed, below⟩
      · refine Or.inl ⟨sequence, ⟨⟨epoch, incarnation, (files _ meta_not_staging).trans metadata⟩, same_files _ _ _ files below⟩, ?_⟩
        intro whole opened
        rw [store whole]
        exact own opened
      · exact Or.inr ⟨closed, same_files _ _ _ files below⟩
  | numbered pending checked whole store metadata =>
      have prepared := prepare_put_ok env world.store plan request pending checked
      obtain ⟨room, _⟩ := keeps (by rw [checked]; rfl)
      rcases numbered.numbered with ⟨sequence, ⟨_, below⟩, own⟩ | ⟨closed, _⟩
      · rw [← own prepared.opened] at below
        rw [List.take_of_length_le whole]
        refine Or.inl ⟨pending.sequence, ⟨⟨_, _, metadata⟩, below_put env world plan request pending checked room below⟩, fun _ _ => ?_⟩
        rw [store]
        rfl
      · rw [prepared.opened] at closed
        cases closed

theorem numbered_moved (world : StoreWorld) (move : StoreMove) (numbered : Numbered world) (keeps : SequenceMove world move) :
    Numbered (world.moved move) := by
  have named := named_moved world move numbered.named
  cases move with
  | finished env call =>
      cases call with
      | put plan request =>
          refine ⟨named, ?_⟩
          have opened := (call_fences env world (.put plan request)).opened (by simp)
          have files := numbered_put env world plan request _ numbered keeps
          change (∃ sequence, NumberedAt (performAll (put env world.store plan request).effects world.dir) sequence ∧ _) ∨ _
          rw [StoreCall.perform, List.take_length] at files
          rcases files with ⟨sequence, placed, own⟩ | ⟨closed, below⟩
          · exact Or.inl ⟨sequence, placed, fun after => own (le_refl _) (opened after)⟩
          · refine Or.inr ⟨?_, below⟩
            cases after : (world.moved (.finished env (.put plan request))).store.isOpen with
            | false => rfl
            | true => exact absurd (opened after) (by simp [closed])
      | openStore => exact numbered_quiet env world _ (by simp) numbered keeps
      | close => exact numbered_quiet env world _ (by simp) numbered keeps
      | erase id => exact numbered_quiet env world _ (by simp) numbered keeps
      | verifyAll => exact numbered_quiet env world _ (by simp) numbered keeps
      | enforceBounds => exact numbered_quiet env world _ (by simp) numbered keeps
  | crashed env call steps config =>
      have cut (other : ∀ plan request, call ≠ .put plan request) : Numbered (world.moved (.crashed env call steps config)) := by
        refine ⟨named, ?_⟩
        rcases numbered.numbered with ⟨sequence, placed, own⟩ | ⟨_, below⟩
        · exact Or.inl ⟨sequence, numbered_cut env world call steps sequence other keeps numbered.named placed own, fun opened => by cases opened⟩
        · exact Or.inr ⟨rfl, below_cut env world call steps 0 other below⟩
      cases call with
      | put plan request =>
          refine ⟨named, ?_⟩
          rcases numbered_put env world plan request steps numbered keeps with ⟨sequence, placed, _⟩ | ⟨_, below⟩
          · exact Or.inl ⟨sequence, placed, fun opened => by cases opened⟩
          · exact Or.inr ⟨rfl, below⟩
      | openStore => exact cut (by simp)
      | close => exact cut (by simp)
      | erase id => exact cut (by simp)
      | verifyAll => exact cut (by simp)
      | enforceBounds => exact cut (by simp)

-- The number a put is about to commit its record under exceeds that of every record that is there to be read.
def Outnumbers (env : Environment) (world : StoreWorld) (plan : Plan) (request : PlanningRequest) : Prop :=
  ∀ pending, preparePut env world.store plan request = .ok pending →
    ∀ name bytes earlier summary, isRecordFile name = true → world.dir name = some bytes →
      decodePlanRecord bytes = .ok (earlier, summary) → summary.storedSequence < pending.sequence

theorem sequences_never_reused (config : StoreConfig) (dir : Directory) (fresh : ∀ name, isRecordFile name = true → dir name = none)
    (world : StoreWorld) (run : Runs SequenceMove ⟨dir, { config }⟩ world) (env : Environment) (plan : Plan)
    (request : PlanningRequest) (room : world.store.sequence.toNat + 1 < 2 ^ 64) : Outnumbers env world plan request := by
  have start : Numbered ⟨dir, { config }⟩ := by
    refine ⟨each_empty NamesRecord, Or.inr ⟨rfl, fun name bytes plan summary record held decoded => ?_⟩⟩
    exact absurd (held.symm.trans (fresh name record)) (by simp)
  have numbered := runs_invariant _ Numbered numbered_moved _ world start run
  intro pending checked name bytes earlier summary record held decoded
  have opened := (prepare_put_ok env world.store plan request pending checked).opened
  rw [UInt64.lt_iff_toNat_lt]
  rcases numbered.numbered with ⟨sequence, ⟨_, below⟩, own⟩ | ⟨closed, _⟩
  · rw [← own opened] at below
    exact lt_of_le_of_lt (below name bytes earlier summary record held decoded)
      (pending_above env world.store plan request pending checked room)
  · rw [opened] at closed
    cases closed

-- A store on an empty directory, opened; and the directory after a put was cut off behind its record.
def sampleConfig (records : Nat) : StoreConfig := { root := text "plans", maxRecords := records, maxRecordBytes := 2 * kMaxPlanRecordBytes }

def sampleWorld (records : Nat) : StoreWorld :=
  (⟨fun _ => none, { config := sampleConfig records }⟩ : StoreWorld).after (quietEnvironment [] 0) .openStore

theorem sample_store (records : Nat) : (sampleWorld records).store =
    { config := sampleConfig records, isOpen := true, epoch := ⟨1⟩, incarnation := ⟨1⟩, sequence := 0 } := rfl

def samplePut : StoreCall := .put twoLeavesPlan twoLeaves.request

def sampleRecord : Bytes := encodePlanRecord twoLeavesPlan twoLeaves.request.canonicalDigest ⟨1⟩ 1 0

def sampleName : FileName := recordFileName twoLeavesPlan.id.value

theorem two_leaves_valid : validatePlan twoLeavesPlan twoLeaves.request = .ok () := planned_valid twoLeaves two_leaves_plan

theorem two_leaves_digest : twoLeavesPlan.inputDigest = twoLeaves.request.canonicalDigest :=
  (validate_plan_ok.mp two_leaves_valid).identity.digest

theorem two_leaves_storable : Storable twoLeavesPlan := by
  have room := two_leaves_record.2
  exact ⟨planned_decodable twoLeaves {} twoLeavesPlan two_leaves_plan two_leaves_record.1 (by omega), by omega⟩

theorem storable_bounded (plan : Plan) (storable : Storable plan)
    (room : (Plan.encode plan).length + kRecordDigests + 191 ≤ kMaxPlanRecordBytes) : recordLength plan ≤ kMaxPlanRecordBytes := by
  have short : plan.collective.value.length ≤ 64 := storable.decodable.fits.collective
  unfold recordLength
  omega

theorem two_leaves_bounded : recordLength twoLeavesPlan ≤ kMaxPlanRecordBytes :=
  storable_bounded twoLeavesPlan two_leaves_storable two_leaves_record.2

theorem two_leaves_length : recordLength twoLeavesPlan ≤ 2 * kMaxPlanRecordBytes := by
  have bounded := two_leaves_bounded
  omega

theorem sample_length : sampleRecord.length ≤ 2 * kMaxPlanRecordBytes := by
  rw [sampleRecord, record_length]
  exact two_leaves_length

theorem sample_decodes : decodePlanRecord sampleRecord = .ok (twoLeavesPlan, summaryOf twoLeavesPlan ⟨1⟩ 1 0 sampleRecord.length) :=
  decode_encode_record twoLeavesPlan _ ⟨1⟩ 1 0 two_leaves_storable two_leaves_digest

theorem sample_prepared (env : Environment) (records : Nat) (some : 0 < records) (clock : env.micros 0 = 0) :
    preparePut env (sampleWorld records).store twoLeavesPlan twoLeaves.request =
      .ok { record := sampleRecord, sequence := 1, evictions := [] } := by
  have small := two_leaves_length
  have bytes : (UInt64.ofNat (recordLength twoLeavesPlan)).toNat = recordLength twoLeavesPlan := by
    rw [UInt64.toNat_ofNat']
    exact Nat.mod_eq_of_lt (by simp only [kMaxPlanRecordBytes] at small; omega)
  have prepared := prepare_roomy env (sampleWorld records).store twoLeavesPlan twoLeaves.request
    ⟨rfl, two_leaves_digest, two_leaves_valid, small⟩ ?_ ⟨?_, ?_⟩
  · rw [prepared, clock, sampleRecord, sample_store]
    rfl
  · change 0 + recordLength twoLeavesPlan < 2 ^ 64
    simp only [kMaxPlanRecordBytes] at small
    omega
  · rw [insert_count]
    exact some
  · rw [insert_sizes]
    change (UInt64.ofNat (recordLength twoLeavesPlan)).toNat + 0 ≤ 536870912
    rw [bytes]
    simp only [kMaxPlanRecordBytes] at small
    omega

-- Wherever that put stops, it leaves no other record.
theorem sample_only (records : Nat) (env : Environment) (steps : Nat) (name : FileName) (record : isRecordFile name = true)
    (present : (performAll ((samplePut.perform env (sampleWorld records)).2.take steps) (sampleWorld records).dir name).isSome = true) :
    name = sampleName := by
  have nothing : (sampleWorld records).dir name = none :=
    perform_spared _ (fun _ => none) name (opening_untouched (quietEnvironment [] 0) (sampleWorld records).store name record)
  rcases call_record env (sampleWorld records) samplePut name record (sampleWorld records).dir steps with same | gone | ⟨_, _, named, _⟩
  · rw [same, nothing] at present
    cases present
  · rw [gone] at present
    cases present
  · exact named

def landedWorld (records : Nat) : StoreWorld :=
  (sampleWorld records).moved (.crashed (quietEnvironment [] 0) samplePut 2 (sampleConfig records))

-- A put cut off after its rename.
theorem crashed_renames (env : Environment) (steady : env.Steady) (world : StoreWorld) (plan : Plan) (request : PlanningRequest)
    (config : StoreConfig) (pending : PendingPut) (checked : preparePut env world.store plan request = .ok pending) :
    (world.moved (.crashed env (.put plan request) 2 config)).dir =
      performAll [.stage (stagingFileName (env.token 0) (env.micros 1)) pending.record,
        .rename (stagingFileName (env.token 0) (env.micros 1)) (recordFileName plan.id.value)] world.dir := by
  rw [crashed_dir, StoreCall.perform, put_renames env steady world.store plan request pending checked]

theorem landed_dir (records : Nat) (some : 0 < records) : (landedWorld records).dir =
    performAll [.stage (stagingFileName 0 0) sampleRecord, .rename (stagingFileName 0 0) sampleName] (sampleWorld records).dir :=
  crashed_renames (quietEnvironment [] 0) (quiet_calm [] 0).toSteady (sampleWorld records) _ _ (sampleConfig records) _
    (sample_prepared _ records some rfl)

theorem landed_file (records : Nat) (some : 0 < records) : (landedWorld records).dir sampleName = Option.some sampleRecord := by
  rw [landed_dir records some]
  exact replaced_file (sampleWorld records).dir (stagingFileName 0 0) sampleName sampleRecord

theorem landed_meta (records : Nat) (some : 0 < records) :
    (landedWorld records).dir metaFileName = Option.some (encodeMeta ⟨1⟩ ⟨1⟩ 0) := by
  have kept := renamed_files (quietEnvironment [] 0) (sampleWorld records).dir twoLeavesPlan sampleRecord metaFileName meta_not_staging
    (record_not_meta _ (record_file_name_record _))
  rw [landed_dir records some]
  refine Eq.trans kept ?_
  exact persisted_steady (quietEnvironment [] 0) (quiet_calm [] 0).toSteady { (sampleWorld records).store with isOpen := false } 0 0 []
    fun _ => none

def reopenedWorld (records : Nat) : StoreWorld := (landedWorld records).after (quietEnvironment [sampleName] 0) .openStore

def sampleSummary : StoredPlanSummary := summaryOf twoLeavesPlan ⟨1⟩ 1 0 sampleRecord.length

theorem summary_digest (plan : Plan) (incarnation : Incarnation) (sequence unixMicros : UInt64) (bytes : Nat) :
    (summaryOf plan incarnation sequence unixMicros bytes).id.value = plan.id.value := rfl

theorem sample_named : sampleSummary.id.value = twoLeavesPlan.id.value := summary_digest twoLeavesPlan ⟨1⟩ 1 0 sampleRecord.length

theorem reopened (records : Nat) (some : 0 < records) :
    Opened (quietEnvironment [sampleName] 0) (landedWorld records) ⟨1⟩ ⟨1⟩ 0 :=
  steady_opened _ (quiet_calm [sampleName] 0).toSteady _ rfl rfl ⟨1⟩ ⟨1⟩ 0 (landed_meta records some)

theorem reopened_file (records : Nat) (some : 0 < records) : (reopenedWorld records).dir sampleName = Option.some sampleRecord := by
  have kept := (reopened records some).records sampleName (record_file_name_record _)
  rw [reopenedWorld, kept]
  exact landed_file records some

theorem reopened_store (records : Nat) (some : 0 < records) : (reopenedWorld records).store =
    { config := sampleConfig records, isOpen := true, epoch := ⟨2⟩, incarnation := ⟨2⟩, sequence := 0,
      index := SortedMap.empty.insert twoLeavesPlan.id.value (entryOf twoLeavesPlan.id.value sampleSummary) } := by
  have small : sampleRecord.length ≤ (sampleConfig records).maxRecordBytes := sample_length
  have found : recordOf (reopenedWorld records).dir (sampleConfig records) sampleName = Option.some sampleSummary :=
    (record_of_some _ _ _ _).mpr ⟨sampleRecord, twoLeavesPlan, reopened_file records some, small, sample_decodes⟩
  have store := (reopened records some).store
  rw [← reopenedWorld] at store
  rw [store]
  have index := rebuilt_single (quietEnvironment [sampleName] 0) (quiet_calm [sampleName] 0).toSteady (reopenedWorld records).dir
    (sampleConfig records) 1 twoLeavesPlan.id.value sampleSummary rfl found sample_named
  change rebuiltIndex _ _ (landedWorld records).store.config 1 = _ at index
  rw [index]
  rfl

-- The runs the promise is about: openings, puts, and puts that are cut off, with every file system call succeeding.
def PutsAndOpenings (world : StoreWorld) : StoreMove → Prop
  | .finished env .openStore => env.Calm ∧ env.Lists world.dir
  | .finished env (.put _ _) => env.Calm
  | .crashed env (.put _ _) _ config => env.Calm ∧ config = world.store.config
  | _ => False

theorem landed_only (records : Nat) : (quietEnvironment [sampleName] 0).Lists (landedWorld records).dir := by
  intro enumeration name record present
  rw [landedWorld, crashed_dir] at present
  rw [sample_only records _ 2 name record present]
  exact List.mem_cons_self

theorem reopened_reached (records : Nat) :
    Runs PutsAndOpenings ⟨fun _ => none, { config := sampleConfig records }⟩ (reopenedWorld records) := by
  have nothing : (quietEnvironment [] 0).Lists fun _ => none := by
    intro enumeration name record present
    cases present
  have opened : Runs PutsAndOpenings ⟨fun _ => none, { config := sampleConfig records }⟩ (sampleWorld records) :=
    .step _ (.finished (quietEnvironment [] 0) .openStore) .refl ⟨quiet_calm [] 0, nothing⟩
  have landed : Runs PutsAndOpenings ⟨fun _ => none, { config := sampleConfig records }⟩ (landedWorld records) :=
    .step _ (.crashed (quietEnvironment [] 0) samplePut 2 (sampleConfig records)) opened ⟨quiet_calm [] 0, rfl⟩
  exact .step _ (.finished (quietEnvironment [sampleName] 0) .openStore) landed ⟨quiet_calm [sampleName] 0, landed_only records⟩

theorem summary_bytes (plan : Plan) (incarnation : Incarnation) (sequence unixMicros : UInt64) (bytes : Nat) :
    (summaryOf plan incarnation sequence unixMicros bytes).recordBytes.toNat ≤ bytes := by
  rw [summaryOf, UInt64.toNat_ofNat']
  exact Nat.mod_le _ _

theorem sample_bytes : sampleSummary.recordBytes.toNat ≤ 2 * kMaxPlanRecordBytes :=
  (summary_bytes twoLeavesPlan ⟨1⟩ 1 0 sampleRecord.length).trans sample_length

theorem single_sizes (digest : Digest) (summary : StoredPlanSummary) :
    recordSizes (SortedMap.empty.insert digest (entryOf digest summary)) = summary.recordBytes.toNat := insert_sizes _ _ _

theorem forged_record_length : recordLength forgedPlan = 516 := by
  rw [recordLength, forged_length]
  rfl

-- A second plan fits beside the first one.
theorem forged_prepared (records : Nat) (room : 2 ≤ records) :
    preparePut (quietEnvironment [sampleName] 0) (reopenedWorld records).store forgedPlan barred.request = .ok {
      record := encodePlanRecord forgedPlan barred.request.canonicalDigest ⟨2⟩ 1 0
      sequence := 1
      evictions := [] } := by
  have bytes := sample_bytes
  rw [reopened_store records (by omega)]
  simp only [kMaxPlanRecordBytes] at bytes
  refine prepare_roomy _ _ _ _ ⟨rfl, forged_digest, forged_accepted, ?_⟩ ?_ ⟨?_, ?_⟩
  · rw [forged_record_length]
    change 516 ≤ 2 * kMaxPlanRecordBytes
    decide
  · rw [single_sizes, forged_record_length]
    omega
  · refine (insert_count_le _ _ _).trans ?_
    change 1 + 1 ≤ records
    exact room
  · refine (insert_sizes_le _ _ _).trans ?_
    rw [single_sizes, committed_bytes, forged_record_length]
    have limit : (sampleConfig records).maxTotalBytes.toNat = 536870912 := rfl
    have small : (UInt64.ofNat 516).toNat = 516 := rfl
    rw [small]
    refine le_trans ?_ (le_of_eq limit.symm)
    omega

-- The same put run to its end.
def storedWorld (records : Nat) : StoreWorld := (sampleWorld records).after (quietEnvironment [] 0) samplePut

theorem stored_sequence (records : Nat) (some : 0 < records) : (storedWorld records).store.sequence = 1 := by
  have stored := steady_put (quietEnvironment [] 0) (quiet_calm [] 0).toSteady (sampleWorld records) paths_empty _ _ _
    (sample_prepared _ records some rfl)
  rw [storedWorld, samplePut, stored.1]
  rfl

theorem whole_put (env : Environment) (world : StoreWorld) (plan : Plan) (request : PlanningRequest)
    (room : world.store.sequence.toNat + 1 < 2 ^ 64) (persists : ¬ WriteFails env metaFileName) :
    SequenceMove world (.finished env (.put plan request)) := fun _ => ⟨room, Or.inr (Or.inr ⟨le_refl _, persists⟩)⟩

theorem stored_reached (records : Nat) :
    Runs SequenceMove ⟨fun _ => none, { config := sampleConfig records }⟩ (storedWorld records) := by
  have opened : Runs SequenceMove ⟨fun _ => none, { config := sampleConfig records }⟩ (sampleWorld records) :=
    .step _ (.finished (quietEnvironment [] 0) .openStore) .refl rfl
  have calm : ¬ WriteFails (quietEnvironment [] 0) metaFileName := by
    intro fails
    exact fails.elim (fun some => some rfl) fun some => some rfl
  refine .step _ (.finished (quietEnvironment [] 0) samplePut) opened (whole_put _ _ _ _ ?_ calm)
  rw [sample_store]
  change 0 + 1 < 2 ^ 64
  decide

theorem stored_outnumbers : Outnumbers (quietEnvironment [sampleName] 0) (storedWorld 2) forgedPlan barred.request :=
  sequences_never_reused (sampleConfig 2) (fun _ => none) (fun _ _ => rfl) (storedWorld 2) (stored_reached 2)
    (quietEnvironment [sampleName] 0) forgedPlan barred.request (by rw [stored_sequence 2 (by decide)]; decide)

-- Recovery takes the number from the metadata alone, so a record that got there first keeps its number company.
theorem sequence_reused : ¬ ∀ (config : StoreConfig) (dir : Directory), (∀ name, isRecordFile name = true → dir name = none) →
    ∀ world : StoreWorld, Runs PutsAndOpenings ⟨dir, { config }⟩ world → ∀ (env : Environment) (plan : Plan) (request : PlanningRequest),
      env.Calm → world.store.sequence.toNat + 1 < 2 ^ 64 → Outnumbers env world plan request := by
  intro claimed
  have above := claimed (sampleConfig 2) (fun _ => none) (fun _ _ => rfl) (reopenedWorld 2) (reopened_reached 2)
    (quietEnvironment [sampleName] 0) forgedPlan barred.request (quiet_calm [sampleName] 0)
    (by rw [reopened_store 2 (by decide)]; decide) _ (forged_prepared 2 (le_refl 2)) sampleName sampleRecord twoLeavesPlan sampleSummary
    (record_file_name_record _) (reopened_file 2 (by decide)) sample_decodes
  have one : sampleSummary.storedSequence = 1 := by simp only [sampleSummary, summaryOf]
  rw [one] at above
  exact absurd above (by decide)

end PathPlanner.PlanStore

import PathPlanner.ByteReader
import PathPlanner.Plan

set_option autoImplicit false

namespace PathPlanner

open Checks Codec

def kMaxPlanRecordBytes : Nat := 16 * 1024 * 1024

def CollectiveKind.ofRaw : Nat → CollectiveKind
  | 0 => .ring
  | 1 => .tree
  | 2 => .pairwise
  | 3 => .allToAll
  | _ => .hierarchical

def EvidenceClass.ofRaw : Nat → EvidenceClass
  | 0 => .unknown
  | 1 => .synthetic
  | _ => .measured

namespace Plan

def kPlanTag : String := "cpath.plan.v1"

def kMaxTagBytes : Nat := 64

def encodeBindings (bindings : GenerationBindings) : Bytes :=
  ByteWriter.generation bindings.topology ++
  ByteWriter.generation bindings.failureDomains ++
  ByteWriter.generation bindings.capacityEvidence ++
  ByteWriter.generation bindings.policy ++
  ByteWriter.generation bindings.plan

def decodeBindings : ByteReader GenerationBindings := do
  let topology ← ByteReader.generation _
  let failureDomains ← ByteReader.generation _
  let capacityEvidence ← ByteReader.generation _
  let policy ← ByteReader.generation _
  let plan ← ByteReader.generation _
  pure { topology, failureDomains, capacityEvidence, policy, plan }

def encodeStage (stage : Stage) : Bytes :=
  ByteWriter.u32 stage.index.toNat ++
  ByteWriter.counted ByteWriter.generation stage.logicalEdges ++
  ByteWriter.counted ByteWriter.generation stage.paths

def decodeStage : ByteReader Stage := do
  let index ← ByteReader.word32
  let logicalEdges ← ByteReader.counted kMaxLogicalEdges (ByteReader.generation _)
  let paths ← ByteReader.counted kMaxLogicalEdges (ByteReader.generation _)
  pure { index, logicalEdges, paths }

def encodeHop (hop : Hop) : Bytes := ByteWriter.id hop.edge ++ ByteWriter.id hop.source ++ ByteWriter.id hop.target

def decodeHop : ByteReader Hop := do
  let edge ← ByteReader.id _
  let source ← ByteReader.id _
  let target ← ByteReader.id _
  pure { edge, source, target }

-- An enumeration byte is checked against the last enumerator.
def enumerator {α : Type} (last : Nat) (ofRaw : Nat → α) (message : String) : ByteReader α :=
  ofRaw <$> checked ByteReader.u8 (· > last) fun _ => failure .corruptRecord message

def decodeKind : ByteReader CollectiveKind :=
  enumerator 4 CollectiveKind.ofRaw "plan declares an unknown collective kind"

def decodeEvidence (message : String) : ByteReader EvidenceClass := enumerator 2 EvidenceClass.ofRaw message

def encodePath (path : PathPlan) : Bytes :=
  ByteWriter.generation path.id ++
  ByteWriter.generation path.logicalEdge ++
  ByteWriter.id path.src ++
  ByteWriter.id path.dst ++
  ByteWriter.u32 path.stage.toNat ++
  ByteWriter.counted encodeHop path.hops ++
  ByteWriter.u64 path.cost.toNat ++
  ByteWriter.u64 path.bottleneckMbps.toNat ++
  ByteWriter.counted ByteWriter.id path.domainSignature ++
  ByteWriter.u8 path.weakestEvidence.raw

def decodePath : ByteReader PathPlan := do
  let id ← ByteReader.generation _
  let logicalEdge ← ByteReader.generation _
  let src ← ByteReader.id _
  let dst ← ByteReader.id _
  let stage ← ByteReader.word32
  let hops ← ByteReader.counted kMaxHops decodeHop
  let cost ← ByteReader.word64
  let bottleneckMbps ← ByteReader.word64
  let domainSignature ← ByteReader.counted kMaxFailureDomains (ByteReader.id _)
  let weakestEvidence ← decodeEvidence "plan declares an unknown evidence class"
  pure { id, logicalEdge, src, dst, stage, hops, cost, bottleneckMbps, domainSignature, weakestEvidence }

def encodeAllocation (allocation : Allocation) : Bytes :=
  ByteWriter.id allocation.edge ++ ByteWriter.u64 allocation.plannedMbps.toNat

def decodeAllocation : ByteReader Allocation := do
  let edge ← ByteReader.id _
  let plannedMbps ← ByteReader.word64
  pure { edge, plannedMbps }

def encodeStats (stats : PlanStats) : Bytes :=
  ByteWriter.u64 stats.totalCost.toNat ++
  ByteWriter.u64 stats.maxPathCost.toNat ++
  ByteWriter.u64 stats.pathCount.toNat ++
  ByteWriter.u64 stats.hopCount.toNat ++
  ByteWriter.u64 stats.logicalEdgeCount.toNat ++
  ByteWriter.u64 stats.bottleneckMbps.toNat

def decodeStats : ByteReader PlanStats := do
  let totalCost ← ByteReader.word64
  let maxPathCost ← ByteReader.word64
  let pathCount ← ByteReader.word64
  let hopCount ← ByteReader.word64
  let logicalEdgeCount ← ByteReader.word64
  let bottleneckMbps ← ByteReader.word64
  pure { totalCost, maxPathCost, pathCount, hopCount, logicalEdgeCount, bottleneckMbps }

def encode (plan : Plan) : Bytes :=
  ByteWriter.tagged kPlanTag ++
  ByteWriter.u16 kCanonicalFormatVersion ++
  ByteWriter.digest plan.inputDigest ++
  ByteWriter.generation plan.generation ++
  encodeBindings plan.bindings ++
  ByteWriter.id plan.collective ++
  ByteWriter.u8 plan.kind.raw ++
  ByteWriter.u32 plan.stageCount.toNat ++
  ByteWriter.counted encodeStage plan.stages ++
  ByteWriter.counted encodePath plan.paths ++
  ByteWriter.counted encodeAllocation plan.allocations ++
  encodeStats plan.stats ++
  ByteWriter.u8 plan.weakestEvidence.raw

def decodePreamble : ByteReader Unit := do
  let tag ← ByteReader.string kMaxTagBytes
  let version ← ByteReader.u16
  require (tag ≠ text kPlanTag) ⟨.unsupportedRecordVersion, text "unexpected plan tag " ++ tag⟩
  require (version ≠ kCanonicalFormatVersion)
    ⟨.unsupportedRecordVersion, text "unsupported plan encoding version " ++ decimal version⟩

def decodeStageCount : ByteReader UInt32 :=
  checked ByteReader.word32 (fun count => count = 0 ∨ count.toNat > kMaxStages) fun _ =>
    failure .corruptRecord "plan stage count is out of range"

def decodeFields : ByteReader Plan := do
  decodePreamble
  let inputDigest ← ByteReader.digest
  let generation ← ByteReader.generation _
  let bindings ← decodeBindings
  let collective ← ByteReader.id _
  let kind ← decodeKind
  let stageCount ← decodeStageCount
  let stages ← ByteReader.counted kMaxStages decodeStage
  let paths ← ByteReader.counted kMaxLogicalEdges decodePath
  let allocations ← ByteReader.counted kMaxEdges decodeAllocation
  let stats ← decodeStats
  let weakestEvidence ← decodeEvidence "plan declares an unknown weakest evidence class"
  pure {
    id := ⟨inputDigest⟩, inputDigest, generation, bindings, collective, kind, stageCount, stages, paths, allocations, stats,
    weakestEvidence }

def decode (bytes : Bytes) : Result Plan := do
  deny (bytes.length > kMaxPlanRecordBytes) (failure .oversizedRecord "plan payload exceeds the record bound")
  let plan ← ByteReader.complete decodeFields bytes
  deny (plan.paths.length ≠ plan.stats.pathCount.toNat)
    (failure .corruptRecord "plan path count does not match its statistics")
  deny (plan.id.valid = false) (failure .corruptRecord "plan has a zero input digest")
  .ok plan

-- The bounds each decoder declares.
def Short {tag : IdTag} (id : StrongId tag Bytes) : Prop := id.value.length ≤ kMaxIdentifierBytes

structure StageFits (stage : Stage) : Prop where
  logicalEdges : stage.logicalEdges.length ≤ kMaxLogicalEdges
  paths : stage.paths.length ≤ kMaxLogicalEdges

structure HopFits (hop : Hop) : Prop where
  edge : Short hop.edge
  source : Short hop.source
  target : Short hop.target

structure PathFits (path : PathPlan) : Prop where
  src : Short path.src
  dst : Short path.dst
  hops : path.hops.length ≤ kMaxHops ∧ ∀ hop ∈ path.hops, HopFits hop
  signature : path.domainSignature.length ≤ kMaxFailureDomains ∧ ∀ domain ∈ path.domainSignature, Short domain

structure Fits (plan : Plan) : Prop where
  identity : plan.id = ⟨plan.inputDigest⟩
  collective : Short plan.collective
  stageCount : ¬ (plan.stageCount = 0 ∨ plan.stageCount.toNat > kMaxStages)
  stages : plan.stages.length ≤ kMaxStages ∧ ∀ stage ∈ plan.stages, StageFits stage
  paths : plan.paths.length ≤ kMaxLogicalEdges ∧ ∀ path ∈ plan.paths, PathFits path
  allocations : plan.allocations.length ≤ kMaxEdges ∧ ∀ allocation ∈ plan.allocations, Short allocation.edge

theorem enumerator_reads {α : Type} (last : Nat) (small : last < 2 ^ 8) (ofRaw : Nat → α) (raw : α → Nat) (message : String)
    (left : ∀ n ≤ last, raw (ofRaw n) = n) (right : ∀ value, raw value ≤ last ∧ ofRaw (raw value) = value) :
    Reads (enumerator last ofRaw message) (fun value => ByteWriter.u8 (raw value)) always := by
  have bytes := ByteReader.u8_reads.checked (· > last) fun _ => failure .corruptRecord message
  refine (bytes.map ofRaw raw (fun n inside => left n (not_lt.mp inside.2)) (fun value _ => (right value).2)).convert
    (fun _ => rfl) fun value => iff_of_true trivial ?_
  have bound := (right value).1
  exact ⟨by omega, not_lt.mpr bound⟩

theorem kind_reads : Reads decodeKind (fun kind => ByteWriter.u8 kind.raw) always :=
  enumerator_reads 4 (by decide) CollectiveKind.ofRaw CollectiveKind.raw _ (by decide) (by rintro (_ | _) <;> decide)

theorem evidence_reads (message : String) : Reads (decodeEvidence message) (fun evidence => ByteWriter.u8 evidence.raw) always :=
  enumerator_reads 2 (by decide) EvidenceClass.ofRaw EvidenceClass.raw message (by decide) (by rintro (_ | _) <;> decide)

theorem bindings_reads : Reads decodeBindings encodeBindings always :=
  (Reads.field always GenerationBindings.topology (ByteReader.generation_reads _) fun topology =>
    .field _ GenerationBindings.failureDomains (ByteReader.generation_reads _) fun failureDomains =>
    .field _ GenerationBindings.capacityEvidence (ByteReader.generation_reads _) fun capacityEvidence =>
    .field _ GenerationBindings.policy (ByteReader.generation_reads _) fun policy =>
    .final _ GenerationBindings.plan
      (fun plan => { topology, failureDomains, capacityEvidence, policy, plan }) (ByteReader.generation_reads _)
      (by rintro plan ⟨⟩; simp [and_assoc])).convert (by simp [encodeBindings]) (by simp)

theorem stage_reads : Reads decodeStage encodeStage StageFits :=
  (Reads.field always Stage.index ByteReader.word32_reads fun index =>
    .field _ Stage.logicalEdges (ByteReader.counted_reads _ (by decide) (ByteReader.generation_reads _)) fun logicalEdges =>
    .final _ Stage.paths (fun paths => { index, logicalEdges, paths })
      (ByteReader.counted_reads _ (by decide) (ByteReader.generation_reads _))
      (by rintro paths ⟨⟩; simp [and_assoc])).convert (by simp [encodeStage])
    fun stage => ⟨fun fits => by simpa using ⟨fits.logicalEdges, fits.paths⟩, fun fits => by
      simp only [always_holds, implies_true, true_and, and_true] at fits
      exact ⟨fits.1, fits.2⟩⟩

theorem hop_reads : Reads decodeHop encodeHop HopFits :=
  (Reads.field always Hop.edge (ByteReader.id_reads _) fun edge =>
    .field _ Hop.source (ByteReader.id_reads _) fun source =>
    .final _ Hop.target (fun target => { edge, source, target }) (ByteReader.id_reads _)
      (by rintro target ⟨⟩; simp [and_assoc])).convert (by simp [encodeHop])
    fun hop => ⟨fun fits => ⟨trivial, fits.edge, fits.source, fits.target⟩, fun fits => ⟨fits.2.1, fits.2.2.1, fits.2.2.2⟩⟩

theorem path_reads : Reads decodePath encodePath PathFits :=
  (Reads.field always PathPlan.id (ByteReader.generation_reads _) fun id =>
    .field _ PathPlan.logicalEdge (ByteReader.generation_reads _) fun logicalEdge =>
    .field _ PathPlan.src (ByteReader.id_reads _) fun src =>
    .field _ PathPlan.dst (ByteReader.id_reads _) fun dst =>
    .field _ PathPlan.stage ByteReader.word32_reads fun stage =>
    .field _ PathPlan.hops (ByteReader.counted_reads _ (by decide) hop_reads) fun hops =>
    .field _ PathPlan.cost ByteReader.word64_reads fun cost =>
    .field _ PathPlan.bottleneckMbps ByteReader.word64_reads fun bottleneckMbps =>
    .field _ PathPlan.domainSignature (ByteReader.counted_reads _ (by decide) (ByteReader.id_reads _)) fun domainSignature =>
    .final _ PathPlan.weakestEvidence (fun weakestEvidence =>
        { id, logicalEdge, src, dst, stage, hops, cost, bottleneckMbps, domainSignature, weakestEvidence }) (evidence_reads _)
      (by rintro evidence ⟨⟩; simp [and_assoc])).convert (by simp [encodePath])
    fun path => ⟨fun fits => ⟨trivial, trivial, trivial, fits.src, fits.dst, trivial, fits.hops, trivial, trivial, fits.signature, trivial⟩,
      fun ⟨_, _, _, src, dst, _, hops, _, _, signature, _⟩ => ⟨src, dst, hops, signature⟩⟩

theorem allocation_reads : Reads decodeAllocation encodeAllocation (fun allocation => Short allocation.edge) :=
  (Reads.field always Allocation.edge (ByteReader.id_reads _) fun edge =>
    .final _ Allocation.plannedMbps (fun plannedMbps => { edge, plannedMbps }) ByteReader.word64_reads
      (by rintro planned ⟨⟩; simp)).convert (fun _ => rfl) fun allocation => by simp [Short]

theorem stats_reads : Reads decodeStats encodeStats always :=
  (Reads.field always PlanStats.totalCost ByteReader.word64_reads fun totalCost =>
    .field _ PlanStats.maxPathCost ByteReader.word64_reads fun maxPathCost =>
    .field _ PlanStats.pathCount ByteReader.word64_reads fun pathCount =>
    .field _ PlanStats.hopCount ByteReader.word64_reads fun hopCount =>
    .field _ PlanStats.logicalEdgeCount ByteReader.word64_reads fun logicalEdgeCount =>
    .final _ PlanStats.bottleneckMbps (fun bottleneckMbps =>
        { totalCost, maxPathCost, pathCount, hopCount, logicalEdgeCount, bottleneckMbps }) ByteReader.word64_reads
      (by rintro bottleneck ⟨⟩; simp [and_assoc])).convert (by simp [encodeStats]) (by simp)

-- The tag and the version carry nothing of the plan.
theorem preamble_reads : Reads decodePreamble
    (fun _ => ByteWriter.tagged kPlanTag ++ ByteWriter.u16 kCanonicalFormatVersion) always where
  accepts _ rest _ := by
    rw [decodePreamble, bind_accepted]
    refine ⟨text kPlanTag, ByteWriter.u16 kCanonicalFormatVersion ++ rest, ?_, ?_⟩
    · rw [List.append_assoc]
      exact (ByteReader.string_reads kMaxTagBytes (by decide)).accepts _ _ (by decide)
    · rw [bind_accepted]
      exact ⟨kCanonicalFormatVersion, rest, ByteReader.u16_reads.accepts _ _ (by decide), by simp [bind_accepted]⟩
  canonical input _ rest accepted := by
    rw [decodePreamble, bind_accepted] at accepted
    obtain ⟨tag, middle, tagRead, accepted⟩ := accepted
    rw [bind_accepted] at accepted
    obtain ⟨version, after, versionRead, accepted⟩ := accepted
    simp only [bind_accepted, require_accepted, ne_eq, not_not, Prod.mk.injEq, true_and] at accepted
    obtain ⟨_, _, ⟨rfl, rfl⟩, rfl, rfl⟩ := accepted
    obtain ⟨_, rfl⟩ := (ByteReader.string_reads kMaxTagBytes (by decide)).canonical _ _ _ tagRead
    obtain ⟨_, rfl⟩ := ByteReader.u16_reads.canonical _ _ _ versionRead
    exact ⟨trivial, by rw [ByteWriter.tagged, List.append_assoc]⟩

theorem stage_count_reads : Reads decodeStageCount (fun count => ByteWriter.u32 count.toNat)
    (fun count => ¬ (count = 0 ∨ count.toNat > kMaxStages)) :=
  (ByteReader.word32_reads.checked _ _).convert (fun _ => rfl) (by simp)

theorem fields_reads : Reads decodeFields encode Fits :=
  (Reads.field (fun plan => plan.id = ⟨plan.inputDigest⟩) (fun _ => ()) preamble_reads fun _ =>
    .field _ Plan.inputDigest ByteReader.digest_reads fun inputDigest =>
    .field _ Plan.generation (ByteReader.generation_reads _) fun generation =>
    .field _ Plan.bindings bindings_reads fun bindings =>
    .field _ Plan.collective (ByteReader.id_reads _) fun collective =>
    .field _ Plan.kind kind_reads fun kind =>
    .field _ Plan.stageCount stage_count_reads fun stageCount =>
    .field _ Plan.stages (ByteReader.counted_reads _ (by decide) stage_reads) fun stages =>
    .field _ Plan.paths (ByteReader.counted_reads _ (by decide) path_reads) fun paths =>
    .field _ Plan.allocations (ByteReader.counted_reads _ (by decide) allocation_reads) fun allocations =>
    .field _ Plan.stats stats_reads fun stats =>
    .final _ Plan.weakestEvidence (fun weakestEvidence => {
        id := ⟨inputDigest⟩, inputDigest, generation, bindings, collective, kind, stageCount, stages, paths, allocations, stats,
        weakestEvidence }) (evidence_reads _)
      (by rintro evidence ⟨⟩; simp only [and_assoc, Plan.mk.injEq]; grind)).convert (by simp [encode])
    fun plan => ⟨fun fits => ⟨fits.identity, trivial, trivial, trivial, trivial, fits.collective, trivial, fits.stageCount, fits.stages,
        fits.paths, fits.allocations, trivial, trivial⟩,
      fun ⟨identity, _, _, _, _, collective, _, stageCount, stages, paths, allocations, _, _⟩ =>
        ⟨identity, collective, stageCount, stages, paths, allocations⟩⟩

structure Decodable (plan : Plan) : Prop where
  fits : Fits plan
  counted : plan.paths.length = plan.stats.pathCount.toNat
  nonzero : plan.inputDigest.isZero = false
  size : (encode plan).length ≤ kMaxPlanRecordBytes

theorem decode_encode (plan : Plan) (decodable : Decodable plan) : decode (encode plan) = .ok plan := by
  have valid : plan.id.valid = true := by
    rw [decodable.fits.identity]
    simp [StrongId.valid, Sentinel.isSet, decodable.nonzero]
  rw [decode, then_ok, deny_ok, bind_ok]
  refine ⟨not_lt.mpr decodable.size, plan, ByteReader.complete_accepts fields_reads plan decodable.fits, ?_⟩
  simp [decodable.counted, valid]

theorem decode_canonical (bytes : Bytes) (plan : Plan) (decoded : decode bytes = .ok plan) :
    Decodable plan ∧ encode plan = bytes := by
  rw [decode, then_ok, deny_ok, bind_ok] at decoded
  obtain ⟨size, found, read, decoded⟩ := decoded
  simp only [then_ok, deny_ok, not_not, Bool.not_eq_false, Except.ok.injEq] at decoded
  obtain ⟨counted, valid, rfl⟩ := decoded
  obtain ⟨fits, rfl⟩ := ByteReader.complete_canonical fields_reads bytes found read
  rw [fits.identity] at valid
  exact ⟨⟨fits, counted, by simpa [StrongId.valid, Sentinel.isSet] using valid, not_lt.mp size⟩, rfl⟩

end Plan

end PathPlanner

import PathPlanner.Names
import PathPlanner.ByteReader

set_option autoImplicit false

namespace PathPlanner

open Checks Codec

-- Each piece of the canonical encoding ends where the next one starts, and names the value it was written from.
section Pieces

theorem u8_delimited : Delimited ByteWriter.u8 (· < 2 ^ 8) := ByteReader.u8_reads.delimited

theorem u32_delimited : Delimited ByteWriter.u32 (· < 2 ^ 32) := ByteReader.u32_reads.delimited

theorem u64_delimited : Delimited ByteWriter.u64 (· < 2 ^ 64) := ByteReader.u64_reads.delimited

theorem boolean_delimited : Delimited ByteWriter.boolean always := ByteReader.boolean_reads.delimited

theorem string_delimited : Delimited ByteWriter.string (·.length ≤ kMaxIdentifierBytes) :=
  (ByteReader.string_reads kMaxIdentifierBytes (by decide)).delimited

theorem id_delimited {tag : IdTag} : Delimited (@ByteWriter.id tag) (·.value.length ≤ kMaxIdentifierBytes) :=
  (ByteReader.id_reads tag).delimited

theorem generation_delimited {tag : IdTag} : Delimited (@ByteWriter.generation tag) always :=
  (ByteReader.generation_reads tag).delimited

theorem counted_delimited {α : Type} {write : α → Bytes} {domain : α → Prop} (delimited : Delimited write domain) :
    Delimited (ByteWriter.counted write) (fun values => values.length < 2 ^ 32 ∧ ∀ value ∈ values, domain value) :=
  Delimited.counted u32_delimited delimited

-- An enumeration of at most 256 values, written as one byte.
theorem raw_delimited {α : Type} (raw : α → Nat) (injective : Function.Injective raw) (small : ∀ value, raw value < 2 ^ 8) :
    Delimited (fun value => ByteWriter.u8 (raw value)) always :=
  fun left right after behind _ _ same => u8_delimited.through raw injective left right after behind (small left) (small right) same

theorem collective_kind_delimited : Delimited (fun kind : CollectiveKind => ByteWriter.u8 kind.raw) always :=
  raw_delimited _ (fun left right => by cases left <;> cases right <;> decide) (by rintro (_ | _) <;> decide)

theorem pattern_delimited : Delimited (fun pattern : GroupPattern => ByteWriter.u8 pattern.raw) always :=
  raw_delimited _ (fun left right => by cases left <;> cases right <;> decide) (by rintro (_ | _) <;> decide)

theorem direction_delimited : Delimited (fun direction : TreeDirection => ByteWriter.u8 direction.raw) always :=
  raw_delimited _ (fun left right => by cases left <;> cases right <;> decide) (by rintro (_ | _) <;> decide)

theorem domain_kind_delimited : Delimited (fun kind : DomainKind => ByteWriter.u8 kind.raw) always :=
  raw_delimited _ (fun left right => by cases left <;> cases right <;> decide) (by rintro (_ | _) <;> decide)

theorem evidence_delimited : Delimited (fun evidence : EvidenceClass => ByteWriter.u8 evidence.raw) always :=
  raw_delimited _ (fun left right => by cases left <;> cases right <;> decide) (by rintro (_ | _) <;> decide)

theorem disjointness_delimited : Delimited (fun mode : Disjointness => ByteWriter.u8 mode.raw) always :=
  raw_delimited _ (fun left right => by cases left <;> cases right <;> decide) (by rintro (_ | _) <;> decide)

theorem diversity_delimited : Delimited (fun mode : DomainDiversity => ByteWriter.u8 mode.raw) always :=
  raw_delimited _ (fun left right => by cases left <;> cases right <;> decide) (by rintro (_ | _) <;> decide)

theorem requirement_delimited : Delimited (fun level : EvidenceRequirement => ByteWriter.u8 level.raw) always :=
  raw_delimited _ (fun left right => by cases left <;> cases right <;> decide) (by rintro (_ | _) <;> decide)

theorem ids_delimited {tag : IdTag} : Delimited (ByteWriter.counted (@ByteWriter.id tag))
    (fun ids => ids.length < 2 ^ 32 ∧ ∀ id ∈ ids, id.value.length ≤ kMaxIdentifierBytes) := counted_delimited id_delimited

end Pieces

theorem names_fit {tag : IdTag} (ids : List (StrongId tag Bytes)) (few : ids.length < 2 ^ 32) (named : ∀ id ∈ ids, Named id) :
    ids.length < 2 ^ 32 ∧ ∀ id ∈ ids, id.value.length ≤ kMaxIdentifierBytes := ⟨few, fun id member => (named id member).short⟩

theorem label_short (label : Bytes) (valid : FabricGraph.validOptionalLabel label = true) : label.length ≤ kMaxIdentifierBytes := by
  simp only [FabricGraph.validOptionalLabel, Bool.or_eq_true, Bool.and_eq_true, decide_eq_true_eq, List.isEmpty_iff] at valid
  rcases valid with rfl | ⟨short, _⟩
  · exact Nat.zero_le _
  · exact short.trans (by decide)

theorem group_delimited : Delimited (fun group : GroupSpec =>
    ByteWriter.id group.id ++ ByteWriter.u32 group.level ++ ByteWriter.u8 group.pattern.raw ++
    ByteWriter.u8 group.direction.raw ++ ByteWriter.id group.root ++
    ByteWriter.counted ByteWriter.id group.members) GroupSpec.Named := by
  have id := Fixes.part GroupSpec.Named GroupSpec.id id_delimited fun _ named => named.id.short
  have level := Fixes.part GroupSpec.Named GroupSpec.level u32_delimited fun _ named => named.level.trans (by decide)
  have pattern := Fixes.part GroupSpec.Named GroupSpec.pattern pattern_delimited fun _ _ => trivial
  have direction := Fixes.part GroupSpec.Named GroupSpec.direction direction_delimited fun _ _ => trivial
  have root := Fixes.part GroupSpec.Named GroupSpec.root id_delimited fun _ named => named.root.short
  have members := Fixes.part GroupSpec.Named GroupSpec.members ids_delimited fun _ named => names_fit _ (named.few.trans_lt (by decide)) named.members
  refine (((((id.append level).append pattern).append direction).append root).append members).delimited ?_
  rintro ⟨⟩ ⟨⟩ agreed
  simpa [and_assoc] using agreed

structure StagedNamed (staged : Collective.StagedEdge) : Prop where
  src : Named staged.1.src
  dst : Named staged.1.dst
  stage : staged.2 < kMaxHierarchyLevels

theorem staged_delimited : Delimited (fun staged : Collective.StagedEdge =>
    ByteWriter.id staged.1.src ++ ByteWriter.id staged.1.dst ++ ByteWriter.u32 staged.2) StagedNamed := by
  have src := Fixes.part StagedNamed (fun staged : Collective.StagedEdge => staged.1.src) id_delimited fun _ named => named.src.short
  have dst := Fixes.part StagedNamed (fun staged : Collective.StagedEdge => staged.1.dst) id_delimited fun _ named => named.dst.short
  have stage := Fixes.part StagedNamed Prod.snd u32_delimited fun _ named => named.stage.trans (by decide)
  refine ((src.append dst).append stage).delimited ?_
  rintro ⟨⟨⟩, _⟩ ⟨⟨⟩, _⟩ agreed
  simpa [and_assoc] using agreed

theorem failure_domain_delimited : Delimited (fun domain : FailureDomain =>
    ByteWriter.id domain.id ++ ByteWriter.id domain.parent ++ ByteWriter.u8 domain.kind.raw) FailureDomain.Named := by
  have id := Fixes.part FailureDomain.Named FailureDomain.id id_delimited fun _ named => named.id.short
  have parent := Fixes.part FailureDomain.Named FailureDomain.parent id_delimited fun _ named => named.parent.short
  have kind := Fixes.part FailureDomain.Named FailureDomain.kind domain_kind_delimited fun _ _ => trivial
  refine ((id.append parent).append kind).delimited ?_
  rintro ⟨⟩ ⟨⟩ agreed
  simpa [and_assoc] using agreed

theorem node_delimited : Delimited (fun node : Node =>
    ByteWriter.id node.id ++ ByteWriter.string node.placement.site ++ ByteWriter.string node.placement.pod ++
    ByteWriter.string node.placement.rack ++ ByteWriter.string node.placement.host ++
    ByteWriter.u32 node.placement.deviceIndex.toNat ++ ByteWriter.boolean node.placement.supplied ++
    ByteWriter.id node.tier ++ ByteWriter.boolean node.eligible) Node.Named := by
  have labels : ∀ node : Node, Node.Named node → ∀ label ∈ [node.placement.site, node.placement.pod, node.placement.rack,
      node.placement.host], label.length ≤ kMaxIdentifierBytes := fun _ named label member => label_short label (named.placement label member)
  have id := Fixes.part Node.Named Node.id id_delimited fun _ named => named.id.short
  have site := Fixes.part Node.Named (fun node : Node => node.placement.site) string_delimited fun node named => labels node named _ (by simp)
  have pod := Fixes.part Node.Named (fun node : Node => node.placement.pod) string_delimited fun node named => labels node named _ (by simp)
  have rack := Fixes.part Node.Named (fun node : Node => node.placement.rack) string_delimited fun node named => labels node named _ (by simp)
  have host := Fixes.part Node.Named (fun node : Node => node.placement.host) string_delimited fun node named => labels node named _ (by simp)
  have device := Fixes.part Node.Named (fun node : Node => node.placement.deviceIndex) ByteReader.word32_reads.delimited fun _ _ => trivial
  have supplied := Fixes.part Node.Named (fun node : Node => node.placement.supplied) boolean_delimited fun _ _ => trivial
  have tier := Fixes.part Node.Named Node.tier id_delimited fun _ named => named.tier.named.short
  have eligible := Fixes.part Node.Named Node.eligible boolean_delimited fun _ _ => trivial
  refine ((((((((id.append site).append pod).append rack).append host).append device).append supplied).append tier).append
    eligible).delimited ?_
  rintro ⟨_, ⟨⟩, _, _⟩ ⟨_, ⟨⟩, _, _⟩ agreed
  simp only at agreed
  simp [agreed]

theorem edge_delimited : Delimited (fun edge : Edge =>
    ByteWriter.id edge.id ++ ByteWriter.id edge.source ++ ByteWriter.id edge.target ++
    ByteWriter.u64 edge.capacityMbps ++ ByteWriter.u64 edge.latencyMicros ++ ByteWriter.u64 edge.reservedMbps ++
    ByteWriter.id edge.tier ++ ByteWriter.id edge.failureDomain ++ ByteWriter.u8 edge.evidence.raw ++
    ByteWriter.boolean edge.eligible) Edge.Named := by
  have id := Fixes.part Edge.Named Edge.id id_delimited fun _ named => named.id.short
  have source := Fixes.part Edge.Named Edge.source id_delimited fun _ named => named.source.short
  have target := Fixes.part Edge.Named Edge.target id_delimited fun _ named => named.target.short
  have capacity := Fixes.part Edge.Named Edge.capacityMbps u64_delimited fun _ named => named.capacity.trans_lt (by decide)
  have latency := Fixes.part Edge.Named Edge.latencyMicros u64_delimited fun _ named => named.latency.trans_lt (by decide)
  have reserved := Fixes.part Edge.Named Edge.reservedMbps u64_delimited fun _ named => (named.reserved.trans named.capacity).trans_lt (by decide)
  have tier := Fixes.part Edge.Named Edge.tier id_delimited fun _ named => named.tier.named.short
  have domain := Fixes.part Edge.Named Edge.failureDomain id_delimited fun _ named => named.failureDomain.short
  have evidence := Fixes.part Edge.Named Edge.evidence evidence_delimited fun _ _ => trivial
  have eligible := Fixes.part Edge.Named Edge.eligible boolean_delimited fun _ _ => trivial
  refine (((((((((id.append source).append target).append capacity).append latency).append reserved).append tier).append
    domain).append evidence).append eligible).delimited ?_
  rintro ⟨⟩ ⟨⟩ agreed
  simp only at agreed
  simp [agreed]

theorem binding_delimited : Delimited (fun binding : EndpointBinding =>
    ByteWriter.id binding.participant ++ ByteWriter.id binding.node ++
    ByteWriter.counted ByteWriter.id binding.allowedFailureDomains ++
    ByteWriter.counted ByteWriter.id binding.allowedTiers) EndpointBinding.Named := by
  have participant := Fixes.part EndpointBinding.Named EndpointBinding.participant id_delimited fun _ named => named.participant.short
  have node := Fixes.part EndpointBinding.Named EndpointBinding.node id_delimited fun _ named => named.node.short
  have domains := Fixes.part EndpointBinding.Named EndpointBinding.allowedFailureDomains ids_delimited fun _ named =>
      names_fit _ (named.few.1.trans_lt (by decide)) named.domains
  have tiers := Fixes.part EndpointBinding.Named EndpointBinding.allowedTiers ids_delimited fun _ named =>
      names_fit _ (named.few.2.trans_lt (by decide)) fun tier member => (named.tiers tier member).named
  refine (((participant.append node).append domains).append tiers).delimited ?_
  rintro ⟨⟩ ⟨⟩ agreed
  simpa [and_assoc] using agreed

-- The parts of a collective the encoding lists; the staged edges are its two parallel lists.
structure CollectiveAgrees (left right : Collective) : Prop where
  id : left.id = right.id
  kind : left.kind = right.kind
  demand : left.demandMbps = right.demandMbps
  stageCount : left.stageCount = right.stageCount
  participants : left.participants = right.participants
  staged : left.logicalEdges.zip left.logicalEdgeStage = right.logicalEdges.zip right.logicalEdgeStage
  groups : left.groups = right.groups

structure CollectiveNamed (collective : Collective) : Prop where
  named : Collective.Named collective
  sound : Collective.Sound collective

theorem staged_named (collective : Collective) (named : Collective.Named collective) :
    ∀ staged ∈ collective.logicalEdges.zip collective.logicalEdgeStage, StagedNamed staged := by
  rintro ⟨edge, stage⟩ member
  obtain ⟨listed, level⟩ := List.of_mem_zip member
  exact ⟨(named.edges edge listed).1, (named.edges edge listed).2, named.stages stage level⟩

theorem collective_fixes : Fixes Collective.encodeCanonical CollectiveNamed CollectiveAgrees := by
  have tag := Fixes.constant CollectiveNamed (ByteWriter.tagged "collective.v1")
  have id := Fixes.part CollectiveNamed Collective.id id_delimited fun _ facts => facts.named.id.short
  have kind := Fixes.part CollectiveNamed Collective.kind collective_kind_delimited fun _ _ => trivial
  have demand := Fixes.part CollectiveNamed Collective.demandMbps u64_delimited fun _ facts => facts.sound.demand.trans_lt (by decide)
  have stageCount := Fixes.part CollectiveNamed Collective.stageCount u32_delimited fun _ facts => facts.named.stageCount.2.trans_lt (by decide)
  have participants := Fixes.part CollectiveNamed Collective.participants ids_delimited fun _ facts =>
      names_fit _ (facts.named.participantCount.trans_lt (by decide)) facts.named.participants
  have staged := Fixes.part CollectiveNamed (fun collective : Collective => collective.logicalEdges.zip collective.logicalEdgeStage) (counted_delimited staged_delimited) fun collective facts => by
      have few := facts.sound.bounded
      refine ⟨?_, staged_named collective facts.named⟩
      rw [List.length_zip]
      exact (min_le_left _ _).trans_lt (few.trans_lt (by decide))
  have groups := Fixes.part CollectiveNamed Collective.groups (counted_delimited group_delimited) fun _ facts =>
    ⟨facts.named.groupCount.2.trans_lt (by decide), facts.named.groups⟩
  intro left right after behind here there same
  obtain ⟨agreed, done⟩ := (((((((tag.append id).append kind).append demand).append stageCount).append participants).append
    staged).append groups) left right after behind here there same
  obtain ⟨⟨⟨⟨⟨⟨⟨_, id⟩, kind⟩, demand⟩, stageCount⟩, participants⟩, staged⟩, groups⟩ := agreed
  exact ⟨⟨id, kind, demand, stageCount, participants, staged, groups⟩, done⟩

theorem collective_agrees_eq (left right : Collective) (here : Collective.Sound left) (there : Collective.Sound right)
    (agrees : CollectiveAgrees left right) : left = right := by
  have edges : left.logicalEdges = right.logicalEdges := by
    have same := congrArg (List.map Prod.fst) agrees.staged
    rwa [List.map_fst_zip here.parallel.ge, List.map_fst_zip there.parallel.ge] at same
  have stages : left.logicalEdgeStage = right.logicalEdgeStage := by
    have same := congrArg (List.map Prod.snd) agrees.staged
    rwa [List.map_snd_zip here.parallel.le, List.map_snd_zip there.parallel.le] at same
  cases left
  cases right
  simp only [Collective.mk.injEq]
  exact ⟨agrees.id, agrees.kind, agrees.demand, agrees.participants, edges, stages, agrees.groups, agrees.stageCount⟩

structure FabricAgrees (left right : FabricGraph) : Prop where
  topology : left.topologyGeneration = right.topologyGeneration
  failureDomain : left.failureDomainGeneration = right.failureDomainGeneration
  capacityEvidence : left.capacityEvidenceGeneration = right.capacityEvidenceGeneration
  domains : left.failureDomains = right.failureDomains
  nodes : left.nodes = right.nodes
  edges : left.edges = right.edges

theorem fabric_fixes : Fixes FabricGraph.encodeCanonical FabricGraph.Named FabricAgrees := by
  have tag := Fixes.constant FabricGraph.Named (ByteWriter.tagged "fabric.v1")
  have topology := Fixes.part FabricGraph.Named FabricGraph.topologyGeneration generation_delimited fun _ _ => trivial
  have failureDomain := Fixes.part FabricGraph.Named FabricGraph.failureDomainGeneration generation_delimited fun _ _ => trivial
  have evidence := Fixes.part FabricGraph.Named FabricGraph.capacityEvidenceGeneration generation_delimited fun _ _ => trivial
  have domains := Fixes.part FabricGraph.Named FabricGraph.failureDomains (counted_delimited failure_domain_delimited)
    fun _ named => ⟨named.domainCount.trans_lt (by decide), named.domains⟩
  have nodes := Fixes.part FabricGraph.Named FabricGraph.nodes (counted_delimited node_delimited)
    fun _ named => ⟨named.nodeCount.trans_lt (by decide), named.nodes⟩
  have edges := Fixes.part FabricGraph.Named FabricGraph.edges (counted_delimited edge_delimited)
    fun _ named => ⟨named.edgeCount.trans_lt (by decide), named.edges⟩
  intro left right after behind here there same
  obtain ⟨agreed, done⟩ := ((((((tag.append topology).append failureDomain).append evidence).append domains).append nodes).append
    edges) left right after behind here there same
  obtain ⟨⟨⟨⟨⟨⟨_, topology⟩, failureDomain⟩, evidence⟩, domains⟩, nodes⟩, edges⟩ := agreed
  exact ⟨⟨topology, failureDomain, evidence, domains, nodes, edges⟩, done⟩

-- The indexes and the containment chains of an accepted fabric follow from its lists.
theorem fabric_determined (spec : FabricSpec) (fabric : FabricGraph) (built : FabricGraph.build spec = .ok fabric) :
    ∃ chains, FabricGraph.containmentChains (FabricGraph.rebuildIndex {
        topologyGeneration := fabric.topologyGeneration
        failureDomainGeneration := fabric.failureDomainGeneration
        capacityEvidenceGeneration := fabric.capacityEvidenceGeneration
        failureDomains := fabric.failureDomains }) fabric.failureDomains = .ok chains ∧
      fabric = FabricGraph.rebuildIndex {
        topologyGeneration := fabric.topologyGeneration
        failureDomainGeneration := fabric.failureDomainGeneration
        capacityEvidenceGeneration := fabric.capacityEvidenceGeneration
        failureDomains := fabric.failureDomains
        nodes := fabric.nodes
        edges := fabric.edges
        domainChains := chains } := by
  unfold FabricGraph.build at built
  simp only [then_ok] at built
  obtain ⟨_, _, _, _, _, _, built⟩ := built
  obtain ⟨chains, chained, built⟩ := (bind_ok _ _ _).mp built
  simp only [then_ok, Except.ok.injEq] at built
  obtain ⟨_, _, _, _, _, rfl⟩ := built
  exact ⟨chains, chained, rfl⟩

theorem fabric_agrees_eq (here there : FabricSpec) (left right : FabricGraph) (leftBuilt : FabricGraph.build here = .ok left)
    (rightBuilt : FabricGraph.build there = .ok right) (agrees : FabricAgrees left right) : left = right := by
  obtain ⟨chains, chained, shape⟩ := fabric_determined here left leftBuilt
  obtain ⟨others, othersChained, other⟩ := fabric_determined there right rightBuilt
  rw [agrees.topology, agrees.failureDomain, agrees.capacityEvidence, agrees.domains] at chained
  rw [othersChained, Except.ok.injEq] at chained
  rw [shape, other, agrees.topology, agrees.failureDomain, agrees.capacityEvidence, agrees.domains, agrees.nodes, agrees.edges,
    chained]

structure PolicyNamed (policy : Policy) : Prop where
  named : Policy.Named policy
  sound : Policy.Sound policy

theorem policy_delimited : Delimited Policy.encodeCanonical PolicyNamed := by
  have tag := Fixes.constant PolicyNamed (ByteWriter.tagged "policy.v1")
  have generation := Fixes.part PolicyNamed Policy.generation generation_delimited fun _ _ => trivial
  have maxHops := Fixes.part PolicyNamed Policy.maxHops u64_delimited fun _ facts => facts.sound.hops.2.trans_lt (by decide)
  have paths := Fixes.part PolicyNamed Policy.pathsPerLogicalEdge u64_delimited fun _ facts =>
    facts.sound.paths.2.trans_lt (by decide)
  have disjointness := Fixes.part PolicyNamed Policy.disjointness disjointness_delimited fun _ _ => trivial
  have diversity := Fixes.part PolicyNamed Policy.domainDiversity diversity_delimited fun _ _ => trivial
  have level := Fixes.part PolicyNamed Policy.domainDiversityLevel domain_kind_delimited fun _ _ => trivial
  have evidence := Fixes.part PolicyNamed Policy.evidence requirement_delimited fun _ _ => trivial
  have latency := Fixes.part PolicyNamed Policy.latencyWeightMilli u64_delimited fun _ facts =>
    facts.sound.weights.1.trans_lt (by decide)
  have congestion := Fixes.part PolicyNamed Policy.congestionWeightMilli u64_delimited fun _ facts =>
    facts.sound.weights.2.trans_lt (by decide)
  have cost := Fixes.part PolicyNamed Policy.maxPathCost u64_delimited fun _ facts => facts.sound.pathCost.2.trans_lt (by decide)
  have unverified := Fixes.part PolicyNamed Policy.allowUnverifiedCapacity boolean_delimited fun _ _ => trivial
  have expansions := Fixes.part PolicyNamed Policy.maxSearchExpansions u64_delimited fun _ facts =>
    facts.named.expansions.trans_lt (by decide)
  have nodes := Fixes.part PolicyNamed Policy.forbiddenNodes ids_delimited fun _ facts =>
    names_fit _ (facts.named.few.1.trans_lt (by decide)) facts.named.nodes
  have tiers := Fixes.part PolicyNamed Policy.forbiddenTiers ids_delimited fun _ facts =>
    names_fit _ (facts.named.few.2.1.trans_lt (by decide)) fun tier member => (facts.named.tiers tier member).named
  have domains := Fixes.part PolicyNamed Policy.forbiddenFailureDomains ids_delimited fun _ facts =>
    names_fit _ (facts.named.few.2.2.1.trans_lt (by decide)) facts.named.domains
  have allowed := Fixes.part PolicyNamed Policy.allowedPathTiers ids_delimited fun _ facts =>
    names_fit _ (facts.named.few.2.2.2.trans_lt (by decide)) fun tier member => (facts.named.allowed tier member).named
  refine ((((((((((((((((tag.append generation).append maxHops).append paths).append disjointness).append diversity).append
    level).append evidence).append latency).append congestion).append cost).append unverified).append expansions).append
    nodes).append tiers).append domains).append allowed).delimited ?_
  rintro ⟨⟩ ⟨⟩ agreed
  simp only at agreed
  simp [agreed]

structure RequestNamed (request : PlanningRequest) : Prop where
  named : PlanningRequest.Named request
  sound : PlanningRequest.Sound request

structure RequestAgrees (left right : PlanningRequest) : Prop where
  collective : CollectiveAgrees left.collective right.collective
  fabric : FabricAgrees left.fabric right.fabric
  policy : left.policy = right.policy
  bindings : left.bindings = right.bindings

theorem request_fixes : Fixes PlanningRequest.encodeCanonical RequestNamed RequestAgrees := by
  have tag := Fixes.constant RequestNamed (ByteWriter.tagged "cpath.request.v1")
  have version := Fixes.constant RequestNamed (ByteWriter.u16 kCanonicalFormatVersion)
  have collective : Fixes (fun request : PlanningRequest => request.collective.encodeCanonical) RequestNamed
      (fun left right => CollectiveAgrees left.collective right.collective) := fun _ _ after behind here there same =>
    collective_fixes _ _ after behind ⟨here.named.collective, here.sound.collective⟩ ⟨there.named.collective, there.sound.collective⟩ same
  have fabric : Fixes (fun request : PlanningRequest => request.fabric.encodeCanonical) RequestNamed
      (fun left right => FabricAgrees left.fabric right.fabric) := fun _ _ after behind here there same =>
    fabric_fixes _ _ after behind here.named.fabric there.named.fabric same
  have policy := Fixes.part RequestNamed PlanningRequest.policy policy_delimited fun _ facts =>
    ⟨facts.named.policy, facts.sound.policy⟩
  have bindings := Fixes.part RequestNamed PlanningRequest.bindings (counted_delimited binding_delimited) fun _ facts =>
    ⟨facts.named.bindingCount.trans_lt (by decide), facts.named.bindings⟩
  intro left right after behind here there same
  obtain ⟨agreed, done⟩ := (((((tag.append version).append collective).append fabric).append policy).append bindings)
    left right after behind here there same
  obtain ⟨⟨⟨⟨_, collective⟩, fabric⟩, policy⟩, bindings⟩ := agreed
  exact ⟨⟨collective, fabric, policy, bindings⟩, done⟩

-- The digest and the size recorded with a request are those of its encoding.
-- Everything of a request but its plan generation.
structure SameInputs (left right : PlanningRequest) : Prop where
  collective : left.collective = right.collective
  fabric : left.fabric = right.fabric
  policy : left.policy = right.policy
  bindings : left.bindings = right.bindings
  canonicalDigest : left.canonicalDigest = right.canonicalDigest
  canonicalBytes : left.canonicalBytes = right.canonicalBytes

theorem canonical_encoding_injective (left right : BuiltRequest)
    (same : left.request.encodeCanonical = right.request.encodeCanonical) : SameInputs left.request right.request := by
  obtain ⟨agrees, _⟩ := request_fixes left.request right.request [] [] ⟨left.named, left.sound⟩ ⟨right.named, right.sound⟩
    (by rw [same])
  exact {
    collective := collective_agrees_eq _ _ left.sound.collective right.sound.collective agrees.collective
    fabric := fabric_agrees_eq _ _ _ _ left.parts.fabric right.parts.fabric agrees.fabric
    policy := agrees.policy
    bindings := agrees.bindings
    canonicalDigest := by rw [left.parts.digest, right.parts.digest, same]
    canonicalBytes := by rw [left.parts.bytes, right.parts.bytes, same] }

def pairOnLine (generation : UInt64) : RequestSpec :=
  { Sample.request .tree (Sample.star ["p", "q"]) 1 (Sample.fabric ["a", "b"] [Sample.edge "e" "a" "b" 1 10])
      [Sample.binding "p" "a", Sample.binding "q" "b"] with planGeneration := ⟨generation⟩ }

def firstGeneration : BuiltRequest := .of (pairOnLine 1) (draft_accepted _ (by decide +kernel))

def secondGeneration : BuiltRequest := .of (pairOnLine 2) (draft_accepted _ (by decide +kernel))

-- Two generations of one request share their canonical bytes.
theorem generations_encode_alike : SameInputs firstGeneration.request secondGeneration.request := by
  refine canonical_encoding_injective firstGeneration secondGeneration ?_
  simp only [BuiltRequest.drafted]
  decide +kernel

end PathPlanner

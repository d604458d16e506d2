import PathPlanner.CanonicalForm
import PathPlanner.Dsl.Structure

set_option autoImplicit false

namespace PathPlanner

open Checks Permuted

-- Descriptions that list the same things, each list in an order of its own.
structure RequestSpec.Relisted (left right : RequestSpec) : Prop where
  id : right.collective.id = left.collective.id
  kind : right.collective.kind = left.collective.kind
  demand : right.collective.demandMbps = left.collective.demandMbps
  topology : right.fabric.topologyGeneration = left.fabric.topologyGeneration
  failureDomain : right.fabric.failureDomainGeneration = left.fabric.failureDomainGeneration
  capacityEvidence : right.fabric.capacityEvidenceGeneration = left.fabric.capacityEvidenceGeneration
  generation : right.planGeneration = left.planGeneration
  policy : Policy.Rearranged left.policy right.policy
  groups : left.collective.groups.Perm right.collective.groups
  domains : left.fabric.failureDomains.Perm right.fabric.failureDomains
  nodes : left.fabric.nodes.Perm right.fabric.nodes
  edges : left.fabric.edges.Perm right.fabric.edges
  bindings : left.bindings.Perm right.bindings

namespace Policy.Rearranged

theorem refl (policy : Policy) : Rearranged policy policy := ⟨rfl, .refl _, .refl _, .refl _, .refl _⟩

theorem trans (first second third : Policy) (before : Rearranged first second) (after : Rearranged second third) :
    Rearranged first third where
  rest := by rw [after.rest, before.rest]
  nodes := before.nodes.trans after.nodes
  tiers := before.tiers.trans after.tiers
  domains := before.domains.trans after.domains
  allowed := before.allowed.trans after.allowed

end Policy.Rearranged

namespace RequestSpec.Relisted

theorem refl (spec : RequestSpec) : Relisted spec spec :=
  ⟨rfl, rfl, rfl, rfl, rfl, rfl, rfl, .refl _, .refl _, .refl _, .refl _, .refl _, .refl _⟩

theorem trans (first second third : RequestSpec) (before : Relisted first second) (after : Relisted second third) :
    Relisted first third where
  id := after.id.trans before.id
  kind := after.kind.trans before.kind
  demand := after.demand.trans before.demand
  topology := after.topology.trans before.topology
  failureDomain := after.failureDomain.trans before.failureDomain
  capacityEvidence := after.capacityEvidence.trans before.capacityEvidence
  generation := after.generation.trans before.generation
  policy := Policy.Rearranged.trans _ _ _ before.policy after.policy
  groups := before.groups.trans after.groups
  domains := before.domains.trans after.domains
  nodes := before.nodes.trans after.nodes
  edges := before.edges.trans after.edges
  bindings := before.bindings.trans after.bindings

theorem group_itself (group : GroupSpec) : GroupSpec.Rearranged group group where
  rest := rfl
  members := by
    split_ifs
    · exact .refl _
    · exact .refl _

theorem rearranged (left right : RequestSpec) (relisted : Relisted left right) : RequestSpec.Rearranged left right where
  collective := ⟨relisted.id, relisted.kind, relisted.demand, right.collective.groups, relisted.groups,
    List.forall₂_same.mpr fun group _ => group_itself group⟩
  fabric := ⟨relisted.topology, relisted.failureDomain, relisted.capacityEvidence, relisted.domains, relisted.nodes, relisted.edges⟩
  policy := relisted.policy
  generation := relisted.generation
  bindings := ⟨right.bindings, relisted.bindings, List.forall₂_same.mpr fun _ _ => ⟨rfl, rfl, .refl _, .refl _⟩⟩

end RequestSpec.Relisted

namespace Dsl

open RequestSpec (Relisted)

-- A list of the description that the lines of one section are added to.
structure Slot.Lawful {α : Type} (slot : Slot α) : Prop where
  items_put : ∀ spec items, slot.items (slot.put spec items) = items
  put_put : ∀ spec items others, slot.put (slot.put spec items) others = slot.put spec others
  perm : ∀ left right, Relisted left right → (slot.items left).Perm (slot.items right)
  put : ∀ left right items others, Relisted left right → items.Perm others →
    Relisted (slot.put left items) (slot.put right others)

theorem group_slot_lawful : groupSlot.Lawful :=
  ⟨fun _ _ => rfl, fun _ _ _ => rfl, fun _ _ like => like.groups, fun _ _ _ _ like perm => { like with groups := perm }⟩

theorem domain_slot_lawful : domainSlot.Lawful :=
  ⟨fun _ _ => rfl, fun _ _ _ => rfl, fun _ _ like => like.domains, fun _ _ _ _ like perm => { like with domains := perm }⟩

theorem node_slot_lawful : nodeSlot.Lawful :=
  ⟨fun _ _ => rfl, fun _ _ _ => rfl, fun _ _ like => like.nodes, fun _ _ _ _ like perm => { like with nodes := perm }⟩

theorem edge_slot_lawful : edgeSlot.Lawful :=
  ⟨fun _ _ => rfl, fun _ _ _ => rfl, fun _ _ like => like.edges, fun _ _ _ _ like perm => { like with edges := perm }⟩

theorem binding_slot_lawful : bindingSlot.Lawful :=
  ⟨fun _ _ => rfl, fun _ _ _ => rfl, fun _ _ like => like.bindings, fun _ _ _ _ like perm => { like with bindings := perm }⟩

-- Which records a list takes besides those it holds.
structure Admission {α : Type} (admits : List α → α → Prop) : Prop where
  perm : ∀ items others item, items.Perm others → admits items item → admits others item
  swap : ∀ items first second, admits items first → admits (items ++ [first]) second →
    admits items second ∧ admits (items ++ [second]) first

theorem room_admission {α : Type} (limit : Nat) : Admission fun (items : List α) (_ : α) => items.length < limit where
  perm _ _ _ perm room := by rwa [← perm.length_eq]
  swap items first second _ room := by
    rw [List.length_append, List.length_singleton] at room ⊢
    omega

theorem group_admission : Admission fun (groups : List GroupSpec) (group : GroupSpec) =>
    groups.length < kMaxGroups ∧ group.id ∉ groups.map GroupSpec.id where
  perm _ _ _ perm admitted := by rwa [← perm.length_eq, ← (perm.map GroupSpec.id).mem_iff]
  swap items first second before after := by
    simp only [List.length_append, List.length_singleton, List.map_append, List.mem_append, not_or, List.map_cons, List.map_nil,
      List.mem_singleton] at after ⊢
    exact ⟨⟨by omega, after.2.1⟩, by omega, before.2, fun same => after.2.2 same.symm⟩

-- Lines that each add one record to a list may change places.
theorem appending_commutes {α : Type} (slot : Slot α) (lawful : slot.Lawful) (step : RequestSpec → Bytes → Result RequestSpec)
    (reads : Bytes → α → Prop) (admits : List α → α → Prop) (admission : Admission admits)
    (stepped : ∀ spec line next, step spec line = .ok next ↔
      ∃ item, reads line item ∧ admits (slot.items spec) item ∧ slot.put spec (slot.items spec ++ [item]) = next) :
    Commuting step Relisted fun _ _ => True where
  same := Relisted.refl
  trans := Relisted.trans
  symm _ _ _ := trivial
  congr := by
    intro spec twin line next like taken
    obtain ⟨item, read, admitted, rfl⟩ := (stepped _ _ _).mp taken
    have perm := lawful.perm spec twin like
    exact ⟨_, (stepped _ _ _).mpr ⟨item, read, admission.perm _ _ item perm admitted, rfl⟩,
      lawful.put _ _ _ _ like (perm.append_right [item])⟩
  swap := by
    intro spec first second middle next _ taken takenNext
    obtain ⟨item, read, admitted, rfl⟩ := (stepped _ _ _).mp taken
    obtain ⟨other, readOther, admittedOther, rfl⟩ := (stepped _ _ _).mp takenNext
    rw [lawful.items_put] at admittedOther
    obtain ⟨earlier, later⟩ := admission.swap _ item other admitted admittedOther
    refine ⟨_, _, (stepped _ _ _).mpr ⟨other, readOther, earlier, rfl⟩, (stepped _ _ _).mpr ⟨item, read, ?_, rfl⟩, ?_⟩
    · rwa [lawful.items_put]
    · simp only [lawful.items_put, lawful.put_put]
      apply lawful.put _ _ _ _ (Relisted.refl spec)
      simp only [List.append_assoc]
      exact (List.Perm.swap other item []).append_left _

theorem item_line_ok {α : Type} (keys : List String) (slot : Slot α) (limit : Nat) (excess : Status)
    (read : Bytes → AssignmentList → Result α) (spec : RequestSpec) (line : Bytes) (next : RequestSpec) :
    handleRecord spec line (handleItem keys slot limit excess read) = .ok next ↔
      ∃ item, (∃ id entries, makeIdentifier (firstWord line) = .ok id ∧ AssignmentList.parse (afterWord line) = .ok entries ∧
        entries.rejectUnknown keys = .ok () ∧ read id entries = .ok item) ∧ (slot.items spec).length < limit ∧
        slot.put spec (slot.items spec ++ [item]) = next := by
  rw [handle_record_ok]
  simp only [handle_item_ok]
  constructor
  · rintro ⟨id, entries, named, parsed, known, room, item, taken, rfl⟩
    exact ⟨item, ⟨id, entries, named, parsed, known, taken⟩, room, rfl⟩
  · rintro ⟨item, ⟨id, entries, named, parsed, known, taken⟩, room, rfl⟩
    exact ⟨id, entries, named, parsed, known, room, item, taken, rfl⟩

theorem item_commutes {α : Type} (keys : List String) (slot : Slot α) (lawful : slot.Lawful) (limit : Nat) (excess : Status)
    (read : Bytes → AssignmentList → Result α) :
    Commuting (fun spec line => handleRecord spec line (handleItem keys slot limit excess read)) Relisted fun _ _ => True :=
  appending_commutes slot lawful _ _ _ (room_admission limit) (item_line_ok keys slot limit excess read)

theorem group_line_ok (spec : RequestSpec) (line : Bytes) (next : RequestSpec) :
    handleRecord spec line handleGroup = .ok next ↔
      ∃ group, (∃ id entries, makeIdentifier (firstWord line) = .ok id ∧ AssignmentList.parse (afterWord line) = .ok entries ∧
        entries.rejectUnknown ["level", "pattern", "root", "direction", "members"] = .ok () ∧ readGroup id entries = .ok group) ∧
        (spec.collective.groups.length < kMaxGroups ∧ group.id ∉ spec.collective.groups.map GroupSpec.id) ∧
        groupSlot.put spec (spec.collective.groups ++ [group]) = next := by
  rw [handle_record_ok]
  simp only [handle_group_ok]
  constructor
  · rintro ⟨id, entries, named, parsed, known, room, fresh, group, taken, rfl⟩
    exact ⟨group, ⟨id, entries, named, parsed, known, taken⟩, ⟨room, by rwa [read_group_id id entries group taken]⟩, rfl⟩
  · rintro ⟨group, ⟨id, entries, named, parsed, known, taken⟩, ⟨room, fresh⟩, rfl⟩
    exact ⟨id, entries, named, parsed, known, room, by rwa [← read_group_id id entries group taken], group, taken, rfl⟩

theorem groups_commute : Commuting (fun spec line => handleRecord spec line handleGroup) Relisted fun _ _ => True :=
  appending_commutes groupSlot group_slot_lawful _ _ _ group_admission group_line_ok

-- The header.

theorem set_header_relisted (keyword : HeaderKeyword) (number : UInt64) (left right : RequestSpec) (like : Relisted left right) :
    Relisted (setHeader left keyword number) (setHeader right keyword number) := by
  cases keyword with
  | planGeneration => exact { like with generation := rfl }
  | topologyGeneration => exact { like with topology := rfl }
  | failureDomainGeneration => exact { like with failureDomain := rfl }
  | capacityEvidenceGeneration => exact { like with capacityEvidence := rfl }
  | policyGeneration => exact { like with policy := { like.policy with rest := by rw [setHeader, setHeader, like.policy.rest] } }

theorem set_header_swap (spec : RequestSpec) (first second : HeaderKeyword) (number other : UInt64)
    (same : first = second → number = other) :
    setHeader (setHeader spec first number) second other = setHeader (setHeader spec second other) first number := by
  by_cases both : first = second
  · rw [both, same both]
  · cases first <;> cases second <;> first | rfl | exact absurd rfl both

def HeadersAgree (left right : Bytes) : Prop :=
  ∀ keyword number other, readHeader left = .ok (keyword, number) → readHeader right = .ok (keyword, other) → number = other

theorem handle_header_ok (spec next : RequestSpec) (line : Bytes) :
    handleHeader spec line = .ok next ↔ ∃ keyword number, readHeader line = .ok (keyword, number) ∧
      setHeader spec keyword number = next := by
  simp only [handleHeader, bind_ok, Prod.exists, Except.ok.injEq]

theorem headers_commute : Commuting handleHeader Relisted HeadersAgree where
  same := Relisted.refl
  trans := Relisted.trans
  symm left right agree keyword number other readRight readLeft := (agree keyword other number readLeft readRight).symm
  congr := by
    intro spec twin line next like taken
    obtain ⟨keyword, number, read, rfl⟩ := (handle_header_ok _ _ _).mp taken
    exact ⟨_, (handle_header_ok _ _ _).mpr ⟨keyword, number, read, rfl⟩, set_header_relisted keyword number spec twin like⟩
  swap := by
    intro spec first second middle next agree taken takenNext
    obtain ⟨keyword, number, read, rfl⟩ := (handle_header_ok _ _ _).mp taken
    obtain ⟨laterKeyword, other, readOther, rfl⟩ := (handle_header_ok _ _ _).mp takenNext
    refine ⟨_, _, (handle_header_ok _ _ _).mpr ⟨laterKeyword, other, readOther, rfl⟩,
      (handle_header_ok _ _ _).mpr ⟨keyword, number, read, rfl⟩, ?_⟩
    rw [set_header_swap spec keyword laterKeyword number other]
    · exact Relisted.refl _
    · rintro rfl
      exact agree keyword number other read readOther

-- Lists of names that lines add to.

theorem read_names_ok {tag : IdTag} (key : String) (make : Bytes → Result Bytes) (limit : Nat) (excess : Status)
    (items : List Bytes) (read out : List (StrongId tag Bytes)) :
    AssignmentList.readNames key make (some (limit, excess)) read items = .ok out ↔
      ∃ names, readAll (fun item => (make item).map StrongId.mk) items = .ok names ∧ read ++ names = out ∧
        (items = [] ∨ out.length ≤ limit) := by
  induction items generalizing read with
  | nil => simp [AssignmentList.readNames, readAll]
  | cons item rest ih =>
      simp only [AssignmentList.readNames, readAll, bind_ok, Unique.exists_iff, PUnit.default_eq_unit, under_key_ok, map_ok, deny_ok, ih,
        ge_iff_le, not_le, Except.ok.injEq]
      constructor
      · rintro ⟨name, made, room, names, others, rfl, bounded⟩
        refine ⟨⟨name⟩ :: names, ⟨⟨name⟩, ⟨name, made, rfl⟩, names, others, rfl⟩, by simp, Or.inr ?_⟩
        rcases bounded with empty | bounded
        · rw [empty, readAll, Except.ok.injEq] at others
          rw [← others]
          simpa using room
        · exact bounded
      · rintro ⟨names, ⟨first, ⟨name, made, rfl⟩, others, taken, rfl⟩, rfl, bounded⟩
        rcases bounded with empty | bounded
        · cases empty
        · refine ⟨name, made, ?_, others, taken, by simp, Or.inr bounded⟩
          simp only [List.length_append, List.length_cons] at bounded
          omega

-- The names a line gives under a key.
def NamesUnder {tag : IdTag} (entries : AssignmentList) (key : String) (make : Bytes → Result Bytes)
    (names : List (StrongId tag Bytes)) : Prop :=
  if entries.has key = true then readAll (fun item => (make item).map StrongId.mk) (splitList (entries.get key) 44) = .ok names
  else names = []

theorem name_list_ok {tag : IdTag} (entries : AssignmentList) (key : String) (make : Bytes → Result Bytes) (limit : Nat)
    (excess : Status) (read out : List (StrongId tag Bytes)) :
    entries.nameList key make (some (limit, excess)) read = .ok out ↔
      ∃ names, NamesUnder entries key make names ∧ read ++ names = out ∧ (names = [] ∨ out.length ≤ limit) := by
  unfold AssignmentList.nameList NamesUnder
  by_cases given : entries.has key = true
  · simp only [given, Bool.true_eq_false, if_true, if_false, read_names_ok]
    refine exists_congr fun names => and_congr_right fun taken => and_congr_right fun _ => or_congr_left ?_
    have lengths := ((read_all_ok _ _ _).mp taken).length_eq
    rw [← List.length_eq_zero_iff, ← List.length_eq_zero_iff, lengths]
  · have absent : entries.has key = false := by simpa using given
    simp only [absent, Bool.false_eq_true, if_true, if_false, Except.ok.injEq]
    constructor
    · rintro rfl
      exact ⟨[], rfl, List.append_nil _, Or.inl rfl⟩
    · rintro ⟨names, rfl, rfl, _⟩
      rw [List.append_nil]

theorem name_list_congr {tag : IdTag} (entries : AssignmentList) (key : String) (make : Bytes → Result Bytes) (limit : Nat)
    (excess : Status) (read twin out : List (StrongId tag Bytes)) (perm : read.Perm twin)
    (taken : entries.nameList key make (some (limit, excess)) read = .ok out) :
    ∃ other, entries.nameList key make (some (limit, excess)) twin = .ok other ∧ out.Perm other := by
  obtain ⟨names, under, rfl, bounded⟩ := (name_list_ok _ _ _ _ _ _ _).mp taken
  have same := perm.append_right names
  exact ⟨twin ++ names, (name_list_ok _ _ _ _ _ _ _).mpr ⟨names, under, rfl, by rwa [← same.length_eq]⟩, same⟩

theorem name_list_swap {tag : IdTag} (first second : AssignmentList) (key : String) (make : Bytes → Result Bytes) (limit : Nat)
    (excess : Status) (read middle out : List (StrongId tag Bytes))
    (taken : first.nameList key make (some (limit, excess)) read = .ok middle)
    (takenNext : second.nameList key make (some (limit, excess)) middle = .ok out) :
    ∃ between other, second.nameList key make (some (limit, excess)) read = .ok between ∧
      first.nameList key make (some (limit, excess)) between = .ok other ∧ out.Perm other := by
  obtain ⟨names, under, rfl, bounded⟩ := (name_list_ok _ _ _ _ _ _ _).mp taken
  obtain ⟨others, underNext, rfl, boundedNext⟩ := (name_list_ok _ _ _ _ _ _ _).mp takenNext
  have perm : (read ++ names ++ others).Perm (read ++ others ++ names) := by
    rw [List.append_assoc, List.append_assoc]
    exact List.perm_append_comm.append_left read
  refine ⟨read ++ others, read ++ others ++ names, (name_list_ok _ _ _ _ _ _ _).mpr ⟨others, underNext, rfl, ?_⟩,
    (name_list_ok _ _ _ _ _ _ _).mpr ⟨names, under, rfl, ?_⟩, perm⟩
  · refine boundedNext.imp_right fun bounded => ?_
    simp only [List.length_append] at bounded ⊢
    omega
  · rcases boundedNext with rfl | boundedNext
    · rwa [List.append_nil]
    · exact Or.inr (by rwa [← perm.length_eq])

-- What an optional key makes of a value: its own, where a line gives one.
def Sets {α : Type} (entries : AssignmentList) (key : String) (parse : Bytes → Option α) (current value : α) : Prop :=
  if entries.has key = true then parse (entries.get key) = some value else value = current

def SameUnder {α : Type} (left right : AssignmentList) (key : String) (parse : Bytes → Option α) : Prop :=
  left.has key = true → right.has key = true → parse (left.get key) = parse (right.get key)

theorem sets_swap {α : Type} (first second : AssignmentList) (key : String) (parse : Bytes → Option α) (current middle value : α)
    (same : SameUnder first second key parse) (taken : Sets first key parse current middle)
    (takenNext : Sets second key parse middle value) :
    ∃ between, Sets second key parse current between ∧ Sets first key parse between value := by
  unfold Sets at taken takenNext ⊢
  by_cases given : first.has key = true
  · by_cases again : second.has key = true
    · rw [if_pos given] at taken
      rw [if_pos again] at takenNext
      simp only [if_pos given, if_pos again]
      exact ⟨value, takenNext, (same given again).trans takenNext⟩
    · rw [if_neg again] at takenNext
      simp only [if_neg again, if_pos given] at taken ⊢
      exact ⟨current, rfl, takenNext ▸ taken⟩
  · rw [if_neg given] at taken
    simp only [if_neg given]
    exact ⟨value, taken ▸ takenNext, rfl⟩

def decimalNumber (number : Bytes) : Option Nat := (parseU64 number).toOption

theorem policy_number_ok (entries : AssignmentList) (key : String) (current value : Nat) :
    policyNumber entries key current = .ok value ↔ Sets entries key decimalNumber current value := by
  unfold policyNumber Sets AssignmentList.number decimalNumber
  by_cases given : entries.has key = true
  · simp only [given, Bool.true_eq_false, if_true, if_false]
    cases parsed : parseU64 (entries.get key) with
    | error status => simp [underKey, Except.toOption]
    | ok number => simp [underKey, Except.toOption]
  · have absent : entries.has key = false := by simpa using given
    simp only [absent, Bool.false_eq_true, if_true, if_false]
    exact ⟨fun same => (Except.ok.inj same).symm, fun same => congrArg Except.ok same.symm⟩

theorem named_ok {α : Type} (entries : AssignmentList) (key : String) (parse : Bytes → Option α) (current value : α)
    (error : Status) : entries.named key parse current error = .ok value ↔ Sets entries key parse current value := by
  unfold AssignmentList.named Sets
  by_cases given : entries.has key = true
  · simp only [given, Bool.true_eq_false, if_true, if_false]
    cases parse (entries.get key) with
    | none => simp
    | some found => simp
  · have absent : entries.has key = false := by simpa using given
    simp only [absent, Bool.false_eq_true, if_true, if_false, Except.ok.injEq]
    exact eq_comm

structure PolicyRead (policy : Policy) (entries : AssignmentList) (next : Policy) : Prop where
  maxHops : Sets entries "max-hops" decimalNumber policy.maxHops next.maxHops
  paths : Sets entries "paths-per-logical-edge" decimalNumber policy.pathsPerLogicalEdge next.pathsPerLogicalEdge
  latency : Sets entries "latency-weight-milli" decimalNumber policy.latencyWeightMilli next.latencyWeightMilli
  congestion : Sets entries "congestion-weight-milli" decimalNumber policy.congestionWeightMilli next.congestionWeightMilli
  maxCost : Sets entries "max-path-cost" decimalNumber policy.maxPathCost next.maxPathCost
  expansions : Sets entries "max-search-expansions" decimalNumber policy.maxSearchExpansions next.maxSearchExpansions
  disjointness : Sets entries "disjointness" parseDisjointness policy.disjointness next.disjointness
  diversity : Sets entries "domain-diversity" parseDomainDiversity policy.domainDiversity next.domainDiversity
  level : Sets entries "domain-diversity-level" parseDomainKind policy.domainDiversityLevel next.domainDiversityLevel
  evidence : Sets entries "evidence" parseEvidenceRequirement policy.evidence next.evidence
  unverified : Sets entries "allow-unverified-capacity" parseBool policy.allowUnverifiedCapacity next.allowUnverifiedCapacity
  tiers : entries.nameList "allowed-tiers" makeTierName (setBound "allowed tier set exceeds the bound") policy.allowedPathTiers =
    .ok next.allowedPathTiers
  generation : next.generation = policy.generation
  forbidden : next.forbiddenNodes = policy.forbiddenNodes ∧ next.forbiddenTiers = policy.forbiddenTiers ∧
    next.forbiddenFailureDomains = policy.forbiddenFailureDomains

theorem read_policy_ok (policy next : Policy) (entries : AssignmentList) :
    readPolicy policy entries = .ok next ↔ PolicyRead policy entries next := by
  simp only [readPolicy, bind_ok, policy_number_ok, named_ok, Except.ok.injEq]
  constructor
  · rintro ⟨_, maxHops, _, paths, _, latency, _, congestion, _, maxCost, _, expansions, _, disjointness, _, diversity, _, level, _,
      evidence, _, unverified, _, tiers, rfl⟩
    exact ⟨maxHops, paths, latency, congestion, maxCost, expansions, disjointness, diversity, level, evidence, unverified, tiers, rfl,
      rfl, rfl, rfl⟩
  · intro read
    refine ⟨_, read.maxHops, _, read.paths, _, read.latency, _, read.congestion, _, read.maxCost, _, read.expansions, _,
      read.disjointness, _, read.diversity, _, read.level, _, read.evidence, _, read.unverified, _, read.tiers, ?_⟩
    rw [← read.generation, ← read.forbidden.1, ← read.forbidden.2.1, ← read.forbidden.2.2]

-- Two lines of the policy that give one value to every key both of them set.
structure SettingsAgree (left right : AssignmentList) : Prop where
  numbers : ∀ key ∈ ["max-hops", "paths-per-logical-edge", "latency-weight-milli", "congestion-weight-milli", "max-path-cost",
    "max-search-expansions"], SameUnder left right key decimalNumber
  disjointness : SameUnder left right "disjointness" parseDisjointness
  diversity : SameUnder left right "domain-diversity" parseDomainDiversity
  level : SameUnder left right "domain-diversity-level" parseDomainKind
  evidence : SameUnder left right "evidence" parseEvidenceRequirement
  unverified : SameUnder left right "allow-unverified-capacity" parseBool

theorem SameUnder.symm {α : Type} {left right : AssignmentList} {key : String} {parse : Bytes → Option α}
    (same : SameUnder left right key parse) : SameUnder right left key parse :=
  fun given again => (same again given).symm

theorem SettingsAgree.symm (left right : AssignmentList) (agree : SettingsAgree left right) : SettingsAgree right left where
  numbers key member := (agree.numbers key member).symm
  disjointness := agree.disjointness.symm
  diversity := agree.diversity.symm
  level := agree.level.symm
  evidence := agree.evidence.symm
  unverified := agree.unverified.symm

theorem policy_congr (policy twin next : Policy) (entries : AssignmentList) (like : Policy.Rearranged policy twin)
    (taken : readPolicy policy entries = .ok next) :
    ∃ other, readPolicy twin entries = .ok other ∧ Policy.Rearranged next other := by
  have read := (read_policy_ok _ _ _).mp taken
  obtain ⟨tiers, tiersTaken, perm⟩ := name_list_congr _ _ _ _ _ _ _ _ like.allowed read.tiers
  refine ⟨{ next with
      forbiddenNodes := twin.forbiddenNodes
      forbiddenTiers := twin.forbiddenTiers
      forbiddenFailureDomains := twin.forbiddenFailureDomains
      allowedPathTiers := tiers }, (read_policy_ok _ _ _).mpr ?_, ?_⟩
  · rw [like.rest]
    exact { read with tiers := tiersTaken, forbidden := ⟨rfl, rfl, rfl⟩ }
  · refine ⟨rfl, ?_, ?_, ?_, perm⟩
    · rw [read.forbidden.1]
      exact like.nodes
    · rw [read.forbidden.2.1]
      exact like.tiers
    · rw [read.forbidden.2.2]
      exact like.domains

theorem policy_swap (policy middle next : Policy) (first second : AssignmentList) (agree : SettingsAgree first second)
    (taken : readPolicy policy first = .ok middle) (takenNext : readPolicy middle second = .ok next) :
    ∃ between other, readPolicy policy second = .ok between ∧ readPolicy between first = .ok other ∧
      Policy.Rearranged next other := by
  have read := (read_policy_ok _ _ _).mp taken
  have after := (read_policy_ok _ _ _).mp takenNext
  obtain ⟨maxHops, hopsOne, hopsTwo⟩ := sets_swap _ _ _ _ _ _ _ (agree.numbers _ (by decide)) read.maxHops after.maxHops
  obtain ⟨paths, pathsOne, pathsTwo⟩ := sets_swap _ _ _ _ _ _ _ (agree.numbers _ (by decide)) read.paths after.paths
  obtain ⟨latency, latencyOne, latencyTwo⟩ := sets_swap _ _ _ _ _ _ _ (agree.numbers _ (by decide)) read.latency after.latency
  obtain ⟨congestion, congestionOne, congestionTwo⟩ :=
    sets_swap _ _ _ _ _ _ _ (agree.numbers _ (by decide)) read.congestion after.congestion
  obtain ⟨maxCost, costOne, costTwo⟩ := sets_swap _ _ _ _ _ _ _ (agree.numbers _ (by decide)) read.maxCost after.maxCost
  obtain ⟨expansions, expansionsOne, expansionsTwo⟩ :=
    sets_swap _ _ _ _ _ _ _ (agree.numbers _ (by decide)) read.expansions after.expansions
  obtain ⟨disjointness, disjointOne, disjointTwo⟩ :=
    sets_swap _ _ _ _ _ _ _ agree.disjointness read.disjointness after.disjointness
  obtain ⟨diversity, diversityOne, diversityTwo⟩ := sets_swap _ _ _ _ _ _ _ agree.diversity read.diversity after.diversity
  obtain ⟨level, levelOne, levelTwo⟩ := sets_swap _ _ _ _ _ _ _ agree.level read.level after.level
  obtain ⟨evidence, evidenceOne, evidenceTwo⟩ := sets_swap _ _ _ _ _ _ _ agree.evidence read.evidence after.evidence
  obtain ⟨unverified, unverifiedOne, unverifiedTwo⟩ := sets_swap _ _ _ _ _ _ _ agree.unverified read.unverified after.unverified
  obtain ⟨tiers, otherTiers, tiersOne, tiersTwo, perm⟩ := name_list_swap _ _ _ _ _ _ _ _ _ read.tiers after.tiers
  refine ⟨{ policy with
      maxHops, pathsPerLogicalEdge := paths, latencyWeightMilli := latency, congestionWeightMilli := congestion
      maxPathCost := maxCost, maxSearchExpansions := expansions, disjointness, domainDiversity := diversity
      domainDiversityLevel := level, evidence, allowUnverifiedCapacity := unverified, allowedPathTiers := tiers },
    { next with allowedPathTiers := otherTiers }, (read_policy_ok _ _ _).mpr ?_, (read_policy_ok _ _ _).mpr ?_, ?_⟩
  · exact ⟨hopsOne, pathsOne, latencyOne, congestionOne, costOne, expansionsOne, disjointOne, diversityOne, levelOne, evidenceOne,
      unverifiedOne, tiersOne, rfl, rfl, rfl, rfl⟩
  · exact ⟨hopsTwo, pathsTwo, latencyTwo, congestionTwo, costTwo, expansionsTwo, disjointTwo, diversityTwo, levelTwo, evidenceTwo,
      unverifiedTwo, tiersTwo, after.generation.trans read.generation, after.forbidden.1.trans read.forbidden.1,
      after.forbidden.2.1.trans read.forbidden.2.1, after.forbidden.2.2.trans read.forbidden.2.2⟩
  · exact ⟨rfl, .refl _, .refl _, .refl _, perm⟩

theorem forbidden_congr (policy twin next : Policy) (entries : AssignmentList) (like : Policy.Rearranged policy twin)
    (taken : readForbidden policy entries = .ok next) :
    ∃ other, readForbidden twin entries = .ok other ∧ Policy.Rearranged next other := by
  simp only [readForbidden, bind_ok, Except.ok.injEq] at taken ⊢
  obtain ⟨nodes, nodesTaken, tiers, tiersTaken, domains, domainsTaken, rfl⟩ := taken
  obtain ⟨otherNodes, nodesOther, nodesPerm⟩ := name_list_congr _ _ _ _ _ _ _ _ like.nodes nodesTaken
  obtain ⟨otherTiers, tiersOther, tiersPerm⟩ := name_list_congr _ _ _ _ _ _ _ _ like.tiers tiersTaken
  obtain ⟨otherDomains, domainsOther, domainsPerm⟩ := name_list_congr _ _ _ _ _ _ _ _ like.domains domainsTaken
  refine ⟨_, ⟨otherNodes, nodesOther, otherTiers, tiersOther, otherDomains, domainsOther, rfl⟩, ?_⟩
  exact ⟨by rw [like.rest], nodesPerm, tiersPerm, domainsPerm, like.allowed⟩

theorem forbidden_swap (policy middle next : Policy) (first second : AssignmentList) (taken : readForbidden policy first = .ok middle)
    (takenNext : readForbidden middle second = .ok next) :
    ∃ between other, readForbidden policy second = .ok between ∧ readForbidden between first = .ok other ∧
      Policy.Rearranged next other := by
  simp only [readForbidden, bind_ok, Except.ok.injEq] at taken takenNext ⊢
  obtain ⟨nodes, nodesTaken, tiers, tiersTaken, domains, domainsTaken, rfl⟩ := taken
  obtain ⟨nodesNext, nodesAfter, tiersNext, tiersAfter, domainsNext, domainsAfter, rfl⟩ := takenNext
  obtain ⟨someNodes, otherNodes, nodesOne, nodesTwo, nodesPerm⟩ := name_list_swap _ _ _ _ _ _ _ _ _ nodesTaken nodesAfter
  obtain ⟨someTiers, otherTiers, tiersOne, tiersTwo, tiersPerm⟩ := name_list_swap _ _ _ _ _ _ _ _ _ tiersTaken tiersAfter
  obtain ⟨someDomains, otherDomains, domainsOne, domainsTwo, domainsPerm⟩ :=
    name_list_swap _ _ _ _ _ _ _ _ _ domainsTaken domainsAfter
  exact ⟨_, _, ⟨someNodes, nodesOne, someTiers, tiersOne, someDomains, domainsOne, rfl⟩,
    ⟨otherNodes, nodesTwo, otherTiers, tiersTwo, otherDomains, domainsTwo, rfl⟩, rfl, nodesPerm, tiersPerm, domainsPerm, .refl _⟩

-- Lines of assignments that change the policy may change places where what they read may.
theorem policy_lines_commute (keys : List String) (read : Policy → AssignmentList → Result Policy)
    (agree : AssignmentList → AssignmentList → Prop) (symm : ∀ left right, agree left right → agree right left)
    (congr : ∀ policy twin next entries, Policy.Rearranged policy twin → read policy entries = .ok next →
      ∃ other, read twin entries = .ok other ∧ Policy.Rearranged next other)
    (swap : ∀ policy middle next first second, agree first second → read policy first = .ok middle →
      read middle second = .ok next → ∃ between other, read policy second = .ok between ∧ read between first = .ok other ∧ Policy.Rearranged next other)
    (step : RequestSpec → Bytes → Result RequestSpec)
    (stepped : ∀ spec line next, step spec line = .ok next ↔ ∃ entries, AssignmentList.parse line = .ok entries ∧
      entries.rejectUnknown keys = .ok () ∧ ∃ policy, read spec.policy entries = .ok policy ∧ { spec with policy } = next) :
    Commuting step Relisted fun left right => ∀ entries others, AssignmentList.parse left = .ok entries →
      AssignmentList.parse right = .ok others → agree entries others where
  same := Relisted.refl
  trans := Relisted.trans
  symm _ _ agreed entries others parsed parsedOther := symm _ _ (agreed others entries parsedOther parsed)
  congr := by
    intro spec twin line next like taken
    obtain ⟨entries, parsed, known, policy, readIt, rfl⟩ := (stepped _ _ _).mp taken
    obtain ⟨other, readOther, closer⟩ := congr _ _ _ entries like.policy readIt
    exact ⟨_, (stepped _ _ _).mpr ⟨entries, parsed, known, other, readOther, rfl⟩, { like with policy := closer }⟩
  swap := by
    intro spec first second middle next agreed taken takenNext
    obtain ⟨entries, parsed, known, policy, readIt, rfl⟩ := (stepped _ _ _).mp taken
    obtain ⟨others, parsedOther, knownOther, last, readLast, rfl⟩ := (stepped _ _ _).mp takenNext
    obtain ⟨between, other, one, two, like⟩ := swap _ _ _ entries others (agreed entries others parsed parsedOther) readIt readLast
    exact ⟨_, _, (stepped _ _ _).mpr ⟨others, parsedOther, knownOther, between, one, rfl⟩,
      (stepped _ _ _).mpr ⟨entries, parsed, known, other, two, rfl⟩, { Relisted.refl spec with policy := like }⟩

def PoliciesAgree (left right : Bytes) : Prop :=
  ∀ entries others, AssignmentList.parse left = .ok entries → AssignmentList.parse right = .ok others →
    SettingsAgree entries others

theorem policy_line_ok (spec : RequestSpec) (line : Bytes) (next : RequestSpec) :
    handlePolicy spec line = .ok next ↔ ∃ entries, AssignmentList.parse line = .ok entries ∧
      entries.rejectUnknown policyKeys = .ok () ∧
      ∃ policy, readPolicy spec.policy entries = .ok policy ∧ { spec with policy } = next := by
  simp only [handlePolicy, bind_ok, Unique.exists_iff, PUnit.default_eq_unit, Except.ok.injEq]

theorem forbidden_line_ok (spec : RequestSpec) (line : Bytes) (next : RequestSpec) :
    handleForbidden spec line = .ok next ↔ ∃ entries, AssignmentList.parse line = .ok entries ∧
      entries.rejectUnknown ["nodes", "tiers", "domains"] = .ok () ∧
      ∃ policy, readForbidden spec.policy entries = .ok policy ∧ { spec with policy } = next := by
  simp only [handleForbidden, bind_ok, Unique.exists_iff, PUnit.default_eq_unit, Except.ok.injEq]

theorem policies_commute : Commuting handlePolicy Relisted PoliciesAgree :=
  policy_lines_commute policyKeys readPolicy SettingsAgree SettingsAgree.symm policy_congr policy_swap handlePolicy policy_line_ok

theorem forbidden_commute : Commuting handleForbidden Relisted fun _ _ => True := by
  have commuting := policy_lines_commute ["nodes", "tiers", "domains"] readForbidden (fun _ _ => True) (fun _ _ _ => trivial)
    forbidden_congr (fun policy middle next first second _ => forbidden_swap policy middle next first second) handleForbidden
    forbidden_line_ok
  exact { commuting with
    symm := fun _ _ _ => trivial
    swap := fun spec first second middle next _ => commuting.swap spec first second middle next fun _ _ _ _ => trivial }

-- Two readers that have read the same lines, those of a section in an order of its own.
structure ReaderAlike (left right : ReaderState) : Prop where
  banner : right.bannerSeen = left.bannerSeen
  collective : right.collectiveSeen = left.collectiveSeen
  current : right.sectionName = left.sectionName
  seen : right.sectionSeen = left.sectionSeen
  spec : Relisted left.spec right.spec

theorem ReaderAlike.refl (state : ReaderState) : ReaderAlike state state := ⟨rfl, rfl, rfl, rfl, Relisted.refl _⟩

theorem ReaderAlike.trans (first second third : ReaderState) (before : ReaderAlike first second) (after : ReaderAlike second third) :
    ReaderAlike first third :=
  ⟨after.banner.trans before.banner, after.collective.trans before.collective, after.current.trans before.current,
    after.seen.trans before.seen, Relisted.trans _ _ _ before.spec after.spec⟩

def changing (step : RequestSpec → Bytes → Result RequestSpec) (state : ReaderState) (line : Bytes) : Result ReaderState :=
  (step state.spec line).map fun spec => { state with spec }

theorem changing_commutes (step : RequestSpec → Bytes → Result RequestSpec) (apart : Bytes → Bytes → Prop)
    (commuting : Commuting step Relisted apart) : Commuting (changing step) ReaderAlike apart where
  same := ReaderAlike.refl
  trans := ReaderAlike.trans
  symm := commuting.symm
  congr := by
    intro state twin line next like taken
    obtain ⟨spec, stepped, rfl⟩ := (map_ok _ _ _).mp taken
    obtain ⟨other, steppedOther, closer⟩ := commuting.congr _ _ line spec like.spec stepped
    exact ⟨_, (map_ok _ _ _).mpr ⟨other, steppedOther, rfl⟩, { like with spec := closer }⟩
  swap := by
    intro state first second middle next away taken takenNext
    obtain ⟨spec, stepped, rfl⟩ := (map_ok _ _ _).mp taken
    obtain ⟨last, steppedNext, rfl⟩ := (map_ok _ _ _).mp takenNext
    obtain ⟨between, other, one, two, like⟩ := commuting.swap _ first second spec last away stepped steppedNext
    exact ⟨_, _, (map_ok _ _ _).mpr ⟨between, one, rfl⟩, (map_ok _ _ _).mpr ⟨other, two, rfl⟩,
      { ReaderAlike.refl state with spec := like }⟩

theorem read_collective_ok (entries : AssignmentList) (collective next : CollectiveSpec) :
    readCollective entries collective = .ok next ↔ Sets entries "kind" parseCollectiveKind collective.kind next.kind ∧
      entries.number "demand" 0 false = .ok next.demandMbps ∧ next.demandMbps ≤ kMaxCapacityMbps ∧ next.id = collective.id ∧
      next.groups = collective.groups := by
  simp only [readCollective, bind_ok, Unique.exists_iff, PUnit.default_eq_unit, named_ok, deny_ok, gt_iff_lt, not_lt, Except.ok.injEq]
  constructor
  · rintro ⟨kind, sets, demand, read, few, rfl⟩
    exact ⟨sets, read, few, rfl, rfl⟩
  · rintro ⟨sets, read, few, id, groups⟩
    refine ⟨_, sets, _, read, few, ?_⟩
    rw [← id, ← groups]

theorem handle_collective_ok (state next : ReaderState) (line : Bytes) :
    handleCollective state line = .ok next ↔ ∃ entries id collective, AssignmentList.parse line = .ok entries ∧
      entries.rejectUnknown ["id", "kind", "demand"] = .ok () ∧ entries.require "id" = .ok () ∧
      makeIdentifier (entries.get "id") = .ok id ∧ state.collectiveSeen = false ∧
      readCollective entries { state.spec.collective with id := ⟨id⟩ } = .ok collective ∧
      { state with collectiveSeen := true, spec := { state.spec with collective } } = next := by
  simp only [handleCollective, bind_ok, Unique.exists_iff, PUnit.default_eq_unit, under_key_ok, deny_ok, Bool.not_eq_true,
    Except.ok.injEq]
  constructor
  · rintro ⟨entries, parsed, known, named, id, made, unseen, collective, read, rfl⟩
    exact ⟨entries, id, collective, parsed, known, named, made, unseen, read, rfl⟩
  · rintro ⟨entries, id, collective, parsed, known, named, made, unseen, read, rfl⟩
    exact ⟨entries, parsed, known, named, id, made, unseen, collective, read, rfl⟩

-- A collective is declared on one line, so there is nothing for the line to change places with.
theorem collective_commutes : Commuting handleCollective ReaderAlike fun _ _ => True where
  same := ReaderAlike.refl
  trans := ReaderAlike.trans
  symm _ _ _ := trivial
  congr := by
    intro state twin line next like taken
    obtain ⟨entries, id, collective, parsed, known, named, made, unseen, read, rfl⟩ := (handle_collective_ok _ _ _).mp taken
    obtain ⟨kind, demand, few, same, groups⟩ := (read_collective_ok _ _ _).mp read
    refine ⟨_, (handle_collective_ok _ _ _).mpr ⟨entries, id, { collective with groups := twin.spec.collective.groups }, parsed, known,
      named, made, like.collective.trans unseen, (read_collective_ok _ _ _).mpr ⟨?_, demand, few, same, rfl⟩, rfl⟩, ?_⟩
    · change Sets entries "kind" parseCollectiveKind twin.spec.collective.kind collective.kind
      rw [like.spec.kind]
      exact kind
    · refine ⟨like.banner, rfl, like.current, like.seen, { like.spec with id := rfl, kind := rfl, demand := rfl, groups := ?_ }⟩
      change collective.groups.Perm twin.spec.collective.groups
      rw [groups]
      exact like.spec.groups
  swap := by
    intro state first second middle next _ taken takenNext
    obtain ⟨_, _, _, _, _, _, _, _, _, rfl⟩ := (handle_collective_ok _ _ _).mp taken
    obtain ⟨_, _, _, _, _, _, _, unseen, _⟩ := (handle_collective_ok _ _ _).mp takenNext
    cases unseen

-- The lines of one place in the document: the header, or a section.
def handleWithin (place : Option SectionName) (state : ReaderState) (line : Bytes) : Result ReaderState :=
  match place with
  | none => changing handleHeader state line
  | some sectionName => handleEntry state sectionName line

-- Two lines of one place that may change places: they give one value to what both of them set.
def Agree : Option SectionName → Bytes → Bytes → Prop
  | none, left, right => HeadersAgree left right
  | some .policy, left, right => PoliciesAgree left right
  | some _, _, _ => True

theorem within_commutes (place : Option SectionName) : Commuting (handleWithin place) ReaderAlike (Agree place) := by
  cases place with
  | none => exact changing_commutes _ _ headers_commute
  | some sectionName =>
      cases sectionName with
      | collective => exact collective_commutes
      | groups => exact changing_commutes _ _ groups_commute
      | domains => exact changing_commutes _ _ (item_commutes _ _ domain_slot_lawful _ _ _)
      | nodes => exact changing_commutes _ _ (item_commutes _ _ node_slot_lawful _ _ _)
      | edges => exact changing_commutes _ _ (item_commutes _ _ edge_slot_lawful _ _ _)
      | bindings => exact changing_commutes _ _ (item_commutes _ _ binding_slot_lawful _ _ _)
      | policy => exact changing_commutes _ _ policies_commute
      | forbidden => exact changing_commutes _ _ forbidden_commute

end Dsl

end PathPlanner

import PathPlanner.Dsl.Steps
import PathPlanner.GroupIds

set_option autoImplicit false

namespace PathPlanner

open Checks

def DistinctIds (groups : List GroupSpec) : Prop := (groups.map GroupSpec.id).Nodup

namespace Dsl

-- What a line does to the groups read before it.
inductive GroupStep (before : List GroupSpec) : List GroupSpec → Prop where
  | kept : GroupStep before before
  | added (group : GroupSpec) (fresh : group.id ∉ before.map GroupSpec.id) : GroupStep before (before ++ [group])

theorem distinct_added (groups : List GroupSpec) (group : GroupSpec) (distinct : DistinctIds groups) :
    DistinctIds (groups ++ [group]) ↔ group.id ∉ groups.map GroupSpec.id := by
  rw [DistinctIds, List.map_append, List.nodup_append]
  constructor
  · rintro ⟨_, _, apart⟩ member
    exact apart group.id member group.id List.mem_cons_self rfl
  · intro fresh
    refine ⟨distinct, List.nodup_singleton group.id, fun one inside two last same => ?_⟩
    rw [List.mem_singleton.mp last] at same
    exact fresh (same ▸ inside)

theorem group_step_distinct (before after : List GroupSpec) (step : GroupStep before after) (distinct : DistinctIds before) :
    DistinctIds after := by
  cases step with
  | kept => exact distinct
  | added group fresh => exact (distinct_added before group distinct).mpr fresh

theorem set_header_collective (spec : RequestSpec) (keyword : HeaderKeyword) (number : UInt64) :
    (setHeader spec keyword number).collective = spec.collective := by
  cases keyword <;> rfl

-- The records of the other sections leave the collective alone.
theorem item_collective {α : Type} (keys : List String) (slot : Slot α) (limit : Nat) (excess : Status)
    (read : Bytes → AssignmentList → Result α) (spec next : RequestSpec) (line : Bytes)
    (apart : ∀ spec items, (slot.put spec items).collective = spec.collective)
    (handled : handleRecord spec line (handleItem keys slot limit excess read) = .ok next) : next.collective = spec.collective := by
  obtain ⟨_, _, _, _, handled⟩ := (handle_record_ok _ _ _ _).mp handled
  obtain ⟨_, _, _, _, rfl⟩ := (handle_item_ok _ _ _ _ _ _ _ _ _).mp handled
  exact apart spec _

theorem policy_collective (spec next : RequestSpec) (line : Bytes) (handled : handlePolicy spec line = .ok next) :
    next.collective = spec.collective := by
  simp only [handlePolicy, bind_ok, Except.ok.injEq] at handled
  obtain ⟨_, _, _, _, _, _, rfl⟩ := handled
  rfl

theorem forbidden_collective (spec next : RequestSpec) (line : Bytes) (handled : handleForbidden spec line = .ok next) :
    next.collective = spec.collective := by
  simp only [handleForbidden, bind_ok, Except.ok.injEq] at handled
  obtain ⟨_, _, _, _, _, _, rfl⟩ := handled
  rfl

theorem collective_groups (state next : ReaderState) (line : Bytes) (handled : handleCollective state line = .ok next) :
    next.spec.collective.groups = state.spec.collective.groups := by
  simp only [handleCollective, readCollective, bind_ok, Except.ok.injEq] at handled
  obtain ⟨_, _, _, _, _, _, _, _, _, _, _, ⟨_, _, _, _, _, _, rfl⟩, rfl⟩ := handled
  rfl

theorem record_groups (spec next : RequestSpec) (line : Bytes) (handled : handleRecord spec line handleGroup = .ok next) :
    GroupStep spec.collective.groups next.collective.groups := by
  obtain ⟨id, entries, _, _, handled⟩ := (handle_record_ok _ _ _ _).mp handled
  obtain ⟨_, _, fresh, group, read, rfl⟩ := (handle_group_ok _ _ _ _).mp handled
  rw [← read_group_id id entries group read] at fresh
  exact .added group fresh

theorem entry_groups (state next : ReaderState) (sectionName : SectionName) (line : Bytes)
    (handled : handleEntry state sectionName line = .ok next) :
    GroupStep state.spec.collective.groups next.spec.collective.groups := by
  have same (spec : RequestSpec) (kept : spec.collective = state.spec.collective) :
      GroupStep state.spec.collective.groups spec.collective.groups := by
    rw [kept]
    exact .kept
  simp only [handleEntry] at handled
  cases sectionName with
  | collective =>
      rw [collective_groups state next line handled]
      exact .kept
  | groups =>
      obtain ⟨spec, read, rfl⟩ := (map_ok _ _ _).mp handled
      exact record_groups state.spec spec line read
  | domains =>
      obtain ⟨spec, read, rfl⟩ := (map_ok _ _ _).mp handled
      exact same spec (item_collective _ domainSlot _ _ _ _ _ line (fun _ _ => rfl) read)
  | nodes =>
      obtain ⟨spec, read, rfl⟩ := (map_ok _ _ _).mp handled
      exact same spec (item_collective _ nodeSlot _ _ _ _ _ line (fun _ _ => rfl) read)
  | edges =>
      obtain ⟨spec, read, rfl⟩ := (map_ok _ _ _).mp handled
      exact same spec (item_collective _ edgeSlot _ _ _ _ _ line (fun _ _ => rfl) read)
  | bindings =>
      obtain ⟨spec, read, rfl⟩ := (map_ok _ _ _).mp handled
      exact same spec (item_collective _ bindingSlot _ _ _ _ _ line (fun _ _ => rfl) read)
  | policy =>
      obtain ⟨spec, read, rfl⟩ := (map_ok _ _ _).mp handled
      exact same spec (policy_collective _ _ line read)
  | forbidden =>
      obtain ⟨spec, read, rfl⟩ := (map_ok _ _ _).mp handled
      exact same spec (forbidden_collective _ _ line read)

theorem handle_section_spec (state next : ReaderState) (line : Bytes) (handled : handleSection state line = .ok next) :
    next.spec = state.spec := by
  simp only [handleSection, bind_ok] at handled
  obtain ⟨_, _, _, _, named⟩ := handled
  cases parsed : parseSectionName ((line.drop 1).take (line.length - 2)) with
  | none =>
      rw [parsed] at named
      cases named
  | some sectionName =>
      rw [parsed] at named
      obtain ⟨_, _, opened⟩ := (bind_ok _ _ _).mp named
      exact (Except.ok.inj opened) ▸ rfl

theorem line_groups (state next : ReaderState) (line : Bytes) (handled : handleLine state line = .ok next) :
    GroupStep state.spec.collective.groups next.spec.collective.groups := by
  cases (handle_line_ok state next line).mp handled with
  | title _ _ titled =>
      have spec := handle_section_spec state next line titled
      rw [spec]
      exact .kept
  | banner _ _ _ => exact .kept
  | header spec _ _ _ read =>
      simp only [handleHeader, bind_ok, Except.ok.injEq] at read
      obtain ⟨pair, _, rfl⟩ := read
      rw [set_header_collective]
      exact .kept
  | entry sectionName _ _ _ _ entered => exact entry_groups state next sectionName line entered

-- Every text that is read names each group once.
theorem parsed_distinct (input : Bytes) (spec : RequestSpec) (parsed : parseRequestSpec input = .ok spec) :
    DistinctIds spec.collective.groups := by
  obtain ⟨final, accepted, rfl⟩ := (parse_request_spec_ok input spec).mp parsed
  refine run_invariant (fun state => DistinctIds state.spec.collective.groups) ?_ _ {} final List.nodup_nil accepted.run
  intro state line next distinct handled
  exact group_step_distinct _ _ (line_groups state next line handled) distinct

-- A further group is taken exactly where the identities stay distinct.
theorem group_taken_iff (spec : RequestSpec) (id : Bytes) (entries : AssignmentList) (group : GroupSpec)
    (distinct : DistinctIds spec.collective.groups) (known : entries.rejectUnknown ["level", "pattern", "root", "direction", "members"] = .ok ())
    (room : spec.collective.groups.length < kMaxGroups) (read : readGroup id entries = .ok group) :
    (∃ next, handleGroup spec id entries = .ok next) ↔ DistinctIds (spec.collective.groups ++ [group]) := by
  rw [distinct_added _ group distinct, read_group_id id entries group read]
  constructor
  · rintro ⟨next, handled⟩
    exact ((handle_group_ok _ _ _ _).mp handled).2.2.1
  · intro fresh
    exact ⟨_, (handle_group_ok _ _ _ _).mpr ⟨known, room, fresh, group, read, rfl⟩⟩

end Dsl

namespace Collective

theorem distinct_apart (groups : List GroupSpec) (distinct : DistinctIds groups) : ¬ Neighbouring groups := by
  rintro ⟨front, first, second, back, sorted, same⟩
  have perm := (List.perm_insertionSort groupNotAfter groups).map GroupSpec.id
  have ordered := perm.nodup_iff.mpr distinct
  rw [sorted, List.map_append, List.map_cons, List.map_cons, same] at ordered
  have inside := (List.nodup_append.mp ordered).2.1
  exact (List.nodup_cons.mp inside).1 List.mem_cons_self

def pairNamed (name : String) (level : Nat) : GroupSpec where
  id := ⟨text name⟩
  level
  pattern := .pairwise
  members := [⟨text "p"⟩, ⟨text "q"⟩]

-- The middle group comes between the two of one identity.
def layered : CollectiveSpec where
  id := ⟨text "c"⟩
  groups := [pairNamed "a" 0, pairNamed "b" 1, pairNamed "a" 2]

-- Build asks for distinct identities only of neighbours, the reader of all groups.
theorem group_ids_unique_iff (spec : CollectiveSpec) :
    (((∃ collective, build spec = .ok collective) → DistinctIds spec.groups) ↔
      (Admissible spec → DistinctIds spec.groups ∨ Neighbouring spec.groups)) ∧
    (Admissible spec → DistinctIds spec.groups → ∃ collective, build spec = .ok collective) ∧
    ∀ input request, Dsl.parseRequestSpec input = .ok request → DistinctIds request.collective.groups := by
  rw [build_accepts]
  refine ⟨?_, fun admissible distinct => ⟨admissible, distinct_apart _ distinct⟩, Dsl.parsed_distinct⟩
  constructor
  · intro unique admissible
    by_cases neighbouring : Neighbouring spec.groups
    · exact Or.inr neighbouring
    · exact Or.inl (unique ⟨admissible, neighbouring⟩)
  · rintro exact ⟨admissible, apart⟩
    exact (exact admissible).resolve_right apart

theorem split_ids_accepted : ¬ ∀ spec : CollectiveSpec, (∃ collective, build spec = .ok collective) → DistinctIds spec.groups := by
  intro unique
  have accepted : (build layered).toBool = true := by decide +kernel
  have distinct : DistinctIds layered.groups := by
    apply unique
    cases built : build layered with
    | ok collective => exact ⟨collective, rfl⟩
    | error status =>
        rw [built] at accepted
        cases accepted
  exact absurd distinct (show ¬ (layered.groups.map GroupSpec.id).Nodup by decide)

end Collective

end PathPlanner

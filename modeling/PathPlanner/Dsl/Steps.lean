import PathPlanner.Dsl.Reader
import PathPlanner.Lib.Permuted

set_option autoImplicit false

namespace PathPlanner

open Checks Permuted

namespace Dsl

-- The lines the reader looks at: neither blank nor a comment.
def significant (raws : List Bytes) : List Bytes := (raws.map trimmed).filter fun line => !isSkipped line

theorem at_line_ok {α : Type} (number : Nat) (outcome : Result α) (value : α) :
    atLine number outcome = .ok value ↔ outcome = .ok value := by
  unfold atLine
  cases outcome with
  | error status => simp
  | ok found => simp

theorem under_key_ok {α : Type} (key : Bytes) (outcome : Result α) (value : α) :
    underKey key outcome = .ok value ↔ outcome = .ok value := by
  unfold underKey
  cases outcome with
  | error status => simp
  | ok found => simp

theorem map_ok {α β : Type} (outcome : Result α) (change : α → β) (value : β) :
    outcome.map change = .ok value ↔ ∃ found, outcome = .ok found ∧ change found = value := by
  cases outcome with
  | error status => simp [Except.map]
  | ok found => simp [Except.map]

theorem read_lines_ok (raws : List Bytes) (state final : ReaderState) (number : Nat) :
    readLines state number raws = .ok final ↔
      (∀ raw ∈ raws, raw.length ≤ kMaxTextLineBytes) ∧ runAll handleLine state (significant raws) = .ok final := by
  induction raws generalizing state number with
  | nil => simp [readLines, significant, runAll]
  | cons raw rest ih =>
      simp only [readLines, then_ok, deny_ok, gt_iff_lt, not_lt, List.forall_mem_cons, and_assoc]
      refine and_congr_right fun _ => ?_
      by_cases skipped : isSkipped (trimmed raw) = true
      · have same : significant (raw :: rest) = significant rest := by simp [significant, skipped]
        rw [if_pos skipped, ih, same]
      · have same : significant (raw :: rest) = trimmed raw :: significant rest := by simp [significant, skipped]
        rw [if_neg skipped, same]
        simp only [bind_ok, at_line_ok, ih, runAll]
        constructor
        · rintro ⟨next, stepped, short, run⟩
          exact ⟨short, next, stepped, run⟩
        · rintro ⟨short, next, stepped, run⟩
          exact ⟨next, stepped, short, run⟩

-- An accepted text, as a run over its lines.
structure Accepted (input : Bytes) (final : ReaderState) : Prop where
  size : input.length ≤ kMaxInputBytes
  some : input ≠ []
  short : ∀ raw ∈ input.splitOn 10, raw.length ≤ kMaxTextLineBytes
  run : runAll handleLine {} (significant (input.splitOn 10)) = .ok final
  banner : final.bannerSeen = true

theorem parse_request_spec_ok (input : Bytes) (spec : RequestSpec) :
    parseRequestSpec input = .ok spec ↔ ∃ final, Accepted input final ∧ final.spec = spec := by
  unfold parseRequestSpec
  simp only [deny_ok, bind_ok, read_lines_ok, gt_iff_lt, not_lt, Unique.exists_iff, PUnit.default_eq_unit,
    Bool.not_eq_false, Except.ok.injEq]
  constructor
  · rintro ⟨size, some, final, ⟨short, run⟩, banner, same⟩
    exact ⟨final, ⟨size, some, short, run, banner⟩, same⟩
  · rintro ⟨final, accepted, same⟩
    exact ⟨accepted.size, accepted.some, final, ⟨accepted.short, accepted.run⟩, accepted.banner, same⟩

theorem run_invariant (holds : ReaderState → Prop) (kept : ∀ state line next, holds state →
    handleLine state line = .ok next → holds next) (lines : List Bytes) (state final : ReaderState) (initial : holds state)
    (run : runAll handleLine state lines = .ok final) : holds final := by
  induction lines generalizing state with
  | nil => exact Except.ok.inj run ▸ initial
  | cons line rest ih =>
      obtain ⟨next, stepped, later⟩ := (bind_ok _ _ _).mp run
      exact ih next (kept state line next initial stepped) later

-- What a line can do to the state of the reader.
inductive LineStep (state : ReaderState) (line : Bytes) : ReaderState → Prop where
  | title (next : ReaderState) (isTitle : isSectionLine line = true) (handled : handleSection state line = .ok next) :
      LineStep state line next
  | banner (plain : isSectionLine line = false) (unseen : state.bannerSeen = false) (handled : handleBanner line = .ok ()) :
      LineStep state line { state with bannerSeen := true }
  | header (spec : RequestSpec) (plain : isSectionLine line = false) (seen : state.bannerSeen = true)
      (outside : state.sectionName = none) (handled : handleHeader state.spec line = .ok spec) :
      LineStep state line { state with spec }
  | entry (sectionName : SectionName) (next : ReaderState) (plain : isSectionLine line = false) (seen : state.bannerSeen = true)
      (inside : state.sectionName = some sectionName) (handled : handleEntry state sectionName line = .ok next) :
      LineStep state line next

theorem handle_line_ok (state next : ReaderState) (line : Bytes) :
    handleLine state line = .ok next ↔ LineStep state line next := by
  unfold handleLine
  constructor
  · intro handled
    by_cases isTitle : isSectionLine line = true
    · rw [if_pos isTitle] at handled
      exact .title next isTitle handled
    · have plain : isSectionLine line = false := by simpa using isTitle
      rw [if_neg isTitle] at handled
      by_cases unseen : state.bannerSeen = false
      · rw [if_pos unseen, map_ok] at handled
        obtain ⟨_, handled, rfl⟩ := handled
        exact .banner plain unseen handled
      · have seen : state.bannerSeen = true := by simpa using unseen
        rw [if_neg unseen] at handled
        split at handled
        · rename_i outside
          obtain ⟨spec, read, rfl⟩ := (map_ok _ _ _).mp handled
          exact .header spec plain seen outside read
        · rename_i sectionName inside
          exact .entry sectionName next plain seen inside handled
  · intro step
    cases step with
    | title _ isTitle handled => rw [if_pos isTitle, handled]
    | banner plain unseen handled =>
        rw [if_neg (by simp [plain]), if_pos unseen, handled]
        rfl
    | header spec plain seen outside handled =>
        rw [if_neg (by simp [plain]), if_neg (by simp [seen]), outside]
        simp only [handled]
        exact congrArg Except.ok (by rw [← outside])
    | entry sectionName _ plain seen inside handled =>
        rw [if_neg (by simp [plain]), if_neg (by simp [seen]), inside]
        exact handled

theorem handle_record_ok (spec next : RequestSpec) (line : Bytes)
    (handle : RequestSpec → Bytes → AssignmentList → Result RequestSpec) :
    handleRecord spec line handle = .ok next ↔ ∃ id entries, makeIdentifier (firstWord line) = .ok id ∧
      AssignmentList.parse (afterWord line) = .ok entries ∧ handle spec id entries = .ok next := by
  simp only [handleRecord, bind_ok, under_key_ok, exists_and_left]

theorem read_group_id (id : Bytes) (entries : AssignmentList) (group : GroupSpec) (read : readGroup id entries = .ok group) :
    group.id = ⟨id⟩ := by
  simp only [readGroup, bind_ok, Except.ok.injEq] at read
  obtain ⟨_, _, _, _, _, _, _, _, _, _, _, _, _, _, rfl⟩ := read
  rfl

theorem handle_group_ok (spec next : RequestSpec) (id : Bytes) (entries : AssignmentList) :
    handleGroup spec id entries = .ok next ↔ entries.rejectUnknown ["level", "pattern", "root", "direction", "members"] = .ok () ∧
      spec.collective.groups.length < kMaxGroups ∧ ⟨id⟩ ∉ spec.collective.groups.map GroupSpec.id ∧
      ∃ group, readGroup id entries = .ok group ∧ groupSlot.put spec (spec.collective.groups ++ [group]) = next := by
  simp only [handleGroup, bind_ok, Unique.exists_iff, PUnit.default_eq_unit, deny_ok, ge_iff_le, not_le, Except.ok.injEq]

theorem handle_item_ok {α : Type} (keys : List String) (slot : Slot α) (limit : Nat) (excess : Status)
    (read : Bytes → AssignmentList → Result α) (spec next : RequestSpec) (id : Bytes) (entries : AssignmentList) :
    handleItem keys slot limit excess read spec id entries = .ok next ↔ entries.rejectUnknown keys = .ok () ∧
      (slot.items spec).length < limit ∧ ∃ item, read id entries = .ok item ∧ slot.put spec (slot.items spec ++ [item]) = next := by
  simp only [handleItem, bind_ok, Unique.exists_iff, PUnit.default_eq_unit, deny_ok, ge_iff_le, not_le, Except.ok.injEq]

end Dsl

end PathPlanner

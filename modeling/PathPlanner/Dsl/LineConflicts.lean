import PathPlanner.Dsl.LineOrder

set_option autoImplicit false

namespace PathPlanner

open Checks Permuted

-- A policy without its lists and its generation.
def Policy.bare (policy : Policy) : Policy :=
  { policy with
    generation := ⟨0⟩
    forbiddenNodes := []
    forbiddenTiers := []
    forbiddenFailureDomains := []
    allowedPathTiers := [] }

namespace Dsl

def headerValue (keyword : HeaderKeyword) (spec : RequestSpec) : UInt64 :=
  match keyword with
  | .planGeneration => spec.planGeneration.value
  | .topologyGeneration => spec.fabric.topologyGeneration.value
  | .failureDomainGeneration => spec.fabric.failureDomainGeneration.value
  | .capacityEvidenceGeneration => spec.fabric.capacityEvidenceGeneration.value
  | .policyGeneration => spec.policy.generation.value

-- Descriptions in which every header keyword and every single-valued key of the policy has one value.
structure SameSettings (left right : RequestSpec) : Prop where
  headers : ∀ keyword, headerValue keyword left = headerValue keyword right
  policy : left.policy.bare = right.policy.bare

-- A value that the lines of one place give, and the lines of no other change.
structure SetBy (place : Option SectionName) {β : Type} (value : RequestSpec → β) (gives : Bytes → β → Prop) : Prop where
  taken : ∀ state line next number, gives line number → handleWithin place state line = .ok next → value next.spec = number
  kept : ∀ other state line next, other ≠ place → handleWithin other state line = .ok next → value next.spec = value state.spec
  told : ∀ left right, SameSettings left right → value left = value right

theorem header_set (spec : RequestSpec) (keyword : HeaderKeyword) (number : UInt64) :
    headerValue keyword (setHeader spec keyword number) = number := by
  cases keyword <;> rfl

theorem header_bare (spec : RequestSpec) (keyword : HeaderKeyword) (number : UInt64) :
    (setHeader spec keyword number).policy.bare = spec.policy.bare := by
  cases keyword <;> rfl

theorem item_settings {α : Type} (keys : List String) (slot : Slot α) (limit : Nat) (excess : Status)
    (read : Bytes → AssignmentList → Result α) (spec next : RequestSpec) (line : Bytes)
    (put : ∀ spec items, SameSettings (slot.put spec items) spec)
    (handled : handleRecord spec line (handleItem keys slot limit excess read) = .ok next) : SameSettings next spec := by
  obtain ⟨_, _, _, rfl⟩ := (item_line_ok keys slot limit excess read spec line next).mp handled
  exact put _ _

theorem same_headers (left right : RequestSpec) (generation : left.planGeneration = right.planGeneration)
    (topology : left.fabric.topologyGeneration = right.fabric.topologyGeneration)
    (failureDomain : left.fabric.failureDomainGeneration = right.fabric.failureDomainGeneration)
    (capacityEvidence : left.fabric.capacityEvidenceGeneration = right.fabric.capacityEvidenceGeneration)
    (policy : left.policy.generation = right.policy.generation) (keyword : HeaderKeyword) :
    headerValue keyword left = headerValue keyword right := by
  cases keyword with
  | planGeneration => exact congrArg StrongId.value generation
  | topologyGeneration => exact congrArg StrongId.value topology
  | failureDomainGeneration => exact congrArg StrongId.value failureDomain
  | capacityEvidenceGeneration => exact congrArg StrongId.value capacityEvidence
  | policyGeneration => exact congrArg StrongId.value policy

theorem put_settings (left right : RequestSpec) (policy : left.policy = right.policy)
    (generation : left.planGeneration = right.planGeneration)
    (topology : left.fabric.topologyGeneration = right.fabric.topologyGeneration)
    (failureDomain : left.fabric.failureDomainGeneration = right.fabric.failureDomainGeneration)
    (capacityEvidence : left.fabric.capacityEvidenceGeneration = right.fabric.capacityEvidenceGeneration) :
    SameSettings left right :=
  ⟨same_headers left right generation topology failureDomain capacityEvidence (by rw [policy]), by rw [policy]⟩

-- The header sets the generations, the policy section the policy, and no other section sets either.
theorem section_settings (state next : ReaderState) (sectionName : SectionName) (line : Bytes)
    (handled : handleEntry state sectionName line = .ok next) :
    (∀ keyword, headerValue keyword next.spec = headerValue keyword state.spec) ∧
      (sectionName ≠ .policy → next.spec.policy.bare = state.spec.policy.bare) := by
  have both (same : SameSettings next.spec state.spec) :
      (∀ keyword, headerValue keyword next.spec = headerValue keyword state.spec) ∧
      (sectionName ≠ .policy → next.spec.policy.bare = state.spec.policy.bare) := ⟨same.headers, fun _ => same.policy⟩
  cases sectionName with
  | collective =>
      obtain ⟨_, _, _, _, _, _, _, _, _, rfl⟩ := (handle_collective_ok _ _ _).mp handled
      exact both (put_settings _ _ rfl rfl rfl rfl rfl)
  | groups =>
      obtain ⟨spec, read, rfl⟩ := (map_ok _ _ _).mp handled
      obtain ⟨_, _, _, rfl⟩ := (group_line_ok _ _ _).mp read
      exact both (put_settings _ _ rfl rfl rfl rfl rfl)
  | domains =>
      obtain ⟨spec, read, rfl⟩ := (map_ok _ _ _).mp handled
      exact both (item_settings _ domainSlot _ _ _ _ _ line (fun _ _ => put_settings _ _ rfl rfl rfl rfl rfl) read)
  | nodes =>
      obtain ⟨spec, read, rfl⟩ := (map_ok _ _ _).mp handled
      exact both (item_settings _ nodeSlot _ _ _ _ _ line (fun _ _ => put_settings _ _ rfl rfl rfl rfl rfl) read)
  | edges =>
      obtain ⟨spec, read, rfl⟩ := (map_ok _ _ _).mp handled
      exact both (item_settings _ edgeSlot _ _ _ _ _ line (fun _ _ => put_settings _ _ rfl rfl rfl rfl rfl) read)
  | bindings =>
      obtain ⟨spec, read, rfl⟩ := (map_ok _ _ _).mp handled
      exact both (item_settings _ bindingSlot _ _ _ _ _ line (fun _ _ => put_settings _ _ rfl rfl rfl rfl rfl) read)
  | policy =>
      obtain ⟨spec, read, rfl⟩ := (map_ok _ _ _).mp handled
      obtain ⟨_, _, _, policy, taken, rfl⟩ := (policy_line_ok _ _ _).mp read
      exact ⟨same_headers _ _ rfl rfl rfl rfl ((read_policy_ok _ _ _).mp taken).generation, fun other => absurd rfl other⟩
  | forbidden =>
      obtain ⟨spec, read, rfl⟩ := (map_ok _ _ _).mp handled
      obtain ⟨_, _, _, policy, taken, rfl⟩ := (forbidden_line_ok _ _ _).mp read
      simp only [readForbidden, bind_ok, Except.ok.injEq] at taken
      obtain ⟨_, _, _, _, _, _, rfl⟩ := taken
      exact both ⟨same_headers _ _ rfl rfl rfl rfl rfl, rfl⟩

theorem header_set_by (keyword : HeaderKeyword) :
    SetBy none (headerValue keyword) fun line number => readHeader line = .ok (keyword, number) where
  taken := by
    intro state line next number gives handled
    obtain ⟨spec, read, rfl⟩ := (map_ok _ _ _).mp handled
    obtain ⟨other, value, found, rfl⟩ := (handle_header_ok _ _ _).mp read
    rw [gives] at found
    obtain ⟨rfl, rfl⟩ := Prod.mk.inj (Except.ok.inj found)
    exact header_set _ keyword number
  kept := by
    intro other state line next outside handled
    cases other with
    | none => exact absurd rfl outside
    | some sectionName => exact (section_settings state next sectionName line handled).1 keyword
  told _ _ same := same.headers keyword

theorem policy_set_by {β : Type} (key : String) (parse : Bytes → Option β) (field : Policy → β)
    (sets : ∀ policy entries next, PolicyRead policy entries next → Sets entries key parse (field policy) (field next))
    (bare : ∀ policy : Policy, field policy.bare = field policy) :
    SetBy (some .policy) (fun spec => some (field spec.policy)) fun line value =>
      ∃ entries, AssignmentList.parse line = .ok entries ∧ entries.has key = true ∧ parse (entries.get key) = value where
  taken := by
    rintro state line next value ⟨entries, parsed, given, rfl⟩ handled
    obtain ⟨spec, read, rfl⟩ := (map_ok _ _ _).mp handled
    obtain ⟨others, parsedOther, _, policy, taken, rfl⟩ := (policy_line_ok _ _ _).mp read
    obtain rfl := Except.ok.inj (parsed.symm.trans parsedOther)
    have set := sets _ _ _ ((read_policy_ok _ _ _).mp taken)
    rw [Sets, if_pos given] at set
    exact set.symm
  kept := by
    intro other state line next outside handled
    have same : next.spec.policy.bare = state.spec.policy.bare := by
      cases other with
      | none =>
          obtain ⟨spec, read, rfl⟩ := (map_ok _ _ _).mp handled
          obtain ⟨keyword, number, _, rfl⟩ := (handle_header_ok _ _ _).mp read
          exact header_bare _ keyword number
      | some sectionName =>
          exact (section_settings state next sectionName line handled).2 fun within => outside (congrArg some within)
    rw [← bare, same, bare]
  told left right same := by rw [← bare, same.policy, bare]

-- Two lines of one place that give different values to something.
inductive Conflict (place : Option SectionName) (left right : Bytes) : Prop where
  | mk {β : Type} (value : RequestSpec → β) (gives : Bytes → β → Prop) (setBy : SetBy place value gives) (one other : β)
      (first : gives left one) (second : gives right other) (differ : one ≠ other) : Conflict place left right

theorem key_conflict {β : Type} (key : String) (parse : Bytes → Option β) (field : Policy → β)
    (sets : ∀ policy entries next, PolicyRead policy entries next → Sets entries key parse (field policy) (field next))
    (bare : ∀ policy : Policy, field policy.bare = field policy) (left right : Bytes) (entries others : AssignmentList)
    (parsed : AssignmentList.parse left = .ok entries) (parsedOther : AssignmentList.parse right = .ok others)
    (apart : ¬ Conflict (some .policy) left right) : SameUnder entries others key parse := by
  intro given again
  by_contra differ
  exact apart (.mk _ _ (policy_set_by key parse field sets bare) _ _ ⟨entries, parsed, given, rfl⟩
    ⟨others, parsedOther, again, rfl⟩ differ)

theorem agree_or_conflict (place : Option SectionName) (left right : Bytes) (apart : ¬ Conflict place left right) :
    Agree place left right := by
  cases place with
  | none =>
      intro keyword number other read readOther
      by_contra differ
      exact apart (.mk _ _ (header_set_by keyword) number other read readOther differ)
  | some sectionName =>
      cases sectionName with
      | policy =>
          intro entries others parsed parsedOther
          have same {β : Type} (key : String) (parse : Bytes → Option β) (field : Policy → β)
              (sets : ∀ policy entries next, PolicyRead policy entries next → Sets entries key parse (field policy) (field next))
              (bare : ∀ policy : Policy, field policy.bare = field policy) : SameUnder entries others key parse :=
            key_conflict key parse field sets bare left right entries others parsed parsedOther apart
          refine ⟨?_, same _ _ Policy.disjointness (fun _ _ _ read => read.disjointness) fun _ => rfl,
            same _ _ Policy.domainDiversity (fun _ _ _ read => read.diversity) fun _ => rfl,
            same _ _ Policy.domainDiversityLevel (fun _ _ _ read => read.level) fun _ => rfl,
            same _ _ Policy.evidence (fun _ _ _ read => read.evidence) fun _ => rfl,
            same _ _ Policy.allowUnverifiedCapacity (fun _ _ _ read => read.unverified) fun _ => rfl⟩
          simp only [List.forall_mem_cons, List.not_mem_nil, false_implies, implies_true, and_true]
          exact ⟨same _ _ Policy.maxHops (fun _ _ _ read => read.maxHops) fun _ => rfl,
            same _ _ Policy.pathsPerLogicalEdge (fun _ _ _ read => read.paths) fun _ => rfl,
            same _ _ Policy.latencyWeightMilli (fun _ _ _ read => read.latency) fun _ => rfl,
            same _ _ Policy.congestionWeightMilli (fun _ _ _ read => read.congestion) fun _ => rfl,
            same _ _ Policy.maxPathCost (fun _ _ _ read => read.maxCost) fun _ => rfl,
            same _ _ Policy.maxSearchExpansions (fun _ _ _ read => read.expansions) fun _ => rfl⟩
      | collective | groups | domains | nodes | edges | bindings | forbidden => trivial

-- A reader that has left a place for good: sections are not opened twice.
structure Past (place : Option SectionName) (state : ReaderState) : Prop where
  seen : state.bannerSeen = true
  away : state.sectionName ≠ place
  closed : ∀ sectionName, place = some sectionName → sectionName ∈ state.sectionSeen

theorem past_title (place : Option SectionName) (state next : ReaderState) (title : Bytes) (seen : state.bannerSeen = true)
    (closed : ∀ sectionName, place = some sectionName → sectionName ∈ state.sectionSeen)
    (handled : handleSection state title = .ok next) : Past place next ∧ next.spec = state.spec := by
  obtain ⟨sectionName, _, fresh, rfl⟩ := title_opens state next title handled
  refine ⟨⟨seen, fun same => fresh (closed sectionName same.symm), fun other within => ?_⟩, rfl⟩
  exact List.mem_append_left _ (closed other within)

section Giving

variable {place : Option SectionName} {β : Type} {value : RequestSpec → β} {gives : Bytes → β → Prop}

theorem past_kept (setBy : SetBy place value gives) (lines : List Bytes) (state final : ReaderState) (past : Past place state)
    (run : runAll handleLine state lines = .ok final) : value final.spec = value state.spec := by
  induction lines generalizing state with
  | nil =>
      obtain rfl := Except.ok.inj run
      rfl
  | cons line rest ih =>
      obtain ⟨next, handled, later⟩ := (bind_ok _ _ _).mp run
      by_cases isTitle : isSectionLine line = true
      · rw [handleLine, if_pos isTitle] at handled
        obtain ⟨still, same⟩ := past_title place state next line past.seen past.closed handled
        rw [ih next still later, same]
      · rw [line_within state line past.seen (by simpa using isTitle)] at handled
        obtain ⟨banner, current, sections⟩ := within_keeps _ state next line handled
        rw [ih next ⟨banner.trans past.seen, current ▸ past.away, sections ▸ past.closed⟩ later]
        exact setBy.kept _ state line next past.away handled

-- The last line of its place that gives a value has the last word.
theorem last_given (setBy : SetBy place value gives) (front : List Bytes) (line : Bytes) (tail : List Bytes) (number : β)
    (given : gives line number) (plain : ∀ other ∈ front ++ [line], isSectionLine other = false)
    (titled : ∀ title ∈ tail.head?, isSectionLine title = true) (state final : ReaderState) (seen : state.bannerSeen = true)
    (here : state.sectionName = place) (closed : ∀ sectionName, place = some sectionName → sectionName ∈ state.sectionSeen)
    (run : runAll handleLine state (front ++ [line] ++ tail) = .ok final) : value final.spec = number := by
  rw [run_append] at run
  obtain ⟨middle, runFront, runTail⟩ := (bind_ok _ _ _).mp run
  rw [run_within _ state seen plain, here] at runFront
  obtain ⟨banner, _, sections⟩ := run_keeps place _ state middle runFront
  have set : value middle.spec = number := by
    rw [run_append] at runFront
    obtain ⟨before, _, runLine⟩ := (bind_ok _ _ _).mp runFront
    obtain ⟨after, handled, same⟩ := (bind_ok _ _ _).mp runLine
    obtain rfl := Except.ok.inj same
    exact setBy.taken before line after number given handled
  cases tail with
  | nil =>
      obtain rfl := Except.ok.inj runTail
      exact set
  | cons title rest =>
      obtain ⟨next, handled, later⟩ := (bind_ok _ _ _).mp runTail
      rw [handleLine, if_pos (titled title rfl)] at handled
      obtain ⟨past, same⟩ := past_title place middle next title (banner.trans seen) (sections ▸ closed) handled
      rw [past_kept setBy rest next final past later, same]
      exact set

end Giving

theorem conflict_last (place : Option SectionName) (front : List Bytes) (unsettled : ¬ front.Pairwise (Agree place)) :
    ∃ rest left right, front.Perm (rest ++ [left, right]) ∧ Conflict place left right := by
  by_contra none
  refine unsettled (List.pairwise_iff_forall_sublist.mpr fun {left right} inside => agree_or_conflict place left right ?_)
  intro conflict
  obtain ⟨rest, perm⟩ := inside.exists_perm_append
  exact none ⟨rest, left, right, perm.trans List.perm_append_comm, conflict⟩

-- Two orders of a document that leave the reader with different settings, whatever it has read before.
def Parted (place : Option SectionName) (first second : List Bytes) : Prop :=
  ∀ state one other, state.bannerSeen = true → state.sectionName = place →
    (∀ sectionName, place = some sectionName → sectionName ∈ state.sectionSeen) → runAll handleLine state first = .ok one →
    runAll handleLine state second = .ok other → ¬ SameSettings one.spec other.spec

theorem conflict_parted (place : Option SectionName) (rest tail : List Bytes) (left right : Bytes)
    (conflict : Conflict place left right) (plain : ∀ line ∈ rest ++ [left, right], isSectionLine line = false)
    (titled : ∀ title ∈ tail.head?, isSectionLine title = true) :
    Parted place (rest ++ [left, right] ++ tail) (rest ++ [right, left] ++ tail) := by
  intro state one other seen here closed run runOther same
  cases conflict with
  | mk value gives setBy early late first second differ =>
      have lateLast : value one.spec = late := by
        refine last_given setBy (rest ++ [left]) right tail late second ?_ titled state one seen here closed ?_
        · simpa using plain
        · simpa using run
      have earlyLast : value other.spec = early := by
        refine last_given setBy (rest ++ [right]) left tail early first ?_ titled state other seen here closed ?_
        · intro line member
          apply plain line
          simp only [List.mem_append, List.mem_cons, List.not_mem_nil, or_false] at member ⊢
          tauto
        · simpa using runOther
      exact differ (earlyLast.symm.trans ((setBy.told _ _ same).symm.trans lateLast))

theorem unsettled_parted (lines others : List Bytes) (reordered : Reordered lines others) (place : Option SectionName)
    (unsettled : ¬ Settled place lines) :
    ∃ first second, Reordered lines first ∧ Reordered lines second ∧ Parted place first second := by
  have swapped (rest : List Bytes) (left right : Bytes) : (rest ++ [left, right]).Perm (rest ++ [right, left]) :=
    (List.Perm.swap right left []).append_left rest
  induction reordered generalizing place with
  | last front _ _ plain =>
      have apart : ¬ front.Pairwise (Agree place) := by
        intro agree
        have settled := (settled_front place front [] plain (by simp)).mpr ⟨agree, trivial⟩
        exact unsettled (by rwa [List.append_nil] at settled)
      obtain ⟨rest, left, right, perm, conflict⟩ := conflict_last place front apart
      have parted := conflict_parted place rest [] left right conflict
        (fun line member => plain line (perm.mem_iff.mpr member)) (by simp)
      rw [List.append_nil, List.append_nil] at parted
      exact ⟨_, _, .last front _ perm plain, .last front _ (perm.trans (swapped rest left right)) plain, parted⟩
  | next front _ title rest _ _ plain isTitle _ ih =>
      have titled : ∀ line ∈ (title :: rest).head?, isSectionLine line = true := by simpa using isTitle
      by_cases agree : front.Pairwise (Agree place)
      · have later : ¬ Settled (titleOf title) rest := fun settled =>
          unsettled ((settled_front place front (title :: rest) plain titled).mpr
            ⟨agree, (settled_title _ _ _ isTitle).mpr settled⟩)
        obtain ⟨first, second, firstOrder, secondOrder, parted⟩ := ih (titleOf title) later
        refine ⟨_, _, .next front front title rest first (.refl _) plain isTitle firstOrder,
          .next front front title rest second (.refl _) plain isTitle secondOrder, ?_⟩
        intro state one other seen here closed run runOther
        rw [run_append] at run runOther
        obtain ⟨middle, runFront, run⟩ := (bind_ok _ _ _).mp run
        obtain ⟨twin, twinFront, runOther⟩ := (bind_ok _ _ _).mp runOther
        obtain rfl := Except.ok.inj (runFront.symm.trans twinFront)
        obtain ⟨opened, handled, run⟩ := (bind_ok _ _ _).mp run
        obtain ⟨again, handledAgain, runOther⟩ := (bind_ok _ _ _).mp runOther
        obtain rfl := Except.ok.inj (handled.symm.trans handledAgain)
        rw [run_within front state seen plain] at runFront
        have banner := (run_keeps _ front state middle runFront).1
        rw [handleLine, if_pos isTitle] at handled
        obtain ⟨sectionName, named, _, rfl⟩ := title_opens middle opened title handled
        refine parted { middle with sectionName := some sectionName, sectionSeen := middle.sectionSeen ++ [sectionName] } one other
          (banner.trans seen) named.symm (fun current within => ?_) run runOther
        rw [named] at within
        obtain rfl := Option.some.inj within
        exact List.mem_append_right _ (List.mem_singleton_self _)
      · obtain ⟨others, left, right, perm, conflict⟩ := conflict_last place front agree
        exact ⟨_, _, .next front _ title rest rest perm plain isTitle (Reordered.refl rest),
          .next front _ title rest rest (perm.trans (swapped others left right)) plain isTitle (Reordered.refl rest),
          conflict_parted place others (title :: rest) left right conflict
            (fun line member => plain line (perm.mem_iff.mpr member)) titled⟩

-- What the banner says is not a setting.
theorem banner_agrees (banner line : Bytes) (place : Option SectionName) (handled : handleBanner banner = .ok ()) :
    Agree place banner line := by
  cases place with
  | none =>
      intro keyword number other read _
      have first : firstWord banner = text "cpath-request" := by
        simp only [handleBanner, then_ok, deny_ok, not_not, ne_eq] at handled
        exact handled.1
      have unknown : parseHeaderKeyword (text "cpath-request") = none := by decide
      simp only [readHeader, bind_ok, first, unknown] at read
      obtain ⟨_, _, _, _, broken⟩ := read
      cases broken
  | some sectionName =>
      cases sectionName with
      | policy =>
          intro entries others parsed _
          have assigned := (parse_from_keys [] entries banner List.nodup_nil parsed).2.2 (text "cpath-request") (by
            rw [banner_read banner handled]
            exact List.mem_cons_self)
          exact absurd assigned (by decide)
      | collective | groups | domains | nodes | edges | bindings | forbidden => trivial

end Dsl

end PathPlanner

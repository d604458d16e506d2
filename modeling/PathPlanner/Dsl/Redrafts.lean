import PathPlanner.Dsl.LineConflicts
import PathPlanner.Encoding

set_option autoImplicit false

namespace PathPlanner

open Checks Permuted

namespace Dsl

open RequestSpec (Relisted)

theorem joined_length (pieces : List Bytes) (some : pieces ≠ []) :
    ([10].intercalate pieces).length + 1 = (pieces.map fun piece => piece.length + 1).sum := by
  induction pieces with
  | nil => exact absurd rfl some
  | cons first rest ih =>
      cases rest with
      | nil => simp
      | cons second others =>
          have shorter := ih (List.cons_ne_nil _ _)
          rw [List.intercalate_cons_cons, List.map_cons, List.sum_cons, ← shorter]
          simp only [List.length_append, List.length_singleton]
          omega

theorem same_length (input other : Bytes) (raws : (input.splitOn 10).Perm (other.splitOn 10)) : input.length = other.length := by
  have left := joined_length (input.splitOn 10) (List.splitOn_ne_nil _ _)
  have right := joined_length (other.splitOn 10) (List.splitOn_ne_nil _ _)
  rw [List.intercalate_splitOn] at left right
  rw [(raws.map _).sum_eq] at left
  omega

-- A text made of the lines of another: the header lines and the lines of each section in any order.
structure Redrafted (input other : Bytes) : Prop where
  raws : (input.splitOn 10).Perm (other.splitOn 10)
  document : ∃ titles banner lines others, (∀ title ∈ titles, isSectionLine title = true) ∧ isSectionLine banner = false ∧
    significant (input.splitOn 10) = titles ++ banner :: lines ∧ significant (other.splitOn 10) = titles ++ banner :: others ∧
    Reordered lines others

theorem redrafted_spec (input other : Bytes) (redrafted : Redrafted input other) (spec : RequestSpec)
    (parsed : parseRequestSpec input = .ok spec) (settled : Settled none (significant (input.splitOn 10))) :
    ∃ twin, parseRequestSpec other = .ok twin ∧ Relisted spec twin := by
  obtain ⟨final, accepted, rfl⟩ := (parse_request_spec_ok _ _).mp parsed
  obtain ⟨titles, banner, lines, others, titled, plain, before, after, reordered⟩ := redrafted.document
  have run := accepted.run
  rw [before] at run settled
  obtain ⟨state, runOther, like⟩ := run_document titles banner lines others titled plain reordered {} final rfl settled run
  have size := same_length input other redrafted.raws
  refine ⟨state.spec, (parse_request_spec_ok _ _).mpr ⟨state, ⟨?_, ?_, ?_, ?_, like.banner.trans accepted.banner⟩, rfl⟩, like.spec⟩
  · rw [← size]
    exact accepted.size
  · have some := accepted.some
    rw [← List.length_pos_iff] at some ⊢
    omega
  · exact fun raw member => accepted.short raw (redrafted.raws.mem_iff.mpr member)
  · rw [after]
    exact runOther

theorem pieces_clean (input : Bytes) : ∀ raw ∈ input.splitOn 10, 10 ∉ raw := by
  induction input with
  | nil => simp [List.splitOn_nil]
  | cons ch rest ih =>
      rw [List.splitOn_cons_eq_if_modifyHead]
      by_cases line : (ch == 10) = true
      · rw [if_pos line]
        simpa using ih
      · rw [if_neg line]
        cases pieces : rest.splitOn 10 with
        | nil => simp
        | cons first others =>
            rw [pieces] at ih
            obtain ⟨clean, later⟩ := List.forall_mem_cons.mp ih
            have other : 10 ≠ ch := fun same => line (by simp [← same])
            rw [List.modifyHead_cons]
            exact List.forall_mem_cons.mpr ⟨fun member => (List.mem_cons.mp member).elim other clean, later⟩

-- Every order of the lines that count is the order of some order of all lines.
theorem significant_order (raws wanted : List Bytes) (perm : (significant raws).Perm wanted) :
    ∃ others, raws.Perm others ∧ significant others = wanted := by
  have kept : significant raws = (raws.filter fun raw => !isSkipped (trimmed raw)).map trimmed := by
    rw [significant, List.filter_map]
    rfl
  have paired : List.Forall₂ (fun line raw => trimmed raw = line) (significant raws)
      (raws.filter fun raw => !isSkipped (trimmed raw)) := by
    rw [kept, List.forall₂_map_left_iff, List.forall₂_same]
    exact fun _ _ => rfl
  obtain ⟨placed, each, shuffled⟩ := List.perm_comp_forall₂ perm.symm paired
  refine ⟨placed ++ raws.filter (fun raw => isSkipped (trimmed raw)), ?_, ?_⟩
  · have parts := (List.filter_append_perm (fun raw => !isSkipped (trimmed raw)) raws).symm
    simp only [Bool.not_not] at parts
    exact parts.trans (shuffled.symm.append_right _)
  · have front : placed.map trimmed = wanted := by
      rw [← List.forall₂_eq_eq_eq, List.forall₂_map_left_iff]
      exact each.flip.imp fun _ _ same => same
    have counted : (placed.map trimmed).filter (fun line => !isSkipped line) = placed.map trimmed := by
      rw [List.filter_eq_self, List.forall_mem_map]
      exact fun raw member => (List.mem_filter.mp (shuffled.mem_iff.mp member)).2
    have skipped : ((raws.filter fun raw => isSkipped (trimmed raw)).map trimmed).filter (fun line => !isSkipped line) = [] := by
      rw [List.filter_eq_nil_iff, List.forall_mem_map]
      intro raw member
      simp [(List.mem_filter.mp member).2]
    rw [significant, List.map_append, List.filter_append, counted, skipped, List.append_nil, front]

theorem redraft_exists (input : Bytes) (titles : List Bytes) (banner : Bytes) (lines ordered : List Bytes)
    (titled : ∀ title ∈ titles, isSectionLine title = true) (plain : isSectionLine banner = false)
    (whole : significant (input.splitOn 10) = titles ++ banner :: lines) (reordered : Reordered lines ordered) :
    ∃ other, Redrafted input other ∧ significant (other.splitOn 10) = titles ++ banner :: ordered := by
  have perm : (significant (input.splitOn 10)).Perm (titles ++ banner :: ordered) := by
    rw [whole]
    exact (reordered.perm.cons banner).append_left titles
  obtain ⟨raws, shuffled, same⟩ := significant_order _ _ perm
  have some : raws ≠ [] := fun empty => List.splitOn_ne_nil 10 input (List.perm_nil.mp (empty ▸ shuffled))
  have split : ([10].intercalate raws).splitOn 10 = raws :=
    List.splitOn_intercalate 10 (fun raw member => pieces_clean input raw (shuffled.mem_iff.mpr member)) some
  refine ⟨[10].intercalate raws, ⟨by rwa [split], titles, banner, lines, ordered, titled, plain, whole, ?_, reordered⟩, ?_⟩
  · rw [split, same]
  · rw [split, same]

-- The first line that is no title is the banner.
theorem banner_opens (lines : List Bytes) (state final : ReaderState) (unseen : state.bannerSeen = false)
    (run : runAll handleLine state lines = .ok final) (seen : final.bannerSeen = true) :
    ∃ titles banner rest, lines = titles ++ banner :: rest ∧ (∀ title ∈ titles, isSectionLine title = true) ∧
      isSectionLine banner = false := by
  induction lines generalizing state with
  | nil =>
      obtain rfl := Except.ok.inj run
      rw [unseen] at seen
      cases seen
  | cons line rest ih =>
      obtain ⟨next, handled, later⟩ := (bind_ok _ _ _).mp run
      by_cases isTitle : isSectionLine line = true
      · rw [handleLine, if_pos isTitle] at handled
        obtain ⟨sectionName, _, _, rfl⟩ := title_opens state next line handled
        obtain ⟨titles, banner, others, rfl, titled, plain⟩ :=
          ih { state with sectionName := some sectionName, sectionSeen := state.sectionSeen ++ [sectionName] } unseen later
        exact ⟨line :: titles, banner, others, rfl, List.forall_mem_cons.mpr ⟨isTitle, titled⟩, plain⟩
      · exact ⟨[], line, rest, rfl, by simp, by simpa using isTitle⟩

theorem opening_run (titles : List Bytes) (banner : Bytes) (titled : ∀ title ∈ titles, isSectionLine title = true)
    (plain : isSectionLine banner = false) (state middle : ReaderState) (unseen : state.bannerSeen = false)
    (listed : ∀ sectionName, state.sectionName = some sectionName → sectionName ∈ state.sectionSeen)
    (run : runAll handleLine state (titles ++ [banner]) = .ok middle) :
    middle.bannerSeen = true ∧ (∀ sectionName, middle.sectionName = some sectionName → sectionName ∈ middle.sectionSeen) ∧
      ∀ lines, Settled middle.sectionName lines → Settled state.sectionName (titles ++ banner :: lines) := by
  induction titles generalizing state with
  | nil =>
      obtain ⟨next, handled, same⟩ := (bind_ok _ _ _).mp run
      obtain rfl := Except.ok.inj same
      rw [handleLine, if_neg (by simp [plain]), if_pos unseen] at handled
      obtain ⟨_, read, rfl⟩ := (map_ok _ _ _).mp handled
      refine ⟨rfl, listed, fun lines settled => ?_⟩
      rw [List.nil_append, Settled, if_neg (by simp [plain])]
      exact ⟨fun other _ => banner_agrees banner other _ read, settled⟩
  | cons title rest ih =>
      obtain ⟨isTitle, later⟩ := List.forall_mem_cons.mp titled
      obtain ⟨next, handled, run⟩ := (bind_ok _ _ _).mp run
      rw [handleLine, if_pos isTitle] at handled
      obtain ⟨sectionName, named, _, rfl⟩ := title_opens state next title handled
      obtain ⟨seen, closed, settled⟩ := ih later
        { state with sectionName := some sectionName, sectionSeen := state.sectionSeen ++ [sectionName] } unseen
        (fun current within => by
          obtain rfl := Option.some.inj within
          exact List.mem_append_right _ (List.mem_singleton_self _)) run
      refine ⟨seen, closed, fun lines kept => ?_⟩
      rw [List.cons_append, settled_title _ _ _ isTitle, named]
      exact settled lines kept

theorem same_settings (left right : RequestSpec) (one other : PlanningRequest) (built : buildRequest left = .ok one)
    (builtOther : buildRequest right = .ok other) (generation : one.planGeneration = other.planGeneration)
    (encoding : one.encodeCanonical = other.encodeCanonical) : SameSettings left right := by
  have here : RequestNamed one := ⟨BuiltRequest.named ⟨one, left, built⟩, BuiltRequest.sound ⟨one, left, built⟩⟩
  have there : RequestNamed other :=
    ⟨BuiltRequest.named ⟨other, right, builtOther⟩, BuiltRequest.sound ⟨other, right, builtOther⟩⟩
  obtain ⟨agrees, _⟩ := request_fixes one other [] [] here there (by rw [encoding])
  have parts := PlanningRequest.build_parts _ _ built
  have partsOther := PlanningRequest.build_parts _ _ builtOther
  have fabric := FabricGraph.build_declared _ _ parts.fabric
  have fabricOther := FabricGraph.build_declared _ _ partsOther.fabric
  have alike : one.fabric = other.fabric := fabric_agrees_eq _ _ _ _ parts.fabric partsOther.fabric agrees.fabric
  have policy : left.policy.canonicalize = right.policy.canonicalize := by
    rw [← parts.policy, ← partsOther.policy]
    exact agrees.policy
  have bare (policy : Policy) : policy.canonicalize.bare = policy.bare := rfl
  refine ⟨same_headers left right ?_ ?_ ?_ ?_ ?_, by rw [← bare, policy, bare]⟩
  · rw [← parts.generation, ← partsOther.generation, generation]
  · exact fabric.topology.symm.trans ((congrArg FabricGraph.topologyGeneration alike).trans fabricOther.topology)
  · exact fabric.failureDomain.symm.trans ((congrArg FabricGraph.failureDomainGeneration alike).trans fabricOther.failureDomain)
  · exact fabric.capacityEvidence.symm.trans
      ((congrArg FabricGraph.capacityEvidenceGeneration alike).trans fabricOther.capacityEvidence)
  · change left.policy.canonicalize.generation = right.policy.canonicalize.generation
    rw [policy]

-- A document that gives two values to one setting is another request in another order.
theorem unsettled_redrafted (input : Bytes) (request : PlanningRequest) (accepted : parseRequestText input = .ok request)
    (unsettled : ¬ Settled none (significant (input.splitOn 10))) :
    ∃ other, Redrafted input other ∧ ∀ twin, parseRequestText other = .ok twin →
      twin.planGeneration ≠ request.planGeneration ∨ twin.encodeCanonical ≠ request.encodeCanonical := by
  obtain ⟨spec, parsed, _⟩ := (bind_ok _ _ _).mp accepted
  obtain ⟨final, document, rfl⟩ := (parse_request_spec_ok _ _).mp parsed
  obtain ⟨titles, banner, lines, whole, titled, plain⟩ := banner_opens _ {} final rfl document.run document.banner
  have run := document.run
  rw [whole, ← List.singleton_append, ← List.append_assoc, run_append] at run
  obtain ⟨middle, opening, _⟩ := (bind_ok _ _ _).mp run
  obtain ⟨seen, closed, settles⟩ := opening_run titles banner titled plain {} middle rfl (by simp) opening
  have apart : ¬ Settled middle.sectionName lines := fun settled => unsettled (whole ▸ settles lines settled)
  obtain ⟨first, second, firstOrder, secondOrder, parted⟩ := unsettled_parted lines lines (Reordered.refl lines) _ apart
  have read (ordered : List Bytes) (other : Bytes) (same : significant (other.splitOn 10) = titles ++ banner :: ordered)
      (twin : PlanningRequest) (taken : parseRequestText other = .ok twin) :
      ∃ last, runAll handleLine middle ordered = .ok last ∧ buildRequest last.spec = .ok twin := by
    obtain ⟨_, parsed, built⟩ := (bind_ok _ _ _).mp taken
    obtain ⟨last, document, rfl⟩ := (parse_request_spec_ok _ _).mp parsed
    have run := document.run
    rw [same, ← List.singleton_append, ← List.append_assoc, run_append] at run
    obtain ⟨twinMiddle, twinOpening, later⟩ := (bind_ok _ _ _).mp run
    obtain rfl := Except.ok.inj (opening.symm.trans twinOpening)
    exact ⟨last, later, built⟩
  by_contra none
  have always (other : Bytes) (redrafted : Redrafted input other) : ∃ twin, parseRequestText other = .ok twin ∧
      twin.planGeneration = request.planGeneration ∧ twin.encodeCanonical = request.encodeCanonical := by
    by_contra missing
    refine none ⟨other, redrafted, fun twin taken => ?_⟩
    by_contra same
    rw [not_or, not_not, not_not] at same
    exact missing ⟨twin, taken, same⟩
  obtain ⟨one, oneRedrafted, oneLines⟩ := redraft_exists input titles banner lines first titled plain whole firstOrder
  obtain ⟨other, otherRedrafted, otherLines⟩ := redraft_exists input titles banner lines second titled plain whole secondOrder
  obtain ⟨twin, taken, generation, encoding⟩ := always one oneRedrafted
  obtain ⟨twinOther, takenOther, generationOther, encodingOther⟩ := always other otherRedrafted
  obtain ⟨last, run, built⟩ := read first one oneLines twin taken
  obtain ⟨lastOther, runOther, builtOther⟩ := read second other otherLines twinOther takenOther
  exact parted middle last lastOther seen rfl closed run runOther (same_settings _ _ _ _ built builtOther
    (generation.trans generationOther.symm) (encoding.trans encodingOther.symm))

instance {α : Type} [DecidableEq α] (left right : AssignmentList) (key : String) (parse : Bytes → Option α) :
    Decidable (SameUnder left right key parse) := inferInstanceAs (Decidable (_ → _))

instance (left right : AssignmentList) : Decidable (SettingsAgree left right) :=
  decidable_of_iff
    ((∀ key ∈ ["max-hops", "paths-per-logical-edge", "latency-weight-milli", "congestion-weight-milli", "max-path-cost",
        "max-search-expansions"], SameUnder left right key decimalNumber) ∧
      SameUnder left right "disjointness" parseDisjointness ∧ SameUnder left right "domain-diversity" parseDomainDiversity ∧
      SameUnder left right "domain-diversity-level" parseDomainKind ∧ SameUnder left right "evidence" parseEvidenceRequirement ∧
      SameUnder left right "allow-unverified-capacity" parseBool)
    ⟨fun agree => ⟨agree.1, agree.2.1, agree.2.2.1, agree.2.2.2.1, agree.2.2.2.2.1, agree.2.2.2.2.2⟩,
      fun agree => ⟨agree.numbers, agree.disjointness, agree.diversity, agree.level, agree.evidence, agree.unverified⟩⟩

theorem to_option_some {α : Type} (outcome : Result α) (value : α) : outcome.toOption = some value ↔ outcome = .ok value := by
  cases outcome with
  | error status => simp [Except.toOption]
  | ok found => simp [Except.toOption]

instance (left right : Bytes) : Decidable (HeadersAgree left right) :=
  decidable_of_iff (∀ first ∈ (readHeader left).toOption, ∀ second ∈ (readHeader right).toOption, first.1 = second.1 →
      first.2 = second.2) (by
    simp only [Option.mem_def, to_option_some, Prod.forall, HeadersAgree]
    constructor
    · intro agree keyword number other read readOther
      exact agree keyword number read keyword other readOther rfl
    · rintro agree keyword number read _ other readOther rfl
      exact agree keyword number other read readOther)

instance (left right : Bytes) : Decidable (PoliciesAgree left right) :=
  decidable_of_iff (∀ entries ∈ (AssignmentList.parse left).toOption, ∀ others ∈ (AssignmentList.parse right).toOption,
      SettingsAgree entries others) (by
    simp only [Option.mem_def, to_option_some, PoliciesAgree]
    constructor
    · intro agree entries others parsed parsedOther
      exact agree entries parsed others parsedOther
    · intro agree entries parsed others parsedOther
      exact agree entries others parsed parsedOther)

instance (place : Option SectionName) (left right : Bytes) : Decidable (Agree place left right) :=
  match place with
  | none => inferInstanceAs (Decidable (HeadersAgree left right))
  | some .policy => inferInstanceAs (Decidable (PoliciesAgree left right))
  | some .collective | some .groups | some .domains | some .nodes | some .edges | some .bindings | some .forbidden =>
      inferInstanceAs (Decidable True)

instance settledDecidable : (place : Option SectionName) → (lines : List Bytes) → Decidable (Settled place lines)
  | _, [] => .isTrue trivial
  | place, line :: rest =>
      have := settledDecidable (titleOf line) rest
      have := settledDecidable place rest
      inferInstanceAs (Decidable (if isSectionLine line = true then Settled (titleOf line) rest
        else (∀ other ∈ plainFront rest, Agree place line other) ∧ Settled place rest))

-- Two lines after the banner that change places.
theorem exchanged_redrafted (banner first second tail : Bytes) (counted : ∀ line ∈ [banner, first, second],
      10 ∉ line ∧ isSkipped (trimmed line) = false ∧ isSectionLine (trimmed line) = false) :
    Redrafted (banner ++ 10 :: (first ++ 10 :: (second ++ 10 :: tail))) (banner ++ 10 :: (second ++ 10 :: (first ++ 10 :: tail))) := by
  simp only [List.forall_mem_cons, List.not_mem_nil, false_implies, implies_true, and_true] at counted
  obtain ⟨⟨bannerWhole, bannerKept, bannerPlain⟩, ⟨firstWhole, firstKept, firstPlain⟩, secondWhole, secondKept, secondPlain⟩ :=
    counted
  have pieces (one other : Bytes) (oneWhole : 10 ∉ one) (otherWhole : 10 ∉ other) :
      (banner ++ 10 :: (one ++ 10 :: (other ++ 10 :: tail))).splitOn 10 = banner :: one :: other :: tail.splitOn 10 := by
    rw [List.splitOn_append_cons_self_of_not_mem bannerWhole, List.splitOn_append_cons_self_of_not_mem oneWhole,
      List.splitOn_append_cons_self_of_not_mem otherWhole]
  have kept (one other : Bytes) (oneKept : isSkipped (trimmed one) = false) (otherKept : isSkipped (trimmed other) = false) :
      significant (banner :: one :: other :: tail.splitOn 10) =
        [] ++ trimmed banner :: trimmed one :: trimmed other :: significant (tail.splitOn 10) := by
    simp [significant, bannerKept, oneKept, otherKept]
  constructor
  · rw [pieces first second firstWhole secondWhole, pieces second first secondWhole firstWhole]
    exact (List.Perm.swap second first _).cons banner
  · rw [pieces first second firstWhole secondWhole, pieces second first secondWhole firstWhole]
    exact ⟨[], trimmed banner, _, _, by simp, bannerPlain, kept first second firstKept secondKept,
      kept second first secondKept firstKept, Reordered.swapped _ _ _ _ firstPlain secondPlain (Reordered.refl _)⟩

-- A document that gives no setting two values is one request in every order of the lines of its places.
theorem settled_redrafted (input : Bytes) (request : PlanningRequest) (accepted : parseRequestText input = .ok request)
    (settled : Settled none (significant (input.splitOn 10))) (other : Bytes) (redrafted : Redrafted input other) :
    parseRequestText other = .ok request := by
  obtain ⟨spec, parsed, built⟩ := (bind_ok _ _ _).mp accepted
  obtain ⟨twin, parsedOther, like⟩ := redrafted_spec input other redrafted spec parsed settled
  have alike := RequestSpec.Rearranged.alike _ _ (Relisted.rearranged _ _ like)
  exact (bind_ok _ _ _).mpr ⟨twin, parsedOther, PlanningRequest.build_alike spec twin alike request built⟩

-- The order of the lines inside a section, or of the header, matters exactly where two of them disagree on a setting.
theorem settled_order_irrelevant (input : Bytes) (request : PlanningRequest) (accepted : parseRequestText input = .ok request) :
    (Settled none (significant (input.splitOn 10)) → ∀ other, Redrafted input other →
      ∃ twin, parseRequestText other = .ok twin ∧ twin.canonicalDigest = request.canonicalDigest ∧
        twin.planGeneration = request.planGeneration) ∧
    (¬ Settled none (significant (input.splitOn 10)) → ∃ other, Redrafted input other ∧
      ∀ twin, parseRequestText other = .ok twin →
        twin.planGeneration ≠ request.planGeneration ∨ twin.encodeCanonical ≠ request.encodeCanonical) :=
  ⟨fun settled other redrafted => ⟨request, settled_redrafted input request accepted settled other redrafted, rfl, rfl⟩,
    fun unsettled => unsettled_redrafted input request accepted unsettled⟩

-- One small request, with two lines of its own after the banner.
def documentUnder (first second : String) : Bytes :=
  text "cpath-request 1" ++ 10 :: (text first ++ 10 :: (text second ++ 10 ::
    (text "policy-generation 1\ntopology-generation 1\nfailure-domain-generation 1\ncapacity-evidence-generation 1\n[collective]\n" ++
      text "id=c kind=tree\n[groups]\ng level=0 pattern=tree root=p members=p,q\n[nodes]\na\nb\n[edges]\n" ++
      text "e from=a to=b capacity=1 latency=1\n[bindings]\np node=a\nq node=b")))

theorem document_parsed (first second : String) (number : UInt64)
    (accepted : (parseRequestSpec (documentUnder first second)).toOption.map
      (fun spec => (spec.planGeneration, (PlanningRequest.draft spec).isOk)) = some (⟨number⟩, true)) :
    ∃ request, parseRequestText (documentUnder first second) = .ok request ∧ request.planGeneration = ⟨number⟩ := by
  obtain ⟨spec, parsed, drafted⟩ := Option.map_eq_some_iff.mp accepted
  obtain ⟨generation, whole⟩ := Prod.mk.inj drafted
  have built := (BuiltRequest.of spec (draft_accepted spec whole)).built
  refine ⟨_, (bind_ok _ _ _).mpr ⟨spec, (to_option_some _ _).mp parsed, built⟩, ?_⟩
  exact (PlanningRequest.build_parts _ _ built).generation.trans generation

theorem settled_document_redrafted : ∃ request,
    parseRequestText (documentUnder "plan-generation 1" "policy-generation 1") = .ok request ∧
    ∃ twin, parseRequestText (documentUnder "policy-generation 1" "plan-generation 1") = .ok twin ∧
      twin.canonicalDigest = request.canonicalDigest ∧ twin.planGeneration = request.planGeneration := by
  obtain ⟨request, accepted, _⟩ := document_parsed "plan-generation 1" "policy-generation 1" 1 (by decide +kernel)
  refine ⟨request, accepted, (settled_order_irrelevant _ request accepted).1 (by decide +kernel) _ ?_⟩
  exact exchanged_redrafted _ _ _ _ (by decide +kernel)

-- The last of two lines that set one key wins, and which one is last is a matter of their order.
theorem header_order_matters : ¬ ∀ input request other, parseRequestText input = .ok request → Redrafted input other →
    ∃ twin, parseRequestText other = .ok twin ∧ twin.canonicalDigest = request.canonicalDigest ∧
      twin.planGeneration = request.planGeneration := by
  intro always
  obtain ⟨request, accepted, generation⟩ := document_parsed "plan-generation 1" "plan-generation 2" 2 (by decide +kernel)
  obtain ⟨other, acceptedOther, otherGeneration⟩ := document_parsed "plan-generation 2" "plan-generation 1" 1 (by decide +kernel)
  obtain ⟨twin, acceptedTwin, _, same⟩ := always _ request (documentUnder "plan-generation 2" "plan-generation 1") accepted
    (exchanged_redrafted _ _ _ _ (by decide +kernel))
  rw [acceptedOther] at acceptedTwin
  obtain rfl := Except.ok.inj acceptedTwin
  rw [generation, otherGeneration] at same
  exact absurd same (by decide)

end Dsl

end PathPlanner

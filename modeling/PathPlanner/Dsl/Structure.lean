import PathPlanner.Dsl.Steps
import PathPlanner.Lib.Words

set_option autoImplicit false

namespace PathPlanner

open Checks Permuted Words

namespace Dsl

-- The keys a line names, read off its words.
def keysIn (line : Bytes) : List Bytes := (words isSpace line).map fun word => word.takeWhile (· != 61)

def keysOf : SectionName → Bytes → List Bytes
  | .collective, line => keysIn line
  | .policy, line => keysIn line
  | .forbidden, line => keysIn line
  | _, line => keysIn (afterWord line)

def knownKeys : SectionName → List String
  | .collective => ["id", "kind", "demand"]
  | .groups => ["level", "pattern", "root", "direction", "members"]
  | .domains => ["kind", "parent"]
  | .nodes => ["site", "pod", "rack", "host", "device", "tier", "eligible"]
  | .edges => ["from", "to", "capacity", "latency", "reserved", "tier", "domain", "evidence", "eligible"]
  | .bindings => ["node", "domains", "tiers"]
  | .policy => policyKeys
  | .forbidden => ["nodes", "tiers", "domains"]

def IsBanner (line : Bytes) : Prop := words isSpace line = [text "cpath-request", text "1"]

instance (line : Bytes) : Decidable (IsBanner line) := inferInstanceAs (Decidable (_ = _))

-- A known keyword and a number.
def IsHeader (line : Bytes) : Prop := ∃ pair, readHeader line = .ok pair

def titleOf (line : Bytes) : Option SectionName := parseSectionName ((line.drop 1).take (line.length - 2))

-- The lines that are no titles, each with the section it stands in.
def placed (current : Option SectionName) : List Bytes → List (Option SectionName × Bytes)
  | [] => []
  | line :: rest => if isSectionLine line = true then placed (titleOf line) rest else (current, line) :: placed current rest

def forbiddenKeys (lines : List Bytes) : List Bytes :=
  ((placed none lines).filter fun entry => entry.1 = some .forbidden).flatMap fun entry => keysIn entry.2

-- The outer structure of a document, over its lines that are neither blank nor comments.
structure Structured (lines : List Bytes) : Prop where
  banner : ∃ first, lines.head? = some first ∧ IsBanner first
  headers : ∀ entry ∈ placed none lines.tail, entry.1 = none ↔ IsHeader entry.2
  sections : ((lines.filter fun line => isSectionLine line).map titleOf).Nodup
  forbidden : (forbiddenKeys lines.tail).Nodup
  keys : ∀ entry ∈ placed none lines.tail, ∀ sectionName, entry.1 = some sectionName →
    (keysOf sectionName entry.2).Nodup ∧ ∀ key ∈ keysOf sectionName entry.2, key ∈ (knownKeys sectionName).map text

-- A word of assignments, taken apart.
theorem assignment_word (first : UInt8) (more rest : Bytes)
    (stop : (first :: more).dropWhile AssignmentList.keyByte = 61 :: rest) :
    first :: more = ((first :: more).takeWhile AssignmentList.keyByte ++ 61 :: rest.takeWhile fun ch => !isSpace ch) ++
      rest.dropWhile fun ch => !isSpace ch := by
  have whole := (first :: more).takeWhile_append_dropWhile (p := AssignmentList.keyByte)
  rw [stop] at whole
  rw [List.append_assoc, List.cons_append, List.takeWhile_append_dropWhile]
  exact whole.symm

theorem parse_from_end (entries : AssignmentList) (line : Bytes) (start : line.dropWhile isSpace = []) :
    AssignmentList.parseFrom entries line = .ok entries := by
  rw [AssignmentList.parseFrom]
  split
  · rfl
  · rename_i other
    rw [start] at other
    cases other

theorem parse_from_step (entries : AssignmentList) (line more rest : Bytes) (first : UInt8)
    (start : line.dropWhile isSpace = first :: more) (stop : (first :: more).dropWhile AssignmentList.keyByte = 61 :: rest) :
    let key := (first :: more).takeWhile AssignmentList.keyByte
    let value := rest.takeWhile (fun ch => !isSpace ch)
    AssignmentList.parseFrom entries line = (do
      deny (key = []) (failure .invalidSyntax "empty key before '='")
      deny (value = []) ⟨.invalidSyntax, text "empty value for key " ++ key⟩
      deny (key ∈ entries.map Assignment.key) ⟨.duplicateIdentifier, text "repeated key " ++ key⟩
      AssignmentList.parseFrom (entries ++ [⟨key, value⟩]) (rest.dropWhile fun ch => !isSpace ch)) := by
  intro key value
  rw [AssignmentList.parseFrom]
  split
  · rename_i other
    rw [start] at other
    cases other
  · rename_i found tail other
    rw [start] at other
    cases other
    split
    · rename_i behind again
      rw [stop] at again
      cases again
      rfl
    · rename_i broken
      exact absurd stop (broken rest)

theorem parse_from_broken (entries : AssignmentList) (line more : Bytes) (first : UInt8)
    (start : line.dropWhile isSpace = first :: more)
    (broken : ∀ rest, (first :: more).dropWhile AssignmentList.keyByte = 61 :: rest → False) :
    ∃ status, AssignmentList.parseFrom entries line = .error status := by
  rw [AssignmentList.parseFrom]
  split
  · rename_i other
    rw [start] at other
    cases other
  · rename_i found tail other
    rw [start] at other
    cases other
    split
    · rename_i rest again
      exact absurd again fun stop => broken rest stop
    · exact ⟨_, rfl⟩

theorem key_byte_solid (key : Bytes) (inside : ∀ ch ∈ key, AssignmentList.keyByte ch = true) :
    ∀ ch ∈ key, isSpace ch = false ∧ (ch != 61) = true := by
  intro ch member
  have solid := inside ch member
  rw [AssignmentList.keyByte, Bool.and_eq_true, Bool.not_eq_true'] at solid
  exact solid

-- What the reader of assignments finds are the keys of the words, and every word has the sign that ends its key.
theorem parse_from_keys (entries final : AssignmentList) (line : Bytes) (distinct : (entries.map Assignment.key).Nodup)
    (parsed : AssignmentList.parseFrom entries line = .ok final) :
    final.map Assignment.key = entries.map Assignment.key ++ keysIn line ∧ (final.map Assignment.key).Nodup ∧
      ∀ word ∈ words isSpace line, 61 ∈ word := by
  induction entries, line using AssignmentList.parseFrom.induct with
  | case1 entries line start =>
      have none : words isSpace line = [] := by rw [← words_drop_blanks isSpace line, start, words_nil]
      rw [parse_from_end entries line start] at parsed
      obtain rfl := Except.ok.inj parsed
      rw [keysIn, none]
      exact ⟨(List.append_nil _).symm, distinct, fun _ member => absurd member List.not_mem_nil⟩
  | case2 entries line first more start key rest stop value ih =>
      have read := parse_from_step entries line more rest first start stop
      rw [read] at parsed
      simp only [then_ok, deny_ok] at parsed
      obtain ⟨_, _, fresh, parsed⟩ := parsed
      have solid := key_byte_solid key fun ch member => List.mem_takeWhile_imp member
      have whole : first :: more = (key ++ 61 :: value) ++ rest.dropWhile (fun ch => !isSpace ch) := assignment_word first more rest stop
      have split : words isSpace line = (key ++ 61 :: value) :: words isSpace (rest.dropWhile fun ch => !isSpace ch) := by
        rw [← words_drop_blanks isSpace line, start, whole]
        apply words_cons
        · intro ch member
          rcases List.mem_append.mp member with member | member
          · exact (solid ch member).1
          · rcases List.mem_cons.mp member with rfl | member
            · rfl
            · have unspaced := List.mem_takeWhile_imp member
              exact (Bool.not_eq_true' _).mp unspaced
        · exact fun empty => List.cons_ne_nil 61 value (List.append_eq_nil_iff.mp empty).2
        · exact fun ch head => (Bool.not_eq_false' _).mp (dropped_head (fun ch => !isSpace ch) rest ch head)
      have named : (key ++ 61 :: value).takeWhile (· != 61) = key := by
        rw [List.takeWhile_append_of_pos fun ch member => (solid ch member).2, List.takeWhile_cons_of_neg (by decide), List.append_nil]
      obtain ⟨keys, apart, equals⟩ := ih (by
        rw [List.map_append, List.nodup_append]
        refine ⟨distinct, List.nodup_singleton key, fun one inside two last same => ?_⟩
        rw [List.map_singleton, List.mem_singleton] at last
        rw [same, last] at inside
        exact fresh inside) parsed
      refine ⟨?_, apart, ?_⟩
      · rw [keys, keysIn, keysIn, split, List.map_cons, named, List.map_append, List.append_assoc]
        rfl
      · rw [split]
        refine List.forall_mem_cons.mpr ⟨?_, equals⟩
        exact List.mem_append_right key List.mem_cons_self
  | case3 entries line first more start broken =>
      obtain ⟨status, failed⟩ := parse_from_broken entries line more first start broken
      rw [failed] at parsed
      cases parsed

theorem parsed_keys (line : Bytes) (entries : AssignmentList) (accepted : List String) (parsed : AssignmentList.parse line = .ok entries)
    (known : entries.rejectUnknown accepted = .ok ()) :
    (keysIn line).Nodup ∧ (∀ key ∈ keysIn line, key ∈ accepted.map text) ∧ ∀ word ∈ words isSpace line, 61 ∈ word := by
  obtain ⟨same, distinct, equals⟩ := parse_from_keys [] entries line List.nodup_nil parsed
  rw [List.map_nil, List.nil_append] at same
  rw [← same]
  refine ⟨distinct, fun key member => ?_, equals⟩
  obtain ⟨entry, inside, rfl⟩ := List.mem_map.mp member
  have checked := (for_each_ok _ _).mp known entry inside
  exact not_not.mp ((deny_ok _ _).mp checked)

-- A line of a section as the section reads it.
structure Entered (sectionName : SectionName) (line : Bytes) : Prop where
  distinct : (keysOf sectionName line).Nodup
  known : ∀ key ∈ keysOf sectionName line, key ∈ (knownKeys sectionName).map text
  equals : ∀ word ∈ words isSpace (afterWord line), 61 ∈ word

-- The words after the first are words of the line.
theorem words_after (line : Bytes) : ∀ word ∈ words isSpace (afterWord line), word ∈ words isSpace line := by
  intro word member
  have whole : firstWord line ++ afterWord line = line := List.takeWhile_append_dropWhile
  by_cases empty : firstWord line = []
  · rw [empty, List.nil_append] at whole
    rw [← whole]
    exact member
  · rw [← whole, words_cons isSpace (firstWord line) (afterWord line)]
    · exact List.mem_cons_of_mem _ member
    · intro ch inside
      have unspaced := List.mem_takeWhile_imp inside
      exact (Bool.not_eq_true' _).mp unspaced
    · exact empty
    · exact fun ch head => (Bool.not_eq_false' _).mp (dropped_head (fun ch => !isSpace ch) line ch head)

theorem plain_entered (sectionName : SectionName) (line : Bytes) (entries : AssignmentList)
    (whole : keysOf sectionName line = keysIn line) (parsed : AssignmentList.parse line = .ok entries)
    (known : entries.rejectUnknown (knownKeys sectionName) = .ok ()) : Entered sectionName line := by
  obtain ⟨distinct, names, equals⟩ := parsed_keys line entries _ parsed known
  rw [← whole] at distinct names
  exact ⟨distinct, names, fun word member => equals word (words_after line word member)⟩

theorem record_entered (sectionName : SectionName) (spec next : RequestSpec) (line : Bytes)
    (handle : RequestSpec → Bytes → AssignmentList → Result RequestSpec) (rest : keysOf sectionName line = keysIn (afterWord line))
    (checks : ∀ id entries, handle spec id entries = .ok next → entries.rejectUnknown (knownKeys sectionName) = .ok ())
    (handled : handleRecord spec line handle = .ok next) : Entered sectionName line := by
  obtain ⟨id, entries, _, parsed, handled⟩ := (handle_record_ok _ _ _ _).mp handled
  obtain ⟨distinct, names, equals⟩ := parsed_keys (afterWord line) entries _ parsed (checks id entries handled)
  rw [← rest] at distinct names
  exact ⟨distinct, names, equals⟩

theorem item_checks {α : Type} (keys : List String) (slot : Slot α) (limit : Nat) (excess : Status)
    (read : Bytes → AssignmentList → Result α) (spec next : RequestSpec) (id : Bytes) (entries : AssignmentList)
    (handled : handleItem keys slot limit excess read spec id entries = .ok next) : entries.rejectUnknown keys = .ok () :=
  ((handle_item_ok _ _ _ _ _ _ _ _ _).mp handled).1

theorem entry_entered (state next : ReaderState) (sectionName : SectionName) (line : Bytes)
    (handled : handleEntry state sectionName line = .ok next) : Entered sectionName line := by
  simp only [handleEntry] at handled
  cases sectionName with
  | collective =>
      simp only [handleCollective, bind_ok] at handled
      obtain ⟨entries, parsed, _, known, _⟩ := handled
      exact plain_entered .collective line entries rfl parsed known
  | groups =>
      obtain ⟨spec, read, rfl⟩ := (map_ok _ _ _).mp handled
      exact record_entered .groups _ spec line _ rfl (fun _ _ taken => ((handle_group_ok _ _ _ _).mp taken).1) read
  | domains =>
      obtain ⟨spec, read, rfl⟩ := (map_ok _ _ _).mp handled
      exact record_entered .domains _ spec line _ rfl (item_checks _ _ _ _ _ _ _) read
  | nodes =>
      obtain ⟨spec, read, rfl⟩ := (map_ok _ _ _).mp handled
      exact record_entered .nodes _ spec line _ rfl (item_checks _ _ _ _ _ _ _) read
  | edges =>
      obtain ⟨spec, read, rfl⟩ := (map_ok _ _ _).mp handled
      exact record_entered .edges _ spec line _ rfl (item_checks _ _ _ _ _ _ _) read
  | bindings =>
      obtain ⟨spec, read, rfl⟩ := (map_ok _ _ _).mp handled
      exact record_entered .bindings _ spec line _ rfl (item_checks _ _ _ _ _ _ _) read
  | policy =>
      obtain ⟨spec, read, rfl⟩ := (map_ok _ _ _).mp handled
      simp only [handlePolicy, bind_ok] at read
      obtain ⟨entries, parsed, _, known, _⟩ := read
      exact plain_entered .policy line entries rfl parsed known
  | forbidden =>
      obtain ⟨spec, read, rfl⟩ := (map_ok _ _ _).mp handled
      simp only [handleForbidden, bind_ok] at read
      obtain ⟨entries, parsed, _, known, _⟩ := read
      exact plain_entered .forbidden line entries rfl parsed known

theorem digits_read (number : Bytes) (value read : Nat) (parsed : parseDigits value number = .ok read) :
    ∀ ch ∈ number, 48 ≤ ch ∧ ch ≤ 57 := by
  induction number generalizing value with
  | nil => simp
  | cons ch rest ih =>
      simp only [parseDigits, then_ok, deny_ok, not_or, UInt8.not_lt] at parsed
      exact List.forall_mem_cons.mpr ⟨parsed.1, ih _ parsed.2.2⟩

-- A header line is no line of a section: its number is a word without a key.
theorem header_not_entered (sectionName : SectionName) (line : Bytes) (entered : Entered sectionName line) : ¬ IsHeader line := by
  rintro ⟨pair, read⟩
  simp only [readHeader, bind_ok, under_key_ok] at read
  obtain ⟨_, checked, number, parsed, _⟩ := read
  have some := (deny_ok _ _).mp checked
  simp only [parseU64, then_ok, deny_ok] at parsed
  obtain ⟨_, _, digits⟩ := parsed
  have inside := digits_read _ _ _ digits
  have solid : ∀ ch ∈ (afterWord line).dropWhile isSpace, isSpace ch = false := by
    intro ch member
    have bounds := inside ch member
    rw [isSpace, Bool.or_eq_false_iff, beq_eq_false_iff_ne, beq_eq_false_iff_ne]
    constructor <;> rintro rfl <;> exact absurd bounds.1 (by decide)
  have word : (afterWord line).dropWhile isSpace ∈ words isSpace (afterWord line) := by
    rw [← words_drop_blanks isSpace (afterWord line), words_solid isSpace _ solid some]
    exact List.mem_singleton_self _
  exact absurd (inside 61 (entered.equals _ word)).2 (by decide)

theorem title_opens (state next : ReaderState) (line : Bytes) (handled : handleSection state line = .ok next) :
    ∃ sectionName, titleOf line = some sectionName ∧ sectionName ∉ state.sectionSeen ∧
      next = { state with sectionName := some sectionName, sectionSeen := state.sectionSeen ++ [sectionName] } := by
  simp only [handleSection, bind_ok] at handled
  obtain ⟨_, _, _, _, named⟩ := handled
  rw [titleOf]
  cases parsed : parseSectionName ((line.drop 1).take (line.length - 2)) with
  | none =>
      rw [parsed] at named
      cases named
  | some sectionName =>
      rw [parsed] at named
      simp only [then_ok, deny_ok, Except.ok.injEq] at named
      exact ⟨sectionName, rfl, named.1, named.2.symm⟩

-- What the reader makes sure of once it has seen the banner.
structure Walked (current : Option SectionName) (seen : List SectionName) (lines : List Bytes) : Prop where
  entries : ∀ entry ∈ placed current lines, (entry.1 = none → IsHeader entry.2) ∧
    ∀ sectionName, entry.1 = some sectionName → Entered sectionName entry.2
  titles : ((lines.filter fun line => isSectionLine line).map titleOf).Nodup
  unseen : ∀ sectionName ∈ seen, some sectionName ∉ (lines.filter fun line => isSectionLine line).map titleOf

theorem entry_keeps (state next : ReaderState) (sectionName : SectionName) (line : Bytes)
    (handled : handleEntry state sectionName line = .ok next) :
    next.bannerSeen = state.bannerSeen ∧ next.sectionName = state.sectionName ∧ next.sectionSeen = state.sectionSeen := by
  simp only [handleEntry] at handled
  cases sectionName with
  | collective =>
      simp only [handleCollective, bind_ok, Except.ok.injEq] at handled
      obtain ⟨_, _, _, _, _, _, _, _, _, _, _, _, rfl⟩ := handled
      exact ⟨rfl, rfl, rfl⟩
  | groups | domains | nodes | edges | bindings | policy | forbidden =>
      obtain ⟨spec, _, rfl⟩ := (map_ok _ _ _).mp handled
      exact ⟨rfl, rfl, rfl⟩

theorem plain_walked (current : Option SectionName) (seen : List SectionName) (line : Bytes) (rest : List Bytes)
    (plain : isSectionLine line = false) (here : (current = none → IsHeader line) ∧ ∀ sectionName, current = some sectionName → Entered sectionName line)
    (walked : Walked current seen rest) : Walked current seen (line :: rest) := by
  have skip : ¬ isSectionLine line = true := by
    rw [plain]
    exact Bool.false_ne_true
  refine ⟨?_, ?_, ?_⟩
  · rw [placed, if_neg skip]
    exact List.forall_mem_cons.mpr ⟨here, walked.entries⟩
  · rw [List.filter_cons_of_neg skip]
    exact walked.titles
  · rw [List.filter_cons_of_neg skip]
    exact walked.unseen

theorem run_walked (lines : List Bytes) (state final : ReaderState) (seen : state.bannerSeen = true)
    (run : runAll handleLine state lines = .ok final) : Walked state.sectionName state.sectionSeen lines := by
  induction lines generalizing state with
  | nil => exact ⟨by simp [placed], List.nodup_nil, fun _ _ => List.not_mem_nil⟩
  | cons line rest ih =>
      obtain ⟨next, stepped, later⟩ := (bind_ok _ _ _).mp run
      cases (handle_line_ok state next line).mp stepped with
      | title _ isTitle handled =>
          obtain ⟨sectionName, named, fresh, rfl⟩ := title_opens state next line handled
          have walked := ih { state with sectionName := some sectionName, sectionSeen := state.sectionSeen ++ [sectionName] } seen later
          refine ⟨?_, ?_, ?_⟩
          · rw [placed, if_pos isTitle, named]
            exact walked.entries
          · rw [List.filter_cons_of_pos isTitle, List.map_cons, named]
            exact List.nodup_cons.mpr ⟨walked.unseen sectionName (List.mem_append_right _ (List.mem_singleton_self _)), walked.titles⟩
          · intro earlier member
            rw [List.filter_cons_of_pos isTitle, List.map_cons, named, List.mem_cons, not_or]
            refine ⟨fun same => ?_, walked.unseen earlier (List.mem_append_left _ member)⟩
            exact fresh (Option.some.inj same ▸ member)
      | banner plain unseen _ =>
          rw [seen] at unseen
          cases unseen
      | header spec plain _ outside handled =>
          have walked := ih { state with spec } seen later
          simp only [handleHeader, bind_ok] at handled
          obtain ⟨pair, read, _⟩ := handled
          refine plain_walked _ _ line rest plain ⟨fun _ => ⟨pair, read⟩, fun sectionName inside => ?_⟩ walked
          rw [outside] at inside
          cases inside
      | entry sectionName _ plain _ inside handled =>
          obtain ⟨banner, kept, same⟩ := entry_keeps state next sectionName line handled
          have walked := ih next (banner.trans seen) later
          rw [kept, same] at walked
          refine plain_walked _ _ line rest plain ⟨fun outside => ?_, fun other found => ?_⟩ walked
          · rw [inside] at outside
            cases outside
          · rw [inside] at found
            exact Option.some.inj found ▸ entry_entered state next sectionName line handled

theorem words_first (line : Bytes) (ch : UInt8) (head : line.head? = some ch) (solid : isSpace ch = false) :
    words isSpace line = firstWord line :: words isSpace (afterWord line) := by
  have whole : firstWord line ++ afterWord line = line := List.takeWhile_append_dropWhile
  have some : firstWord line ≠ [] := by
    cases line with
    | nil => cases head
    | cons first rest =>
        cases head
        rw [firstWord, List.takeWhile_cons_of_pos (by rw [solid]; rfl)]
        exact List.cons_ne_nil _ _
  conv_lhs => rw [← whole]
  apply words_cons isSpace (firstWord line) (afterWord line) _ some
  · exact fun ch head => (Bool.not_eq_false' _).mp (dropped_head (fun ch => !isSpace ch) line ch head)
  · intro ch inside
    have unspaced := List.mem_takeWhile_imp inside
    exact (Bool.not_eq_true' _).mp unspaced

theorem digits_grow (number : Bytes) (value read : Nat) (parsed : parseDigits value number = .ok read) :
    value ≤ read ∧ (number ≠ [] → value * 10 ≤ read) := by
  induction number generalizing value with
  | nil => exact ⟨(Except.ok.inj parsed).le, fun some => absurd rfl some⟩
  | cons ch rest ih =>
      simp only [parseDigits, then_ok] at parsed
      have more := (ih _ parsed.2.2).1
      omega

-- One is written in one way.
theorem one_written (number : Bytes) (parsed : parseU64 number = .ok 1) : number = text "1" := by
  simp only [parseU64, then_ok, deny_ok, not_and, gt_iff_lt] at parsed
  obtain ⟨some, leading, digits⟩ := parsed
  cases number with
  | nil => exact absurd rfl some
  | cons ch rest =>
      have bounds := digits_read (ch :: rest) 0 1 digits ch List.mem_cons_self
      simp only [parseDigits, then_ok, Nat.zero_mul, Nat.zero_add] at digits
      obtain ⟨_, _, digits⟩ := digits
      have low : 48 ≤ ch.toNat := UInt8.le_iff_toNat_le.mp bounds.1
      obtain ⟨least, more⟩ := digits_grow rest _ _ digits
      by_cases last : rest = []
      · subst last
        have value := Except.ok.inj digits
        have digit : ch = 49 := UInt8.toNat_inj.mp (show ch.toNat = 49 by omega)
        rw [digit]
        rfl
      · have nonzero : ch.toNat ≠ 48 := fun same => leading (by
          rw [List.length_cons]
          have := List.length_pos_iff.mpr last
          omega) (congrArg Option.some (UInt8.toNat_inj.mp same))
        have := more last
        omega

theorem banner_read (line : Bytes) (handled : handleBanner line = .ok ()) : IsBanner line := by
  simp only [handleBanner, bind_ok, under_key_ok] at handled
  obtain ⟨_, keyword, version, parsed, checked⟩ := handled
  have named : firstWord line = text "cpath-request" := not_not.mp ((deny_ok _ _).mp keyword)
  obtain rfl : version = 1 := not_not.mp ((deny_ok _ _).mp checked)
  have value := one_written _ parsed
  have head : line.head? = some 99 := by
    have front : firstWord line ++ afterWord line = line := List.takeWhile_append_dropWhile
    rw [← front, named]
    rfl
  rw [IsBanner, words_first line 99 head rfl, named, ← words_drop_blanks, value]
  rfl

-- The first line that counts opens no section, and no key of the forbidden section stands on two lines.
structure Orderly (lines : List Bytes) : Prop where
  opening : ∀ first ∈ lines.head?, isSectionLine first = false
  once : (forbiddenKeys lines.tail).Nodup

theorem banner_plain (line : Bytes) (banner : IsBanner line) : isSectionLine line = false := by
  by_contra title
  have head : line.head? = some 91 := of_decide_eq_true (Bool.not_eq_false _ ▸ title)
  have first := words_first line 91 head rfl
  rw [banner, List.cons.injEq] at first
  have bracket : (firstWord line).head? = some 91 := by
    cases line with
    | nil => cases head
    | cons ch rest =>
        cases head
        rfl
  rw [← first.1] at bracket
  cases bracket

-- An accepted document has the structure of the grammar exactly where the two rules that nothing checks happen to be kept.
theorem document_structured_iff (input : Bytes) (spec : RequestSpec) (parsed : parseRequestSpec input = .ok spec) :
    Structured (significant (input.splitOn 10)) ↔ Orderly (significant (input.splitOn 10)) := by
  obtain ⟨final, accepted, _⟩ := (parse_request_spec_ok input spec).mp parsed
  have run := accepted.run
  constructor
  · intro structured
    refine ⟨fun first head => ?_, structured.forbidden⟩
    obtain ⟨found, same, banner⟩ := structured.banner
    rw [same] at head
    cases head
    exact banner_plain _ banner
  · intro orderly
    cases listed : significant (input.splitOn 10) with
    | nil =>
        rw [listed] at run
        have unseen := accepted.banner
        rw [← Except.ok.inj run] at unseen
        cases unseen
    | cons first rest =>
        rw [listed] at run orderly
        obtain ⟨next, stepped, later⟩ := (bind_ok _ _ _).mp run
        have plain := orderly.opening first rfl
        cases (handle_line_ok {} next first).mp stepped with
        | title _ isTitle _ =>
            rw [plain] at isTitle
            cases isTitle
        | banner _ _ handled =>
            have walked := run_walked rest _ final rfl later
            refine ⟨⟨first, rfl, banner_read first handled⟩, fun entry member => ?_, ?_, orderly.once, fun entry member sectionName inside => ?_⟩
            · refine ⟨(walked.entries entry member).1, fun isHeader => ?_⟩
              by_contra inside
              obtain ⟨sectionName, named⟩ := Option.ne_none_iff_exists'.mp inside
              exact header_not_entered sectionName entry.2 ((walked.entries entry member).2 sectionName named) isHeader
            · rw [List.filter_cons_of_neg (by rw [plain]; exact Bool.false_ne_true)]
              exact walked.titles
            · have entered := (walked.entries entry member).2 sectionName inside
              exact ⟨entered.distinct, entered.known⟩
        | header _ _ seen _ _ => cases seen
        | entry _ _ _ seen _ _ => cases seen

def smallDocument : Bytes := text "cpath-request 1\n[forbidden]\nnodes=n9\ntiers=MGMT"

theorem small_document_structured : Structured (significant (smallDocument.splitOn 10)) := by
  have accepted : (parseRequestSpec smallDocument).toBool = true := by decide +kernel
  cases parsed : parseRequestSpec smallDocument with
  | error status =>
      rw [parsed] at accepted
      cases accepted
  | ok spec =>
      apply (document_structured_iff smallDocument spec parsed).mpr
      have opens : (significant (smallDocument.splitOn 10)).head? = some (text "cpath-request 1") := by decide +kernel
      refine ⟨fun first head => ?_, by decide +kernel⟩
      rw [opens] at head
      cases head
      rfl

def lateBanner : Bytes := text "[groups]\ncpath-request 1"

theorem late_banner_accepted :
    ¬ ∀ input spec, parseRequestSpec input = .ok spec → Structured (significant (input.splitOn 10)) := by
  intro always
  have accepted : (parseRequestSpec lateBanner).toBool = true := by decide +kernel
  cases parsed : parseRequestSpec lateBanner with
  | error status =>
      rw [parsed] at accepted
      cases accepted
  | ok spec =>
      obtain ⟨first, head, banner⟩ := (always lateBanner spec parsed).banner
      have title : (significant (lateBanner.splitOn 10)).head? = some (text "[groups]") := by decide +kernel
      rw [title] at head
      cases head
      exact absurd banner (by decide +kernel)

end Dsl

end PathPlanner

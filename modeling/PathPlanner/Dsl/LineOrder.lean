import PathPlanner.Dsl.SectionLines

set_option autoImplicit false

namespace PathPlanner

open Checks Permuted

namespace Dsl

theorem within_keeps (place : Option SectionName) (state next : ReaderState) (line : Bytes)
    (handled : handleWithin place state line = .ok next) :
    next.bannerSeen = state.bannerSeen ∧ next.sectionName = state.sectionName ∧ next.sectionSeen = state.sectionSeen := by
  cases place with
  | none =>
      obtain ⟨spec, _, rfl⟩ := (map_ok _ _ _).mp handled
      exact ⟨rfl, rfl, rfl⟩
  | some sectionName => exact entry_keeps state next sectionName line handled

theorem line_within (state : ReaderState) (line : Bytes) (seen : state.bannerSeen = true) (plain : isSectionLine line = false) :
    handleLine state line = handleWithin state.sectionName state line := by
  obtain ⟨bannerSeen, collectiveSeen, place, sections, spec⟩ := state
  unfold handleLine
  rw [if_neg (by simp [plain]), if_neg (by simpa using seen)]
  cases place with
  | none => rfl
  | some sectionName => rfl

-- Between two titles the reader stays where it is.
theorem run_within (front : List Bytes) (state : ReaderState) (seen : state.bannerSeen = true)
    (plain : ∀ line ∈ front, isSectionLine line = false) :
    runAll handleLine state front = runAll (handleWithin state.sectionName) state front := by
  induction front generalizing state with
  | nil => rfl
  | cons line rest ih =>
      obtain ⟨first, others⟩ := List.forall_mem_cons.mp plain
      rw [runAll, runAll, line_within state line seen first]
      cases handled : handleWithin state.sectionName state line with
      | error status => rfl
      | ok next =>
          obtain ⟨banner, current, _⟩ := within_keeps _ state next line handled
          change runAll handleLine next rest = runAll (handleWithin state.sectionName) next rest
          rw [ih next (banner.trans seen) others, current]

theorem run_keeps (place : Option SectionName) (front : List Bytes) (state final : ReaderState)
    (run : runAll (handleWithin place) state front = .ok final) :
    final.bannerSeen = state.bannerSeen ∧ final.sectionName = state.sectionName ∧ final.sectionSeen = state.sectionSeen := by
  induction front generalizing state with
  | nil =>
      obtain rfl := Except.ok.inj run
      exact ⟨rfl, rfl, rfl⟩
  | cons line rest ih =>
      obtain ⟨next, handled, later⟩ := (bind_ok _ _ _).mp run
      obtain ⟨banner, current, sections⟩ := within_keeps place state next line handled
      obtain ⟨bannerLater, currentLater, sectionsLater⟩ := ih next later
      exact ⟨bannerLater.trans banner, currentLater.trans current, sectionsLater.trans sections⟩

theorem title_alike (state twin next : ReaderState) (title : Bytes) (like : ReaderAlike state twin)
    (handled : handleSection state title = .ok next) : ∃ other, handleSection twin title = .ok other ∧ ReaderAlike next other := by
  unfold handleSection at handled ⊢
  rw [like.seen]
  simp only [then_ok, deny_ok] at handled ⊢
  obtain ⟨shape, named, handled⟩ := handled
  cases parsed : parseSectionName ((title.drop 1).take (title.length - 2)) with
  | none =>
      rw [parsed] at handled
      cases handled
  | some sectionName =>
      rw [parsed] at handled
      simp only [then_ok, deny_ok] at handled ⊢
      obtain ⟨fresh, handled⟩ := handled
      obtain rfl := Except.ok.inj handled
      exact ⟨_, ⟨shape, named, fresh, rfl⟩, { like with current := rfl, seen := rfl }⟩

-- Documents whose lines stand in the same places, in each place in an order of their own.
inductive Reordered : List Bytes → List Bytes → Prop where
  | last (front back : List Bytes) (perm : front.Perm back) (plain : ∀ line ∈ front, isSectionLine line = false) :
      Reordered front back
  | next (front back : List Bytes) (title : Bytes) (rest others : List Bytes) (perm : front.Perm back)
      (plain : ∀ line ∈ front, isSectionLine line = false) (isTitle : isSectionLine title = true) (later : Reordered rest others) :
      Reordered (front ++ title :: rest) (back ++ title :: others)

def plainFront (lines : List Bytes) : List Bytes := lines.takeWhile fun line => !isSectionLine line

-- Lines of one place, up to the next title, give one value to what more than one of them sets.
def Settled : Option SectionName → List Bytes → Prop
  | _, [] => True
  | place, line :: rest =>
      if isSectionLine line = true then Settled (titleOf line) rest
      else (∀ other ∈ plainFront rest, Agree place line other) ∧ Settled place rest

theorem settled_title (place : Option SectionName) (title : Bytes) (rest : List Bytes) (isTitle : isSectionLine title = true) :
    Settled place (title :: rest) ↔ Settled (titleOf title) rest := by
  rw [Settled, if_pos isTitle]

theorem plain_front_append (front rest : List Bytes) (plain : ∀ line ∈ front, isSectionLine line = false)
    (closed : ∀ line ∈ rest.head?, isSectionLine line = true) : plainFront (front ++ rest) = front := by
  have stops : plainFront rest = [] := by
    cases rest with
    | nil => rfl
    | cons title _ => exact List.takeWhile_cons_of_neg (by simp [closed title rfl])
  rw [plainFront, List.takeWhile_append_of_pos fun line member => by simp [plain line member]]
  exact (congrArg (front ++ ·) stops).trans (List.append_nil front)

theorem settled_front (place : Option SectionName) (front rest : List Bytes) (plain : ∀ line ∈ front, isSectionLine line = false)
    (closed : ∀ line ∈ rest.head?, isSectionLine line = true) :
    Settled place (front ++ rest) ↔ front.Pairwise (Agree place) ∧ Settled place rest := by
  induction front with
  | nil => simp
  | cons line front ih =>
      obtain ⟨first, others⟩ := List.forall_mem_cons.mp plain
      rw [List.cons_append, Settled, if_neg (by simp [first]), plain_front_append front rest others closed, ih others,
        List.pairwise_cons, and_assoc]

theorem front_reordered (front back : List Bytes) (perm : front.Perm back) (plain : ∀ line ∈ front, isSectionLine line = false)
    (state twin middle : ReaderState) (like : ReaderAlike state twin) (seen : state.bannerSeen = true)
    (agree : front.Pairwise (Agree state.sectionName)) (run : runAll handleLine state front = .ok middle) :
    ∃ other, runAll handleLine twin back = .ok other ∧ ReaderAlike middle other ∧ middle.bannerSeen = true ∧
      middle.sectionName = state.sectionName := by
  rw [run_within front state seen plain] at run
  obtain ⟨banner, current, _⟩ := run_keeps _ front state middle run
  obtain ⟨between, runBack, closer⟩ := run_perm _ _ _ (within_commutes state.sectionName) front back perm agree state middle run
  obtain ⟨other, runTwin, near⟩ := run_congr _ _ _ (within_commutes state.sectionName) back state twin between like runBack
  refine ⟨other, ?_, ReaderAlike.trans _ _ _ closer near, banner.trans seen, current⟩
  rw [run_within back twin (like.banner.trans seen) fun line member => plain line (perm.mem_iff.mpr member), like.current]
  exact runTwin

-- Once the banner is seen, a document and its reordering are read alike.
theorem run_reordered (lines others : List Bytes) (reordered : Reordered lines others) (state twin final : ReaderState)
    (like : ReaderAlike state twin) (seen : state.bannerSeen = true) (settled : Settled state.sectionName lines)
    (run : runAll handleLine state lines = .ok final) :
    ∃ other, runAll handleLine twin others = .ok other ∧ ReaderAlike final other := by
  induction reordered generalizing state twin with
  | last front back perm plain =>
      have agree := ((settled_front _ front [] plain (by simp)).mp (by rwa [List.append_nil])).1
      obtain ⟨other, runOther, near, _⟩ := front_reordered front back perm plain state twin final like seen agree run
      exact ⟨other, runOther, near⟩
  | next front back title rest others perm plain isTitle _ ih =>
      obtain ⟨agree, later⟩ := (settled_front _ front (title :: rest) plain (by simpa using isTitle)).mp settled
      rw [run_append] at run
      obtain ⟨middle, runFront, run⟩ := (bind_ok _ _ _).mp run
      obtain ⟨between, runBack, near, banner, current⟩ :=
        front_reordered front back perm plain state twin middle like seen agree runFront
      obtain ⟨opened, handled, run⟩ := (bind_ok _ _ _).mp run
      rw [handleLine, if_pos isTitle] at handled
      obtain ⟨sectionName, named, _, rfl⟩ := title_opens middle opened title handled
      obtain ⟨twinOpened, twinHandled, closer⟩ := title_alike middle between _ title near handled
      rw [settled_title _ _ _ isTitle, named] at later
      obtain ⟨other, runOther, final⟩ := ih _ twinOpened closer banner later run
      refine ⟨other, ?_, final⟩
      rw [run_append]
      refine (bind_ok _ _ _).mpr ⟨between, runBack, (bind_ok _ _ _).mpr ⟨twinOpened, ?_, runOther⟩⟩
      rw [handleLine, if_pos isTitle]
      exact twinHandled

-- Titles may stand before the banner; from the banner on the lines of one place are reordered.
theorem run_document (titles : List Bytes) (banner : Bytes) (lines others : List Bytes)
    (titled : ∀ title ∈ titles, isSectionLine title = true) (plain : isSectionLine banner = false)
    (reordered : Reordered lines others) (state final : ReaderState) (unseen : state.bannerSeen = false) (settled : Settled state.sectionName (titles ++ banner :: lines))
    (run : runAll handleLine state (titles ++ banner :: lines) = .ok final) :
    ∃ other, runAll handleLine state (titles ++ banner :: others) = .ok other ∧ ReaderAlike final other := by
  induction titles generalizing state with
  | nil =>
      obtain ⟨next, handled, later⟩ := (bind_ok _ _ _).mp run
      rw [List.nil_append, Settled, if_neg (by simp [plain])] at settled
      cases (handle_line_ok state next banner).mp handled with
      | title _ isTitle _ =>
          rw [plain] at isTitle
          cases isTitle
      | banner _ _ _ =>
          obtain ⟨other, runOther, like⟩ := run_reordered lines others reordered { state with bannerSeen := true } _ final
            (ReaderAlike.refl _) rfl settled.2 later
          exact ⟨other, (bind_ok _ _ _).mpr ⟨_, handled, runOther⟩, like⟩
      | header _ _ seen _ _ =>
          rw [unseen] at seen
          cases seen
      | entry _ _ _ seen _ _ =>
          rw [unseen] at seen
          cases seen
  | cons title rest ih =>
      obtain ⟨isTitle, later⟩ := List.forall_mem_cons.mp titled
      obtain ⟨next, handled, run⟩ := (bind_ok _ _ _).mp run
      have opened := handled
      rw [handleLine, if_pos isTitle] at opened
      obtain ⟨sectionName, named, _, rfl⟩ := title_opens state next title opened
      rw [List.cons_append, settled_title _ _ _ isTitle, named] at settled
      obtain ⟨other, runOther, like⟩ := ih later
        { state with sectionName := some sectionName, sectionSeen := state.sectionSeen ++ [sectionName] } unseen settled run
      exact ⟨other, (bind_ok _ _ _).mpr ⟨_, handled, runOther⟩, like⟩

theorem Reordered.kept (line : Bytes) (lines others : List Bytes) (plain : isSectionLine line = false)
    (reordered : Reordered lines others) : Reordered (line :: lines) (line :: others) := by
  cases reordered with
  | last _ _ perm rest => exact .last _ _ (perm.cons line) (List.forall_mem_cons.mpr ⟨plain, rest⟩)
  | next front back title rest others perm inside isTitle later =>
      exact .next (line :: front) (line :: back) title rest others (perm.cons line) (List.forall_mem_cons.mpr ⟨plain, inside⟩)
        isTitle later

theorem Reordered.refl (lines : List Bytes) : Reordered lines lines := by
  induction lines with
  | nil => exact .last [] [] .nil (by simp)
  | cons line rest ih =>
      by_cases isTitle : isSectionLine line = true
      · exact .next [] [] line rest rest .nil (by simp) isTitle ih
      · exact Reordered.kept line rest rest (by simpa using isTitle) ih

theorem Reordered.swapped (first second : Bytes) (lines others : List Bytes) (plain : isSectionLine first = false)
    (also : isSectionLine second = false) (reordered : Reordered lines others) :
    Reordered (first :: second :: lines) (second :: first :: others) := by
  cases reordered with
  | last _ _ perm inside =>
      exact .last _ _ (.trans (.swap second first _) ((perm.cons first).cons second)) (by simpa [plain, also] using inside)
  | next front back title rest others perm inside isTitle later =>
      exact .next (first :: second :: front) (second :: first :: back) title rest others
        (.trans (.swap second first _) ((perm.cons first).cons second)) (by simpa [plain, also] using inside) isTitle later

theorem Reordered.perm (lines others : List Bytes) (reordered : Reordered lines others) : lines.Perm others := by
  induction reordered with
  | last _ _ perm _ => exact perm
  | next _ _ title _ _ perm _ _ _ ih => exact perm.append (ih.cons title)

end Dsl

end PathPlanner

import PathPlanner.Lib.Sequence
import PathPlanner.Lib.Checks

set_option autoImplicit false

-- Results that do not depend on the order in which things are listed.
namespace PathPlanner.Permuted

open Checks Sequence

section Sorting

variable {α κ : Type} [LinearOrder κ]

theorem sorted_by_key (key : α → κ) (weak : α → α → Prop) [DecidableRel weak] (keyed : ∀ a b, weak a b ↔ key a ≤ key b)
    (items : List α) : (items.insertionSort weak).Pairwise weak := by
  have : Std.Total weak := ⟨fun a b => by simpa only [keyed] using le_total (key a) (key b)⟩
  have : IsTrans α weak := ⟨fun _ _ _ => by simpa only [keyed] using le_trans⟩
  exact List.pairwise_insertionSort weak items

theorem sort_perm (key : α → κ) (weak : α → α → Prop) [DecidableRel weak] (keyed : ∀ a b, weak a b ↔ key a ≤ key b)
    (left right : List α) (perm : left.Perm right) (distinct : ∀ a ∈ left, ∀ b ∈ left, key a = key b → a = b) :
    left.insertionSort weak = right.insertionSort weak := by
  have leftPerm := List.perm_insertionSort weak left
  have rightPerm := List.perm_insertionSort weak right
  refine List.Perm.eq_of_pairwise ?_ (sorted_by_key key weak keyed left) (sorted_by_key key weak keyed right)
    (leftPerm.trans (perm.trans rightPerm.symm))
  intro a b inLeft inRight before after
  have inside := perm.symm.mem_iff.mp (rightPerm.mem_iff.mp inRight)
  exact distinct a (leftPerm.mem_iff.mp inLeft) b inside (le_antisymm ((keyed a b).mp before) ((keyed b a).mp after))

theorem chain_both (weak apart : α → α → Prop) (items : List α) (sorted : items.Pairwise weak) (chain : items.IsChain apart) :
    items.IsChain fun a b => weak a b ∧ apart a b := by
  induction items with
  | nil => exact .nil
  | cons first rest ih =>
      cases rest with
      | nil => exact .singleton first
      | cons second others =>
          obtain ⟨above, later⟩ := List.pairwise_cons.mp sorted
          rw [List.isChain_cons_cons] at chain ⊢
          exact ⟨⟨above second (by simp), chain.1⟩, ih later chain.2⟩

-- A list sorted by a key that no two neighbours share is the one sorted form of its permutations.
theorem sort_perm_apart (key : α → κ) (weak : α → α → Prop) [DecidableRel weak] (keyed : ∀ a b, weak a b ↔ key a ≤ key b)
    (left right : List α) (perm : left.Perm right) (apart : (left.insertionSort weak).IsChain fun a b => key a ≠ key b) :
    left.insertionSort weak = right.insertionSort weak := by
  have both := chain_both _ _ _ (sorted_by_key key weak keyed left) apart
  have strict : ((left.insertionSort weak).map key).IsChain (· < ·) := by
    refine (List.isChain_map key).mpr (both.imp fun a b near => ?_)
    exact lt_of_le_of_ne ((keyed a b).mp near.1) near.2
  have distinct : ((left.insertionSort weak).map key).Nodup := strict.pairwise.imp ne_of_lt
  refine sort_perm key weak keyed left right perm fun a first b second same => ?_
  exact List.inj_on_of_nodup_map distinct ((List.mem_insertionSort weak).mpr first) ((List.mem_insertionSort weak).mpr second) same

theorem sort_unique_ext (left right : List κ) (same : ∀ a, a ∈ left ↔ a ∈ right) : sortUnique left = sortUnique right := by
  have leftSorted := sort_unique_strict left
  have rightSorted := sort_unique_strict right
  have perm : (sortUnique left).Perm (sortUnique right) := by
    refine (List.perm_ext_iff_of_nodup (leftSorted.imp ne_of_lt) (rightSorted.imp ne_of_lt)).mpr fun a => ?_
    rw [sort_unique_mem, sort_unique_mem, same]
  exact perm.eq_of_pairwise (fun a b _ _ before after => absurd before (lt_asymm after)) leftSorted rightSorted

end Sorting

section Reading

variable {ε α β σ : Type}

-- A list of which each element is read on its own.
def readAll (read : α → Except ε β) : List α → Except ε (List β)
  | [] => .ok []
  | item :: rest => do
      let first ← read item
      let others ← readAll read rest
      .ok (first :: others)

theorem read_all_ok (read : α → Except ε β) (items : List α) (values : List β) :
    readAll read items = .ok values ↔ List.Forall₂ (fun item value => read item = .ok value) items values := by
  induction items generalizing values with
  | nil =>
      rw [readAll, Except.ok.injEq, List.forall₂_nil_left_iff]
      exact eq_comm
  | cons item rest ih =>
      simp only [readAll, bind_ok, ih, Except.ok.injEq]
      constructor
      · rintro ⟨first, firstRead, others, restRead, rfl⟩
        exact .cons firstRead restRead
      · rintro (_ | ⟨firstRead, restRead⟩)
        exact ⟨_, firstRead, _, restRead, rfl⟩

theorem read_all_perm (read : α → Except ε β) (items others : List α) (values : List β) (perm : items.Perm others)
    (done : readAll read items = .ok values) : ∃ results, readAll read others = .ok results ∧ values.Perm results := by
  obtain ⟨results, each, shuffled⟩ := List.perm_comp_forall₂ perm.symm ((read_all_ok read items values).mp done)
  exact ⟨results, (read_all_ok read others results).mpr each, shuffled.symm⟩

-- A run over a list, and what two runs over a permuted list have in common when their steps commute.
def runAll (step : σ → α → Except ε σ) (state : σ) : List α → Except ε σ
  | [] => .ok state
  | item :: rest => do
      let next ← step state item
      runAll step next rest

theorem run_append (step : σ → α → Except ε σ) (state : σ) (front back : List α) :
    runAll step state (front ++ back) = (runAll step state front >>= fun next => runAll step next back) := by
  induction front generalizing state with
  | nil => rfl
  | cons item rest ih =>
      simp only [List.cons_append, runAll]
      cases step state item with
      | error status => rfl
      | ok next => exact ih next

structure Commuting (step : σ → α → Except ε σ) (alike : σ → σ → Prop) (apart : α → α → Prop) : Prop where
  same : ∀ state, alike state state
  trans : ∀ first second third, alike first second → alike second third → alike first third
  symm : ∀ first second, apart first second → apart second first
  congr : ∀ state twin item next, alike state twin → step state item = .ok next →
    ∃ other, step twin item = .ok other ∧ alike next other
  swap : ∀ state first second middle next, apart first second → step state first = .ok middle → step middle second = .ok next →
    ∃ between other, step state second = .ok between ∧ step between first = .ok other ∧ alike next other

theorem run_congr (step : σ → α → Except ε σ) (alike : σ → σ → Prop) (apart : α → α → Prop)
    (commuting : Commuting step alike apart) (items : List α) (state twin next : σ) (like : alike state twin)
    (run : runAll step state items = .ok next) : ∃ other, runAll step twin items = .ok other ∧ alike next other := by
  induction items generalizing state twin with
  | nil =>
      obtain rfl := Except.ok.inj run
      exact ⟨twin, rfl, like⟩
  | cons item rest ih =>
      obtain ⟨middle, stepped, later⟩ := (bind_ok _ _ _).mp run
      obtain ⟨between, twinStepped, closer⟩ := commuting.congr state twin item middle like stepped
      obtain ⟨other, finished, final⟩ := ih middle between closer later
      exact ⟨other, (bind_ok _ _ _).mpr ⟨between, twinStepped, finished⟩, final⟩

theorem run_perm (step : σ → α → Except ε σ) (alike : σ → σ → Prop) (apart : α → α → Prop)
    (commuting : Commuting step alike apart) (items others : List α) (perm : items.Perm others)
    (separate : items.Pairwise apart) (state next : σ) (run : runAll step state items = .ok next) :
    ∃ other, runAll step state others = .ok other ∧ alike next other := by
  induction perm generalizing state next with
  | nil => exact ⟨next, run, commuting.same next⟩
  | cons item _ ih =>
      obtain ⟨middle, stepped, later⟩ := (bind_ok _ _ _).mp run
      obtain ⟨other, finished, like⟩ := ih (List.pairwise_cons.mp separate).2 middle next later
      exact ⟨other, (bind_ok _ _ _).mpr ⟨middle, stepped, finished⟩, like⟩
  | swap second first rest =>
      obtain ⟨middle, stepped, later⟩ := (bind_ok _ _ _).mp run
      obtain ⟨both, steppedAgain, later⟩ := (bind_ok _ _ _).mp later
      have away := (List.pairwise_cons.mp separate).1 second (by simp)
      obtain ⟨between, twin, one, two, like⟩ := commuting.swap state first second middle both away stepped steppedAgain
      obtain ⟨other, finished, closer⟩ := run_congr step alike apart commuting rest both twin next like later
      exact ⟨other, (bind_ok _ _ _).mpr ⟨between, one, (bind_ok _ _ _).mpr ⟨twin, two, finished⟩⟩, closer⟩
  | trans firstPerm _ ihFirst ihSecond =>
      obtain ⟨between, runBetween, like⟩ := ihFirst separate state next run
      have still := firstPerm.pairwise separate fun away => commuting.symm _ _ away
      obtain ⟨other, finished, closer⟩ := ihSecond still state between runBetween
      exact ⟨other, finished, commuting.trans next between other like closer⟩

end Reading

end PathPlanner.Permuted

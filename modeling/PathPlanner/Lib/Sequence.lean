import Mathlib

set_option autoImplicit false

namespace PathPlanner.Sequence

-- Vectors are lists. A run of equal neighbours keeps its first element, as a
-- unique/erase pair does; what counts as equal is decided by a key.
section Unique

variable {α β : Type} [DecidableEq β]

def uniqueAfter (key : α → β) (last : β) : List α → List α
  | [] => []
  | head :: tail =>
      if key head = last then uniqueAfter key last tail else head :: uniqueAfter key (key head) tail

def uniqueBy (key : α → β) : List α → List α
  | [] => []
  | head :: tail => head :: uniqueAfter key (key head) tail

theorem unique_after_sublist (key : α → β) (last : β) (list : List α) :
    (uniqueAfter key last list).Sublist list := by
  induction list generalizing last with
  | nil => exact List.Sublist.slnil
  | cons head tail ih =>
      by_cases same : key head = last
      · rw [uniqueAfter, if_pos same]
        exact (ih last).cons head
      · rw [uniqueAfter, if_neg same]
        exact (ih (key head)).cons_cons head

theorem unique_sublist (key : α → β) (list : List α) : (uniqueBy key list).Sublist list := by
  cases list with
  | nil => exact List.Sublist.slnil
  | cons head tail => exact (unique_after_sublist key (key head) tail).cons_cons head

theorem unique_after_chain (key : α → β) (first : α) (list : List α) :
    (first :: uniqueAfter key (key first) list).IsChain (fun a b => key a ≠ key b) := by
  induction list generalizing first with
  | nil => simp [uniqueAfter]
  | cons head tail ih =>
      by_cases same : key head = key first
      · rw [uniqueAfter, if_pos same]
        exact ih first
      · rw [uniqueAfter, if_neg same, List.isChain_cons_cons]
        exact ⟨fun eq => same eq.symm, ih head⟩

theorem unique_after_keys (key : α → β) (last : β) (list : List α) (a : α) (member : a ∈ list) :
    key a = last ∨ ∃ b ∈ uniqueAfter key last list, key b = key a := by
  induction list generalizing last with
  | nil => simp at member
  | cons head tail ih =>
      by_cases same : key head = last
      · rw [uniqueAfter, if_pos same]
        rcases List.mem_cons.mp member with rfl | inTail
        · exact Or.inl same
        · exact ih last inTail
      · rw [uniqueAfter, if_neg same]
        refine Or.inr ?_
        rcases List.mem_cons.mp member with rfl | inTail
        · exact ⟨a, by simp, rfl⟩
        · rcases ih (key head) inTail with eq | ⟨b, kept, eq⟩
          · exact ⟨head, by simp, eq.symm⟩
          · exact ⟨b, List.mem_cons_of_mem _ kept, eq⟩

theorem unique_keys (key : α → β) (list : List α) (a : α) (member : a ∈ list) :
    ∃ b ∈ uniqueBy key list, key b = key a := by
  cases list with
  | nil => simp at member
  | cons head tail =>
      rcases List.mem_cons.mp member with rfl | inTail
      · exact ⟨a, by simp [uniqueBy], rfl⟩
      · rcases unique_after_keys key (key head) tail a inTail with eq | ⟨b, kept, eq⟩
        · exact ⟨head, by simp [uniqueBy], eq.symm⟩
        · exact ⟨b, List.mem_cons_of_mem _ kept, eq⟩

-- Sorting first makes equal keys neighbours, so what is left is strictly ordered.
theorem unique_strict (key : α → β) (weak strict : α → α → Prop) [Trans strict strict strict]
    (list : List α) (sorted : list.Pairwise weak)
    (upgrade : ∀ a b, weak a b → key a ≠ key b → strict a b) :
    (uniqueBy key list).Pairwise strict := by
  have weakKept : (uniqueBy key list).Pairwise weak := sorted.sublist (unique_sublist key list)
  have differs : (uniqueBy key list).IsChain (fun a b => key a ≠ key b) := by
    cases list with
    | nil => simp [uniqueBy]
    | cons head tail => exact unique_after_chain key head tail
  have both : (uniqueBy key list).IsChain strict := by
    generalize uniqueBy key list = kept at weakKept differs
    induction kept with
    | nil => simp
    | cons head tail ih =>
        cases tail with
        | nil => simp
        | cons next rest =>
            rw [List.isChain_cons_cons] at differs ⊢
            rw [List.pairwise_cons] at weakKept
            exact ⟨upgrade head next (weakKept.1 next (by simp)) differs.1, ih weakKept.2 differs.2⟩
  exact both.pairwise

end Unique

section Sorted

variable {α : Type} [LinearOrder α]

def sortValues (values : List α) : List α := values.insertionSort (· ≤ ·)

def sortUnique (values : List α) : List α := uniqueBy id (sortValues values)

theorem sort_values_perm (values : List α) : (sortValues values).Perm values :=
  List.perm_insertionSort _ values

theorem sort_values_sorted (values : List α) : (sortValues values).Pairwise (· ≤ ·) :=
  List.pairwise_insertionSort (· ≤ ·) values

theorem sort_unique_mem (values : List α) (a : α) : a ∈ sortUnique values ↔ a ∈ values := by
  constructor
  · intro kept
    exact (sort_values_perm values).mem_iff.mp ((unique_sublist id _).mem kept)
  · intro member
    obtain ⟨b, kept, eq⟩ := unique_keys id _ a ((sort_values_perm values).mem_iff.mpr member)
    have same : b = a := eq
    rwa [← same]

theorem sort_unique_strict (values : List α) : (sortUnique values).Pairwise (· < ·) :=
  unique_strict id (· ≤ ·) (· < ·) _ (sort_values_sorted values)
    (fun _ _ le ne => lt_of_le_of_ne le ne)

-- The first element not below the probe decides the search on a sorted list.
def binarySearch (values : List α) (probe : α) : Bool :=
  match values.dropWhile (· < probe) with
  | [] => false
  | found :: _ => !decide (probe < found)

theorem binary_search_mem (values : List α) (probe : α) (sorted : values.Pairwise (· ≤ ·)) :
    binarySearch values probe = true ↔ probe ∈ values := by
  induction values with
  | nil => simp [binarySearch]
  | cons head tail ih =>
      obtain ⟨first, rest⟩ := List.pairwise_cons.mp sorted
      by_cases below : head < probe
      · have step : binarySearch (head :: tail) probe = binarySearch tail probe := by
          simp [binarySearch, below]
        have differ : probe ≠ head := ne_of_gt below
        rw [step, ih rest, List.mem_cons]
        simp [differ]
      · have step : binarySearch (head :: tail) probe = !decide (probe < head) := by
          simp [binarySearch, below]
        rw [step]
        constructor
        · intro found
          have notLess : ¬ probe < head := by simpa using found
          exact List.mem_cons.mpr (Or.inl (le_antisymm (not_lt.mp below) (not_lt.mp notLess)))
        · intro member
          have above : head ≤ probe := by
            rcases List.mem_cons.mp member with eq | inTail
            · exact le_of_eq eq.symm
            · exact first probe inTail
          simpa using above

def ascending : List α → Bool
  | [] => true
  | [_] => true
  | a :: b :: rest => decide (a < b) && ascending (b :: rest)

theorem ascending_iff (values : List α) : ascending values = true ↔ values.Pairwise (· < ·) := by
  induction values with
  | nil => simp [ascending]
  | cons head tail ih =>
      cases tail with
      | nil => simp [ascending]
      | cons next rest =>
          rw [ascending, Bool.and_eq_true, decide_eq_true_iff, ih, List.pairwise_cons (a := head)]
          constructor
          · rintro ⟨less, sorted⟩
            refine ⟨fun b member => ?_, sorted⟩
            rcases List.mem_cons.mp member with rfl | inRest
            · exact less
            · exact lt_trans less ((List.pairwise_cons.mp sorted).1 b inRest)
          · rintro ⟨first, sorted⟩
            exact ⟨first next (by simp), sorted⟩

def adjacentEqual : List α → Bool
  | [] => false
  | [_] => false
  | a :: b :: rest => decide (a = b) || adjacentEqual (b :: rest)

theorem adjacent_equal_sorted (values : List α) (sorted : values.Pairwise (· ≤ ·)) :
    adjacentEqual values = false ↔ values.Pairwise (· < ·) := by
  induction values with
  | nil => simp [adjacentEqual]
  | cons head tail ih =>
      cases tail with
      | nil => simp [adjacentEqual]
      | cons next rest =>
          obtain ⟨first, tailSorted⟩ := List.pairwise_cons.mp sorted
          rw [adjacentEqual, Bool.or_eq_false_iff, decide_eq_false_iff_not, ih tailSorted,
            List.pairwise_cons (a := head)]
          constructor
          · rintro ⟨differ, strict⟩
            refine ⟨fun b member => ?_, strict⟩
            have less : head < next := lt_of_le_of_ne (first next (by simp)) differ
            rcases List.mem_cons.mp member with rfl | inRest
            · exact less
            · exact lt_trans less ((List.pairwise_cons.mp strict).1 b inRest)
          · rintro ⟨above, strict⟩
            exact ⟨ne_of_lt (above next (by simp)), strict⟩

theorem sorted_duplicates_free (values : List α) :
    adjacentEqual (sortValues values) = false ↔ values.Nodup := by
  rw [adjacent_equal_sorted _ (sort_values_sorted values)]
  constructor
  · intro strict
    exact (sort_values_perm values).nodup_iff.mp (strict.imp (fun less => ne_of_lt less))
  · intro distinct
    have kept : (sortValues values).Nodup := (sort_values_perm values).nodup_iff.mpr distinct
    exact (sort_values_sorted values).imp₂ (fun _ _ le ne => lt_of_le_of_ne le ne) kept

end Sorted

end PathPlanner.Sequence

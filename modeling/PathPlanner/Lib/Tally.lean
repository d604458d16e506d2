import Mathlib

set_option autoImplicit false

namespace PathPlanner.Tally

variable {K V : Type} [DecidableEq K]

-- An association list that counts: a new key starts fresh, a known one is updated in place.
def note (fresh : V) (again : V → V) : List (K × V) → K → List (K × V)
  | [], key => [(key, fresh)]
  | entry :: rest, key =>
      if entry.1 = key then (entry.1, again entry.2) :: rest else entry :: note fresh again rest key

def noteAll (fresh : V) (again : V → V) (keys : List K) : List (K × V) := keys.foldl (note fresh again) []

variable (fresh : V) (again : V → V)

theorem note_keys (table : List (K × V)) (key : K) :
    (note fresh again table key).map Prod.fst =
      if key ∈ table.map Prod.fst then table.map Prod.fst else table.map Prod.fst ++ [key] := by
  induction table with
  | nil => simp [note]
  | cons entry rest ih =>
      by_cases same : entry.1 = key
      · simp [note, same]
      · have other : ¬ key = entry.1 := fun eq => same eq.symm
        rw [note, if_neg same, List.map_cons, ih]
        by_cases later : key ∈ rest.map Prod.fst
        · rw [if_pos later, if_pos (by simp [later])]
          rfl
        · rw [if_neg later, if_neg (by simp only [List.map_cons, List.mem_cons, not_or]; exact ⟨other, later⟩)]
          rfl

theorem note_distinct (table : List (K × V)) (key : K) (distinct : (table.map Prod.fst).Nodup) :
    ((note fresh again table key).map Prod.fst).Nodup := by
  rw [note_keys]
  split_ifs with known
  · exact distinct
  · rw [List.nodup_append]
    refine ⟨distinct, by simp, fun a old b new same => ?_⟩
    rw [List.mem_singleton] at new
    subst new same
    exact known old

theorem note_mem (table : List (K × V)) (key : K) (distinct : (table.map Prod.fst).Nodup) (k : K) (v : V) :
    (k, v) ∈ note fresh again table key ↔
      (k ≠ key ∧ (k, v) ∈ table) ∨ (k = key ∧ ((∃ w, (key, w) ∈ table ∧ v = again w) ∨
        (key ∉ table.map Prod.fst ∧ v = fresh))) := by
  induction table with
  | nil => simp [note]
  | cons entry rest ih =>
      obtain ⟨a, w⟩ := entry
      rw [List.map_cons, List.nodup_cons] at distinct
      have absent : ∀ u, (a, u) ∉ rest := fun u member => distinct.1 (List.mem_map.mpr ⟨(a, u), member, rfl⟩)
      by_cases same : a = key
      · subst same
        rw [note, if_pos rfl]
        by_cases here : k = a
        · subst here
          simp [absent]
        · simp [here]
      · have other : ¬ key = a := fun eq => same eq.symm
        rw [note, if_neg same, List.mem_cons, ih distinct.2]
        by_cases here : k = key
        · subst here
          simp [other]
        · simp [here]

-- Every key that was noted stands once, with the updates of its later occurrences.
theorem note_all_mem (keys : List K) (k : K) (v : V) :
    (k, v) ∈ noteAll fresh again keys ↔ k ∈ keys ∧ v = again^[keys.count k - 1] fresh := by
  suffices both : ((noteAll fresh again keys).map Prod.fst).Nodup ∧
      (∀ a, a ∈ (noteAll fresh again keys).map Prod.fst ↔ a ∈ keys) ∧
      ∀ k v, (k, v) ∈ noteAll fresh again keys ↔ k ∈ keys ∧ v = again^[keys.count k - 1] fresh from both.2.2 k v
  induction keys using List.reverseRecOn with
  | nil => simp [noteAll]
  | append_singleton keys key ih =>
      obtain ⟨distinct, listed, entries⟩ := ih
      have step : noteAll fresh again (keys ++ [key]) = note fresh again (noteAll fresh again keys) key := by
        simp [noteAll]
      rw [step]
      refine ⟨note_distinct fresh again _ key distinct, fun a => ?_, fun k v => ?_⟩
      · rw [note_keys]
        split_ifs with known
        · rw [listed a, List.mem_append, List.mem_singleton]
          constructor
          · exact Or.inl
          · rintro (old | rfl)
            · exact old
            · exact (listed a).mp known
        · rw [List.mem_append, List.mem_append, listed a]
      · rw [note_mem fresh again _ key distinct, listed key]
        by_cases here : k = key
        · subst here
          rw [List.count_append, List.count_singleton_self]
          by_cases old : k ∈ keys
          · have positive : 0 < keys.count k := List.count_pos_iff.mpr old
            have unrolled := Function.iterate_succ_apply' again (keys.count k - 1) fresh
            rw [Nat.succ_eq_add_one, Nat.sub_add_cancel positive] at unrolled
            simp [entries, old, unrolled]
          · have zero : keys.count k = 0 := List.count_eq_zero.mpr old
            simp [entries, old, zero]
        · have apart : List.count k [key] = 0 := List.count_eq_zero.mpr (by simpa using here)
          simp [here, entries, apart]

theorem note_all_distinct (keys : List K) : ((noteAll fresh again keys).map Prod.fst).Nodup := by
  induction keys using List.reverseRecOn with
  | nil => simp [noteAll]
  | append_singleton keys key ih =>
      have step : noteAll fresh again (keys ++ [key]) = note fresh again (noteAll fresh again keys) key := by
        simp [noteAll]
      rw [step]
      exact note_distinct fresh again _ key ih

end PathPlanner.Tally

import Mathlib

set_option autoImplicit false

namespace PathPlanner.Footprint

variable {κ : Type} [DecidableEq κ]

-- What a list of keyed amounts claims of one key.
def amount (entries : List (κ × Nat)) (key : κ) : Nat :=
  ((entries.filter fun entry => decide (entry.1 = key)).map Prod.snd).sum

def fits (left : κ → Nat) (entries : List (κ × Nat)) : Bool := entries.all fun entry => decide (entry.2 ≤ left entry.1)

def charge (left : κ → Nat) (entries : List (κ × Nat)) : κ → Nat :=
  entries.foldl (fun left entry => Function.update left entry.1 (left entry.1 - entry.2)) left

def refund (left : κ → Nat) (entries : List (κ × Nat)) : κ → Nat :=
  entries.foldl (fun left entry => Function.update left entry.1 (left entry.1 + entry.2)) left

-- Charges entry by entry and fails at the first that does not fit.
def take (left : κ → Nat) : List (κ × Nat) → Option (κ → Nat)
  | [] => some left
  | entry :: rest =>
      if entry.2 > left entry.1 then none else take (Function.update left entry.1 (left entry.1 - entry.2)) rest

theorem amount_cons (entry : κ × Nat) (rest : List (κ × Nat)) (key : κ) :
    amount (entry :: rest) key = (if entry.1 = key then entry.2 else 0) + amount rest key := by
  unfold amount
  by_cases same : entry.1 = key
  · simp [same]
  · simp [same]

theorem amount_absent (entries : List (κ × Nat)) (key : κ) (absent : key ∉ entries.map Prod.fst) : amount entries key = 0 := by
  induction entries with
  | nil => rfl
  | cons entry rest ih =>
      simp only [List.map_cons, List.mem_cons, not_or] at absent
      rw [amount_cons, if_neg (Ne.symm absent.1), ih absent.2]

theorem amount_listed (entries : List (κ × Nat)) (distinct : (entries.map Prod.fst).Nodup) (entry : κ × Nat)
    (member : entry ∈ entries) : amount entries entry.1 = entry.2 := by
  induction entries with
  | nil => simp at member
  | cons head rest ih =>
      obtain ⟨fresh, restDistinct⟩ := List.nodup_cons.mp distinct
      rw [amount_cons]
      rcases List.mem_cons.mp member with rfl | later
      · rw [if_pos rfl, amount_absent rest _ fresh, Nat.add_zero]
      · have differ : head.1 ≠ entry.1 := by
          intro same
          exact fresh (same ▸ List.mem_map_of_mem later)
        rw [if_neg differ, Nat.zero_add, ih restDistinct later]

theorem charge_apply (left : κ → Nat) (entries : List (κ × Nat)) (key : κ) :
    charge left entries key = left key - amount entries key := by
  unfold charge
  induction entries generalizing left with
  | nil => rfl
  | cons entry rest ih =>
      rw [List.foldl_cons, ih, amount_cons]
      by_cases same : entry.1 = key
      · subst same
        rw [Function.update_self, if_pos rfl]
        omega
      · rw [Function.update_of_ne (Ne.symm same), if_neg same]
        omega

theorem refund_apply (left : κ → Nat) (entries : List (κ × Nat)) (key : κ) :
    refund left entries key = left key + amount entries key := by
  unfold refund
  induction entries generalizing left with
  | nil => rfl
  | cons entry rest ih =>
      rw [List.foldl_cons, ih, amount_cons]
      by_cases same : entry.1 = key
      · subst same
        rw [Function.update_self, if_pos rfl]
        omega
      · rw [Function.update_of_ne (Ne.symm same), if_neg same]
        omega

theorem fits_iff (left : κ → Nat) (entries : List (κ × Nat)) (distinct : (entries.map Prod.fst).Nodup) :
    fits left entries = true ↔ ∀ key, amount entries key ≤ left key := by
  rw [fits, List.all_eq_true]
  constructor
  · intro each key
    by_cases listed : key ∈ entries.map Prod.fst
    · obtain ⟨entry, member, rfl⟩ := List.mem_map.mp listed
      rw [amount_listed entries distinct entry member]
      exact of_decide_eq_true (each entry member)
    · rw [amount_absent entries key listed]
      exact Nat.zero_le _
  · intro total entry member
    rw [decide_eq_true_eq, ← amount_listed entries distinct entry member]
    exact total entry.1

theorem refund_charge (left : κ → Nat) (entries : List (κ × Nat)) (room : ∀ key, amount entries key ≤ left key) :
    refund (charge left entries) entries = left := by
  funext key
  rw [refund_apply, charge_apply, Nat.sub_add_cancel (room key)]

theorem take_iff (left : κ → Nat) (entries : List (κ × Nat)) (after : κ → Nat) :
    take left entries = some after ↔ (∀ key, amount entries key ≤ left key) ∧ after = charge left entries := by
  induction entries generalizing left with
  | nil => simp [take, amount, charge, eq_comm]
  | cons entry rest ih =>
      have step : ∀ key, amount (entry :: rest) key ≤ left key ↔ (entry.1 = key → entry.2 ≤ left entry.1) ∧
          amount rest key ≤ Function.update left entry.1 (left entry.1 - entry.2) key := by
        intro key
        rw [amount_cons]
        by_cases same : entry.1 = key
        · subst same
          rw [Function.update_self, if_pos rfl]
          refine ⟨fun room => ⟨fun _ => by omega, by omega⟩, fun both => ?_⟩
          have := both.1 rfl
          omega
        · rw [Function.update_of_ne (Ne.symm same), if_neg same]
          simp [same]
      rw [take]
      by_cases full : entry.2 > left entry.1
      · rw [if_pos full]
        constructor
        · intro none
          simp at none
        · rintro ⟨room, _⟩
          have := ((step entry.1).mp (room entry.1)).1 rfl
          omega
      · rw [if_neg full, ih]
        refine and_congr (forall_congr' fun key => ?_) Iff.rfl
        rw [step]
        exact ⟨fun later => ⟨fun _ => not_lt.mp full, later⟩, fun both => both.2⟩

end PathPlanner.Footprint

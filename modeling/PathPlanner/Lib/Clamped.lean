import Mathlib

set_option autoImplicit false
set_option linter.unusedSectionVars false

namespace PathPlanner.Clamped

variable {α : Type} [AddCommMonoid α] [LinearOrder α] [IsOrderedAddMonoid α] [CanonicallyOrderedAdd α]

def clampAdd (ceiling a b : α) : α := min ceiling (a + b)

theorem clamp_add_le (ceiling a b : α) : clampAdd ceiling a b ≤ ceiling := min_le_left _ _

theorem clamp_add_mono (ceiling a b c d : α) (left : a ≤ c) (right : b ≤ d) :
    clampAdd ceiling a b ≤ clampAdd ceiling c d :=
  min_le_min_left ceiling (add_le_add left right)

theorem le_clamp_add (ceiling a b : α) (bounded : a ≤ ceiling) : a ≤ clampAdd ceiling a b :=
  le_min bounded le_self_add

theorem clamp_absorb (ceiling a b : α) : min ceiling (min ceiling a + b) = min ceiling (a + b) := by
  rcases le_total ceiling a with above | below
  · rw [min_eq_left above, min_eq_left (le_self_add : ceiling ≤ ceiling + b),
      min_eq_left (above.trans (le_self_add : a ≤ a + b))]
  · rw [min_eq_right below]

-- Folding the clamped sum clamps the exact sum once, whatever the order.
theorem clamp_fold (ceiling : α) (values : List α) (start : α) (bounded : start ≤ ceiling) :
    values.foldl (clampAdd ceiling) start = min ceiling (start + values.sum) := by
  induction values generalizing start with
  | nil => simp [bounded]
  | cons head tail ih =>
      rw [List.foldl_cons, ih _ (clamp_add_le ceiling start head), clampAdd, clamp_absorb,
        List.sum_cons, add_assoc]

theorem clamp_fold_start (ceiling : α) (values : List α) (start : α) (bounded : start ≤ ceiling) :
    start ≤ values.foldl (clampAdd ceiling) start := by
  rw [clamp_fold ceiling values start bounded]
  exact le_min bounded le_self_add

theorem clamp_fold_exact (ceiling : α) (values : List α) (start : α) (bounded : start ≤ ceiling)
    (room : start + values.sum ≤ ceiling) : values.foldl (clampAdd ceiling) start = start + values.sum := by
  rw [clamp_fold ceiling values start bounded, min_eq_right room]

end PathPlanner.Clamped

import Mathlib

set_option autoImplicit false

namespace PathPlanner.Budget

variable {σ β γ : Type}

-- A bounded traversal of full: it folds part of the items into the state, all of them unless it stopped.
structure Covers (stopped : σ → Prop) (view : σ → γ) (fold : γ → β → γ) (full : List β) (before after : σ) : Prop where
  taken : ∃ taken : List β, taken.Sublist full ∧ view after = taken.foldl fold (view before) ∧
    (¬ stopped after → taken = full)
  monotone : stopped before → stopped after

variable {stopped : σ → Prop} {view : σ → γ} {fold : γ → β → γ}

theorem covers_nothing (before after : σ) (same : view after = view before) (monotone : stopped before → stopped after) :
    Covers stopped view fold [] before after :=
  ⟨⟨[], by simp, by simpa using same, fun _ => rfl⟩, monotone⟩

theorem covers_one (before after : σ) (item : β) (same : view after = fold (view before) item)
    (monotone : stopped before → stopped after) : Covers stopped view fold [item] before after :=
  ⟨⟨[item], by simp, by simpa using same, fun _ => rfl⟩, monotone⟩

-- Stopping leaves the rest of the work undone.
theorem covers_stopped (full : List β) (before after : σ) (same : view after = view before) (halted : stopped after) :
    Covers stopped view fold full before after :=
  ⟨⟨[], by simp, by simpa using same, fun running => absurd halted running⟩, fun _ => halted⟩

theorem covers_trans (first second : List β) (before middle after : σ)
    (left : Covers stopped view fold first before middle) (right : Covers stopped view fold second middle after) :
    Covers stopped view fold (first ++ second) before after := by
  obtain ⟨⟨earlier, earlierPart, earlierView, earlierAll⟩, leftMonotone⟩ := left
  obtain ⟨⟨later, laterPart, laterView, laterAll⟩, rightMonotone⟩ := right
  refine ⟨⟨earlier ++ later, earlierPart.append laterPart, ?_, fun running => ?_⟩, fun halted =>
    rightMonotone (leftMonotone halted)⟩
  · rw [laterView, earlierView, List.foldl_append]
  · rw [earlierAll fun halted => running (rightMonotone halted), laterAll running]

end PathPlanner.Budget

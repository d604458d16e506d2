set_option autoImplicit false

-- Two computations run side by side from related states, as long as the second stays within its bounds.
namespace TwoRuns

structure View (σ : Type) where
  within : σ → Prop
  abreast : σ → σ → Prop

-- Computations that also return a value return the same one.
def View.pair {σ : Type} (α : Type) (view : View σ) : View (α × σ) where
  within result := view.within result.2
  abreast left right := left.1 = right.1 ∧ view.abreast left.2 right.2

structure Steady {σ τ : Type} (before : View σ) (after : View τ) (left right : σ → τ) : Prop where
  within : ∀ state, after.within (right state) → before.within state
  abreast : ∀ first second, before.abreast first second → after.within (right second) → after.abreast (left first) (right second)

variable {σ τ υ α β : Type} {first : View σ} {second : View τ} {third : View υ}

theorem steady_id : Steady first first (fun state => state) fun state => state :=
  ⟨fun _ within => within, fun _ _ abreast _ => abreast⟩

theorem steady_comp (left right : σ → τ) (leftNext rightNext : τ → υ) (steady : Steady first second left right)
    (later : Steady second third leftNext rightNext) :
    Steady first third (fun state => leftNext (left state)) fun state => rightNext (right state) :=
  ⟨fun state within => steady.within state (later.within _ within),
    fun one two abreast within => later.abreast _ _ (steady.abreast one two abreast (later.within _ within)) within⟩

theorem steady_return (value : α) : Steady first (first.pair α) (fun state => (value, state)) fun state => (value, state) :=
  ⟨fun _ within => within, fun _ _ abreast _ => ⟨rfl, abreast⟩⟩

theorem steady_value (left right : α → σ → τ) (steady : ∀ value, Steady first second (left value) (right value)) :
    Steady (first.pair α) second (fun result => left result.1 result.2) fun result => right result.1 result.2 := by
  refine ⟨fun result within => (steady result.1).within result.2 within, fun one two abreast within => ?_⟩
  obtain ⟨same, states⟩ := abreast
  rw [same]
  exact (steady two.1).abreast one.2 two.2 states within

theorem steady_bind (left right : σ → α × τ) (leftNext rightNext : α → τ → υ) (steady : Steady first (second.pair α) left right)
    (later : ∀ value, Steady second third (leftNext value) (rightNext value)) :
    Steady first third (fun state => leftNext (left state).1 (left state).2) fun state => rightNext (right state).1 (right state).2 :=
  steady_comp left right _ _ steady (steady_value leftNext rightNext later)

theorem steady_if (condition : Prop) [Decidable condition] (leftYes rightYes leftNo rightNo : σ → τ)
    (yes : Steady first second leftYes rightYes) (no : Steady first second leftNo rightNo) :
    Steady first second (fun state => if condition then leftYes state else leftNo state)
      fun state => if condition then rightYes state else rightNo state := by
  by_cases holds : condition
  · simpa only [if_pos holds] using yes
  · simpa only [if_neg holds] using no

theorem steady_map (read : α → β) (left right : σ → α × τ) (steady : Steady first (second.pair α) left right) :
    Steady first (second.pair β) (fun state => (read (left state).1, (left state).2))
      fun state => (read (right state).1, (right state).2) :=
  steady_bind left right _ _ steady fun value => steady_return (read value)

theorem steady_fold (left right : α → σ → σ) (steady : ∀ value, Steady first first (left value) (right value)) (values : List α) :
    Steady first first (fun state => values.foldl (fun state value => left value state) state)
      fun state => values.foldl (fun state value => right value state) state := by
  induction values with
  | nil => exact steady_id
  | cons value rest ih => exact steady_comp (left value) (right value) _ _ (steady value) ih

end TwoRuns

import PathPlanner.Lib.Codec

set_option autoImplicit false

namespace PathPlanner.Codec

variable {σ ε α β : Type}

-- On an input of bounded size every failure is of a kind, and what is left of an input never grows.
structure Fails (read : Reader σ ε α) (size : Nat) (kind : ε → Prop) : Prop where
  failed : ∀ input error, input.length ≤ size → read input = .error error → kind error
  shrinks : ∀ input value rest, read input = .ok (value, rest) → rest.length ≤ input.length

namespace Fails

variable {size : Nat} {kind : ε → Prop}

theorem pure (value : α) : Fails (pure value : Reader σ ε α) size kind where
  failed _ _ _ failed := by cases failed
  shrinks _ _ _ read := by
    cases read
    exact le_rfl

theorem bind {first : Reader σ ε α} {next : α → Reader σ ε β} (head : Fails first size kind)
    (tail : ∀ input value rest, first input = .ok (value, rest) → Fails (next value) size kind) :
    Fails (first >>= next) size kind where
  failed input error small failed := by
    change (first input >>= fun step => next step.1 step.2) = _ at failed
    cases read : first input with
    | error found =>
        rw [read] at failed
        cases failed
        exact head.failed input error small read
    | ok step =>
        rw [read] at failed
        have less := head.shrinks input step.1 step.2 read
        exact (tail input step.1 step.2 read).failed step.2 error (less.trans small) failed
  shrinks input value rest read := by
    obtain ⟨found, middle, here, there⟩ := (bind_accepted _ _ _ _).mp read
    exact ((tail input found middle here).shrinks middle value rest there).trans (head.shrinks input found middle here)

theorem map {read : Reader σ ε α} (convert : α → β) (fails : Fails read size kind) : Fails (convert <$> read) size kind := by
  rw [map_eq_pure_bind]
  exact fails.bind fun _ _ _ _ => pure _

theorem checked {read : Reader σ ε α} {bad : α → Prop} [DecidablePred bad] {error : α → ε} (fails : Fails read size kind)
    (named : ∀ input value rest, read input = .ok (value, rest) → kind (error value)) :
    Fails (checked read bad error) size kind where
  failed input found small failed := by
    rw [Codec.checked] at failed
    cases step : read input with
    | error other =>
        rw [step] at failed
        cases failed
        exact fails.failed input found small step
    | ok result =>
        rw [step] at failed
        have blamed := named input result.1 result.2 step
        dsimp only at failed
        split at failed <;> cases failed
        exact blamed
  shrinks input value rest taken := by
    rw [Codec.checked] at taken
    cases step : read input with
    | error other => simp [step] at taken
    | ok result =>
        rw [step] at taken
        dsimp only at taken
        split at taken <;> cases taken
        exact fails.shrinks input _ _ step

theorem whole {read : Reader σ ε α} {trailing : Nat → ε} (fails : Fails read size kind)
    (named : ∀ left ≤ size, kind (trailing left)) (input : List σ) (small : input.length ≤ size) (error : ε)
    (failed : whole read trailing input = .error error) : kind error := by
  rw [Codec.whole] at failed
  cases step : read input with
  | error other =>
      rw [step] at failed
      cases failed
      exact fails.failed input error small step
  | ok result =>
      rw [step] at failed
      have less := fails.shrinks input result.1 result.2 step
      dsimp only at failed
      split at failed <;> cases failed
      exact named _ (less.trans small)

end Fails

end PathPlanner.Codec

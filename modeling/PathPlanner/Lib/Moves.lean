import Mathlib

set_option autoImplicit false

namespace PathPlanner.Moves

variable {State Move : Type}

-- The states that moves of an allowed kind lead to.
inductive Reaches (moved : State → Move → State) (allowed : State → Move → Prop) (start : State) : State → Prop where
  | refl : Reaches moved allowed start start
  | step (state : State) (move : Move) (reached : Reaches moved allowed start state) (fits : allowed state move) :
      Reaches moved allowed start (moved state move)

theorem reaches_invariant (moved : State → Move → State) (allowed : State → Move → Prop) (invariant : State → Prop)
    (kept : ∀ state move, invariant state → allowed state move → invariant (moved state move))
    (start state : State) (holds : invariant start) (run : Reaches moved allowed start state) : invariant state := by
  induction run with
  | refl => exact holds
  | step state move reached fits ih => exact kept state move ih fits

end PathPlanner.Moves

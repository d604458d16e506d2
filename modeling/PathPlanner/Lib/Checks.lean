import Mathlib

set_option autoImplicit false

namespace PathPlanner.Checks

variable {ε α β : Type}

-- An early return with an error, and a loop of such returns.
def deny (bad : Prop) [Decidable bad] (error : ε) : Except ε Unit :=
  if bad then .error error else .ok ()

def forEach (check : α → Except ε Unit) : List α → Except ε Unit
  | [] => .ok ()
  | head :: tail => do
      check head
      forEach check tail

def forEachPair (check : α → α → Except ε Unit) : List α → Except ε Unit
  | [] => .ok ()
  | head :: tail => do
      forEach (check head) tail
      forEachPair check tail

@[simp] theorem deny_ok (bad : Prop) [Decidable bad] (error : ε) :
    deny bad error = .ok () ↔ ¬ bad := by
  by_cases h : bad <;> simp [deny, h]

theorem bind_ok (first : Except ε α) (next : α → Except ε β) (result : β) :
    (first >>= next) = .ok result ↔ ∃ value, first = .ok value ∧ next value = .ok result := by
  cases first with
  | error e => simp [bind, Except.bind]
  | ok value => simp [bind, Except.bind]

theorem bind_congr_ok {first : Except ε α} {f g : α → Except ε β} {result : β}
    (same : ∀ value, f value = .ok result ↔ g value = .ok result) :
    (first >>= f) = .ok result ↔ (first >>= g) = .ok result := by
  rw [bind_ok, bind_ok]
  exact exists_congr fun value => and_congr_right fun _ => same value

@[simp] theorem then_ok (first : Except ε Unit) (next : Except ε β) (result : β) :
    (first >>= fun _ => next) = .ok result ↔ first = .ok () ∧ next = .ok result := by
  cases first with
  | error e => simp [bind, Except.bind]
  | ok value => simp [bind, Except.bind]

@[simp] theorem for_each_ok (check : α → Except ε Unit) (items : List α) :
    forEach check items = .ok () ↔ ∀ item ∈ items, check item = .ok () := by
  induction items with
  | nil => simp [forEach]
  | cons head tail ih => simp [forEach, ih]

@[simp] theorem for_each_pair_ok (check : α → α → Except ε Unit) (items : List α) :
    forEachPair check items = .ok () ↔ items.Pairwise (fun lhs rhs => check lhs rhs = .ok ()) := by
  induction items with
  | nil => simp [forEachPair]
  | cons head tail ih => simp [forEachPair, ih]

end PathPlanner.Checks

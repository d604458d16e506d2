import Mathlib

set_option autoImplicit false

namespace PathPlanner.Pick

variable {α κ : Type} [LinearOrder κ] (better : α → α → Prop) [DecidableRel better] (key : α → κ)

-- Keeps what it has unless the new item is better.
def pick (best : Option α) (item : α) : Option α :=
  match best with
  | none => some item
  | some kept => if better item kept then some item else some kept

-- The first of the least items.
structure First (items : List α) (item : α) : Prop where
  split : ∃ before after, items = before ++ item :: after ∧ ∀ other ∈ before, key item < key other
  least : ∀ other ∈ items, key item ≤ key other

theorem First.mem {items : List α} {item : α} (first : First key items item) : item ∈ items := by
  obtain ⟨before, after, rfl, _⟩ := first.split
  simp

variable (ordered : ∀ a b, better a b ↔ key a < key b)

include ordered

theorem pick_first (items : List α) (item : α) (first : First key items item) (fresh : α) :
    ∃ kept, pick better (some item) fresh = some kept ∧ First key (items ++ [fresh]) kept := by
  obtain ⟨before, after, rfl, earlier⟩ := first.split
  unfold pick
  by_cases wins : better fresh item
  · have less := (ordered fresh item).mp wins
    have all : ∀ other ∈ before ++ item :: after, key fresh < key other :=
      fun other member => lt_of_lt_of_le less (first.least other member)
    refine ⟨fresh, by simp [wins], ⟨_, [], rfl, all⟩, fun other member => ?_⟩
    rcases List.mem_append.mp member with old | new
    · exact (all other old).le
    · rw [List.mem_singleton.mp new]
  · have stays : key item ≤ key fresh := not_lt.mp fun less => wins ((ordered fresh item).mpr less)
    refine ⟨item, by simp [wins], ⟨before, after ++ [fresh], by simp, earlier⟩, fun other member => ?_⟩
    rcases List.mem_append.mp member with old | new
    · exact first.least other old
    · rw [List.mem_singleton.mp new]
      exact stays

theorem pick_all_first (items : List α) : match items.foldl (pick better) none with
    | none => items = []
    | some item => First key items item := by
  induction items using List.reverseRecOn with
  | nil => rfl
  | append_singleton items fresh ih =>
      rw [List.foldl_append, List.foldl_cons, List.foldl_nil]
      cases kept : items.foldl (pick better) none with
      | none =>
          rw [kept] at ih
          subst ih
          exact ⟨⟨[], [], rfl, by simp⟩, by simp⟩
      | some item =>
          rw [kept] at ih
          obtain ⟨next, picked, first⟩ := pick_first better key ordered items item ih fresh
          rw [picked]
          exact first

end PathPlanner.Pick

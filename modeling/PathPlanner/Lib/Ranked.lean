import Mathlib

set_option autoImplicit false

namespace PathPlanner.Ranked

variable {α κ : Type} [LinearOrder κ] (less : α → α → Prop) [DecidableRel less] (key : α → κ)

-- Inserts before the first kept element that is not smaller, then drops the last one over the cap.
def insert (cap : Nat) (kept : List α) (fresh : α) : List α :=
  let grown := kept.takeWhile (fun other => less other fresh) ++
    fresh :: kept.dropWhile (fun other => less other fresh)
  if grown.length > cap then grown.dropLast else grown

-- How many of the items are not worse than the given one, itself included.
def rank (items : List α) (item : α) : Nat := items.countP fun other => decide (key other ≤ key item)

-- The kept list holds the best of the items; something is missing only when it is full.
structure Best (cap : Nat) (items kept : List α) : Prop where
  sorted : kept.Pairwise fun a b => key a ≤ key b
  short : kept.length ≤ cap
  split : ∃ dropped, (kept ++ dropped).Perm items ∧ (∀ a ∈ kept, ∀ b ∈ dropped, key a ≤ key b) ∧
    (dropped ≠ [] → cap ≤ kept.length)

theorem best_nothing (cap : Nat) : Best key cap [] ([] : List α) :=
  ⟨List.Pairwise.nil, Nat.zero_le _, [], by simp, by simp, by simp⟩

variable (ordered : ∀ a b, less a b ↔ key a < key b)

section

include ordered

theorem before_fresh (kept : List α) (fresh : α) :
    ∀ a ∈ kept.takeWhile (fun other => less other fresh), key a < key fresh := by
  intro a member
  have passes := List.mem_takeWhile_imp member
  exact (ordered a fresh).mp (of_decide_eq_true passes)

theorem after_fresh (kept : List α) (fresh : α) (sorted : kept.Pairwise fun a b => key a ≤ key b) :
    ∀ a ∈ kept.dropWhile (fun other => less other fresh), key fresh ≤ key a := by
  induction kept with
  | nil => simp
  | cons head tail ih =>
      rw [List.pairwise_cons] at sorted
      by_cases smaller : less head fresh
      · rw [List.dropWhile_cons_of_pos (by simpa using smaller)]
        exact ih sorted.2
      · rw [List.dropWhile_cons_of_neg (by simpa using smaller)]
        have first : key fresh ≤ key head := not_lt.mp fun lower => smaller ((ordered head fresh).mpr lower)
        intro a member
        rcases List.mem_cons.mp member with rfl | inTail
        · exact first
        · exact first.trans (sorted.1 a inTail)

theorem grown_sorted (kept : List α) (fresh : α) (sorted : kept.Pairwise fun a b => key a ≤ key b) :
    (kept.takeWhile (fun other => less other fresh) ++
      fresh :: kept.dropWhile (fun other => less other fresh)).Pairwise fun a b => key a ≤ key b := by
  rw [List.pairwise_append, List.pairwise_cons]
  refine ⟨sorted.sublist (List.takeWhile_sublist _), ⟨after_fresh less key ordered kept fresh sorted,
    sorted.sublist (List.dropWhile_sublist _)⟩, ?_⟩
  intro a earlier b later
  have low := before_fresh less key ordered kept fresh a earlier
  rcases List.mem_cons.mp later with rfl | after
  · exact low.le
  · exact low.le.trans (after_fresh less key ordered kept fresh sorted b after)

theorem best_insert (cap : Nat) (items kept : List α) (fresh : α) (best : Best key cap items kept) :
    Best key cap (items ++ [fresh]) (insert less cap kept fresh) := by
  obtain ⟨sorted, short, dropped, perm, apart, full⟩ := best
  have grownSorted := grown_sorted less key ordered kept fresh sorted
  have halves := List.takeWhile_append_dropWhile (p := fun other => decide (less other fresh)) (l := kept)
  unfold insert
  generalize kept.takeWhile (fun other => less other fresh) = lower at *
  generalize kept.dropWhile (fun other => less other fresh) = upper at *
  subst halves
  have all : (lower ++ fresh :: upper ++ dropped).Perm (items ++ [fresh]) := by
    have moved : (lower ++ fresh :: upper ++ dropped).Perm (fresh :: (lower ++ upper ++ dropped)) := by
      simp
    exact moved.trans ((perm.cons fresh).trans (List.perm_append_singleton fresh items).symm)
  have size : (lower ++ fresh :: upper).length = (lower ++ upper).length + 1 := by
    simp only [List.length_append, List.length_cons]
    omega
  by_cases crowded : (lower ++ fresh :: upper).length > cap
  · simp only [if_pos crowded]
    have nonempty : lower ++ fresh :: upper ≠ [] := by simp
    have lastBig : ∀ a ∈ (lower ++ fresh :: upper).dropLast,
        key a ≤ key ((lower ++ fresh :: upper).getLast nonempty) := by
      rw [← List.dropLast_append_getLast nonempty, List.pairwise_append] at grownSorted
      exact fun a member => grownSorted.2.2 a member _ (by simp)
    refine ⟨grownSorted.sublist (List.dropLast_sublist _), by rw [List.length_dropLast]; omega,
      (lower ++ fresh :: upper).getLast nonempty :: dropped, ?_, ?_, fun _ => by rw [List.length_dropLast]; omega⟩
    · have joined : (lower ++ fresh :: upper).dropLast ++ (lower ++ fresh :: upper).getLast nonempty :: dropped =
          lower ++ fresh :: upper ++ dropped := by
        rw [List.append_cons, List.dropLast_append_getLast]
      rw [joined]
      exact all
    · intro a member b other
      rcases List.mem_cons.mp other with rfl | lost
      · exact lastBig a member
      · -- The dropped element was kept before, or it is the fresh one and all that stays was kept.
        cases upper using List.reverseRecOn with
        | nil =>
            have stays : a ∈ lower := by simpa using member
            exact apart a (by simpa using stays) b lost
        | append_singleton upper last =>
            have lastIs : (lower ++ fresh :: (upper ++ [last])).getLast nonempty = last := by simp
            have low := lastBig a member
            rw [lastIs] at low
            exact low.trans (apart last (by simp) b lost)
  · simp only [if_neg crowded]
    refine ⟨grownSorted, by omega, dropped, all, ?_, fun lost => ?_⟩
    · have nothing : dropped = [] := by
        by_contra lost
        have := full lost
        omega
      simp [nothing]
    · have := full lost
      omega

theorem best_insert_all (cap : Nat) (fresh items kept : List α) (best : Best key cap items kept) :
    Best key cap (items ++ fresh) (fresh.foldl (insert less cap) kept) := by
  induction fresh generalizing items kept with
  | nil => simpa using best
  | cons head tail ih =>
      have rest := ih (items ++ [head]) (insert less cap kept head) (best_insert less key ordered cap items kept head best)
      simpa using rest

end

namespace Best

variable {key} {cap : Nat} {items kept : List α}

theorem mem (best : Best key cap items kept) (a : α) (member : a ∈ kept) : a ∈ items := by
  obtain ⟨dropped, perm, _⟩ := best.split
  exact perm.mem_iff.mp (List.mem_append_left _ member)

theorem nonempty (best : Best key cap items kept) (room : 0 < cap) (some : items ≠ []) : kept ≠ [] := by
  obtain ⟨dropped, perm, _, full⟩ := best.split
  rintro rfl
  by_cases lost : dropped = []
  · subst lost
    exact some (by simpa using perm)
  · have := full lost
    simp at this
    omega

theorem front_least (best : Best key cap items kept) (front : α) (rest : List α) (starts : kept = front :: rest)
    (a : α) (member : a ∈ items) : key front ≤ key a := by
  obtain ⟨dropped, perm, apart, _⟩ := best.split
  have frontIn : front ∈ kept := by simp [starts]
  rcases List.mem_append.mp (perm.mem_iff.mpr member) with inside | lost
  · have sorted := best.sorted
    rw [starts, List.pairwise_cons] at sorted
    rw [starts] at inside
    rcases List.mem_cons.mp inside with rfl | later
    · exact le_refl _
    · exact sorted.1 a later
  · exact apart front frontIn a lost

-- An element is lost only to a full list of elements that are not worse.
theorem retained (best : Best key cap items kept) (a : α) (member : a ∈ items) (low : rank key items a ≤ cap) :
    a ∈ kept := by
  obtain ⟨dropped, perm, apart, full⟩ := best.split
  rcases List.mem_append.mp (perm.mem_iff.mpr member) with inside | lost
  · exact inside
  · exfalso
    have counted : rank key items a = kept.countP (fun other => decide (key other ≤ key a)) +
        dropped.countP (fun other => decide (key other ≤ key a)) := by
      rw [rank, ← perm.countP_eq, List.countP_append]
    have every : kept.countP (fun other => decide (key other ≤ key a)) = kept.length := by
      rw [List.countP_eq_length]
      intro other inside
      simpa using apart other inside a lost
    have one : 1 ≤ dropped.countP (fun other => decide (key other ≤ key a)) :=
      List.countP_pos_iff.mpr ⟨a, lost, by simp⟩
    have filled := full (List.ne_nil_of_mem lost)
    omega

end Best

end PathPlanner.Ranked

import Mathlib

set_option autoImplicit false

namespace PathPlanner.Walk

variable {Node Arc : Type} (tail head : Arc → Node)

def IsWalk : Node → List Arc → Node → Prop
  | start, [], finish => start = finish
  | start, arc :: rest, finish => tail arc = start ∧ IsWalk (head arc) rest finish

instance decidableWalk [DecidableEq Node] (start : Node) (arcs : List Arc) (finish : Node) :
    Decidable (IsWalk tail head start arcs finish) := by
  induction arcs generalizing start with
  | nil => exact inferInstanceAs (Decidable (start = finish))
  | cons arc rest ih =>
      have := ih (head arc)
      exact inferInstanceAs (Decidable (tail arc = start ∧ IsWalk tail head (head arc) rest finish))

def visited (start : Node) (arcs : List Arc) : List Node := start :: arcs.map head

theorem walk_append (start finish : Node) (first second : List Arc) :
    IsWalk tail head start (first ++ second) finish ↔
      ∃ middle, IsWalk tail head start first middle ∧ IsWalk tail head middle second finish := by
  induction first generalizing start with
  | nil => simp [IsWalk]
  | cons arc rest ih =>
      rw [List.cons_append]
      constructor
      · rintro ⟨leaves, later⟩
        obtain ⟨middle, left, right⟩ := (ih (head arc)).mp later
        exact ⟨middle, ⟨leaves, left⟩, right⟩
      · rintro ⟨middle, ⟨leaves, left⟩, right⟩
        exact ⟨leaves, (ih (head arc)).mpr ⟨middle, left, right⟩⟩

theorem walk_snoc (start finish : Node) (arcs : List Arc) (arc : Arc) :
    IsWalk tail head start (arcs ++ [arc]) finish ↔
      IsWalk tail head start arcs (tail arc) ∧ head arc = finish := by
  rw [walk_append]
  constructor
  · rintro ⟨middle, walk, leaves, arrives⟩
    exact ⟨leaves ▸ walk, arrives⟩
  · rintro ⟨walk, arrives⟩
    exact ⟨tail arc, walk, rfl, arrives⟩

theorem finish_visited (start finish : Node) (arcs : List Arc) (walk : IsWalk tail head start arcs finish) :
    finish ∈ visited head start arcs := by
  induction arcs generalizing start with
  | nil =>
      have same : start = finish := walk
      simp [visited, same]
  | cons arc rest ih => exact List.mem_cons_of_mem _ (ih (head arc) walk.2)

theorem tails_visited (start finish : Node) (arcs : List Arc) (walk : IsWalk tail head start arcs finish) :
    ∀ arc ∈ arcs, tail arc ∈ visited head start arcs := by
  induction arcs generalizing start with
  | nil => simp
  | cons first rest ih =>
      intro arc member
      rcases List.mem_cons.mp member with rfl | inRest
      · simp [visited, walk.1]
      · exact List.mem_cons_of_mem _ (ih (head first) walk.2 arc inRest)

theorem finish_unique (start first second : Node) (arcs : List Arc) (left : IsWalk tail head start arcs first)
    (right : IsWalk tail head start arcs second) : first = second := by
  induction arcs generalizing start with
  | nil => exact (show start = first from left).symm.trans (show start = second from right)
  | cons arc rest ih => exact ih (head arc) left.2 right.2

theorem finish_last (start finish : Node) (arcs : List Arc) (nonempty : arcs ≠ [])
    (walk : IsWalk tail head start arcs finish) : head (arcs.getLast nonempty) = finish := by
  rw [← List.dropLast_append_getLast nonempty, walk_snoc] at walk
  exact walk.2

-- A walk that visits no node twice uses no arc twice.
theorem simple_arcs (start : Node) (arcs : List Arc) (simple : (visited head start arcs).Nodup) : arcs.Nodup :=
  ((List.nodup_cons.mp simple).2).of_map head

theorem simple_length [DecidableEq Node] (start : Node) (arcs : List Arc) (area : List Node)
    (simple : (visited head start arcs).Nodup) (inside : ∀ node ∈ visited head start arcs, node ∈ area) :
    arcs.length + 1 ≤ area.length := by
  have short := (simple.subperm inside).length_le
  simpa [visited] using short

-- A walk that leaves its start and does not enter its finish crosses somewhere: along an arc or within a node it passes.
theorem crossing (entered left : Node → Prop) (start finish : Node) (arcs : List Arc) (nonempty : arcs ≠ [])
    (walk : IsWalk tail head start arcs finish) (starts : left start) (ends : ¬ entered finish) :
    (∃ arc ∈ arcs, left (tail arc) ∧ ¬ entered (head arc)) ∨
      ∃ node ∈ arcs.dropLast.map head, entered node ∧ ¬ left node := by
  induction arcs generalizing start with
  | nil => exact absurd rfl nonempty
  | cons first rest ih =>
      by_cases enters : entered (head first)
      · cases rest with
        | nil =>
            have same : head first = finish := walk.2
            exact absurd (same ▸ enters) ends
        | cons second rest =>
            by_cases leaves : left (head first)
            · rcases ih (head first) (by simp) walk.2 leaves with ⟨arc, member, facts⟩ | ⟨node, member, facts⟩
              · exact Or.inl ⟨arc, List.mem_cons_of_mem _ member, facts⟩
              · exact Or.inr ⟨node, List.mem_cons_of_mem _ member, facts⟩
            · exact Or.inr ⟨head first, by simp, enters, leaves⟩
      · exact Or.inl ⟨first, by simp, walk.1 ▸ starts, enters⟩

-- A walk that visits no node twice does not go on past its finish.
theorem simple_initial (start finish : Node) (first more : List Arc) (nonempty : first ≠ [])
    (short : IsWalk tail head start first finish) (long : IsWalk tail head start (first ++ more) finish)
    (simple : (visited head start (first ++ more)).Nodup) : more = [] := by
  obtain ⟨middle, left, right⟩ := (walk_append tail head start finish first more).mp long
  have same := finish_unique tail head start middle finish first left short
  by_contra further
  have here : finish ∈ first.map head := by
    rw [← finish_last tail head start finish first nonempty short]
    exact List.mem_map_of_mem (List.getLast_mem nonempty)
  have there : finish ∈ more.map head := by
    rw [← finish_last tail head middle finish more further right]
    exact List.mem_map_of_mem (List.getLast_mem further)
  have apart := (List.nodup_cons.mp simple).2
  rw [List.map_append, List.nodup_append] at apart
  exact apart.2.2 finish here finish there rfl

-- A walk that visits a node twice has a detour that can be left out.
theorem detour (start finish : Node) (arcs : List Arc) (walk : IsWalk tail head start arcs finish)
    (repeats : ¬ (visited head start arcs).Nodup) : ∃ first middle last, arcs = first ++ middle ++ last ∧ middle ≠ [] ∧
      IsWalk tail head start (first ++ last) finish := by
  induction arcs generalizing start with
  | nil => exact absurd (List.nodup_singleton start) repeats
  | cons arc rest ih =>
      by_cases again : start ∈ (arc :: rest).map head
      · obtain ⟨back, member, home⟩ := List.mem_map.mp again
        obtain ⟨before, after, split⟩ := List.append_of_mem member
        refine ⟨[], before ++ [back], after, by simp [split], by simp, ?_⟩
        rw [split, List.append_cons, walk_append] at walk
        obtain ⟨middle, left, right⟩ := walk
        obtain ⟨_, arrives⟩ := (walk_snoc tail head start middle before back).mp left
        rw [List.nil_append]
        exact home ▸ arrives ▸ right
      · have later : ¬ (visited head (head arc) rest).Nodup := by
          intro simple
          exact repeats (List.nodup_cons.mpr ⟨again, simple⟩)
        obtain ⟨first, middle, last, split, nonempty, shorter⟩ := ih (head arc) walk.2 later
        exact ⟨arc :: first, middle, last, by simp [split], nonempty, walk.1, shorter⟩

-- Simple walks with known ends can be read back from their concatenation.
theorem flatten_unique (ends : List (Node × Node)) (lhs rhs : List (List Arc))
    (left : List.Forall₂ (fun pair arcs => arcs ≠ [] ∧ IsWalk tail head pair.1 arcs pair.2 ∧ (visited head pair.1 arcs).Nodup) ends lhs)
    (right : List.Forall₂ (fun pair arcs => arcs ≠ [] ∧ IsWalk tail head pair.1 arcs pair.2 ∧ (visited head pair.1 arcs).Nodup)
      ends rhs) (same : lhs.flatten = rhs.flatten) : lhs = rhs := by
  induction left generalizing rhs with
  | nil =>
      cases right
      rfl
  | cons here _ ih =>
      rcases right with _ | ⟨there, rest⟩
      rw [List.flatten_cons, List.flatten_cons] at same
      have equal : ∀ {short long : List Arc} {pair : Node × Node} {more : List Arc}, short ≠ [] →
          IsWalk tail head pair.1 short pair.2 → IsWalk tail head pair.1 long pair.2 → (visited head pair.1 long).Nodup →
          long = short ++ more → long = short := by
        rintro short long pair more nonempty walkShort walkLong simple rfl
        rw [simple_initial tail head _ _ short more nonempty walkShort walkLong simple, List.append_nil]
      rcases List.append_eq_append_iff.mp same with ⟨more, longer, _⟩ | ⟨more, longer, _⟩
      · have eq := equal here.1 here.2.1 there.2.1 there.2.2 longer
        rw [eq, List.append_cancel_left_eq] at same
        rw [eq, ih _ rest same]
      · have eq := equal there.1 there.2.1 here.2.1 here.2.2 longer
        rw [eq, List.append_cancel_left_eq] at same
        rw [eq, ih _ rest same]

end PathPlanner.Walk

import PathPlanner.FabricStages
import PathPlanner.GroupIds

set_option autoImplicit false

namespace PathPlanner

open Checks Sequence Permuted

-- The elements of one list, each related to an element of the other, in any order.
def Shuffled {α β : Type} (relation : α → β → Prop) (lefts : List α) (rights : List β) : Prop :=
  ∃ placed, lefts.Perm placed ∧ List.Forall₂ relation placed rights

namespace Shuffled

variable {α β ε : Type} {relation : α → α → Prop}

theorem symm (symmetric : ∀ left right, relation left right → relation right left) (lefts rights : List α)
    (shuffled : Shuffled relation lefts rights) : Shuffled relation rights lefts := by
  obtain ⟨placed, perm, each⟩ := shuffled
  have back : List.Forall₂ relation rights placed := each.flip.imp fun _ _ => symmetric _ _
  obtain ⟨mirrored, paired, order⟩ := (List.forall₂_comp_perm_eq_perm_comp_forall₂ (r := relation)) ▸
    (show Relation.Comp (List.Forall₂ relation) List.Perm rights lefts from ⟨placed, back, perm.symm⟩)
  exact ⟨mirrored, paired, order⟩

theorem imp {other : α → α → Prop} (weaker : ∀ left right, relation left right → other left right) (lefts rights : List α)
    (shuffled : Shuffled relation lefts rights) : Shuffled other lefts rights := by
  obtain ⟨placed, perm, each⟩ := shuffled
  exact ⟨placed, perm, each.imp weaker⟩

theorem length (lefts rights : List α) (shuffled : Shuffled relation lefts rights) : lefts.length = rights.length := by
  obtain ⟨placed, perm, each⟩ := shuffled
  exact perm.length_eq.trans each.length_eq

-- Elements that read alike are read to the same values, in another order.
theorem read (read : α → Except ε β)
    (congr : ∀ left right, relation left right → ∀ value, read left = .ok value → read right = .ok value)
    (lefts rights : List α) (shuffled : Shuffled relation lefts rights) (values : List β) (done : readAll read lefts = .ok values) :
    ∃ results, readAll read rights = .ok results ∧ values.Perm results := by
  obtain ⟨placed, perm, each⟩ := shuffled
  obtain ⟨results, placedRead, order⟩ := read_all_perm read lefts placed values perm done
  refine ⟨results, ?_, order⟩
  rw [read_all_ok] at placedRead ⊢
  clear done order perm
  induction each generalizing results with
  | nil => exact placedRead
  | cons related _ ih =>
      cases placedRead with
      | cons first rest => exact .cons (congr _ _ related _ first) (ih _ rest)

end Shuffled

theorem sort_values_perm_eq {α : Type} [LinearOrder α] (left right : List α) (perm : left.Perm right) :
    sortValues left = sortValues right :=
  sort_perm id (· ≤ ·) (fun _ _ => Iff.rfl) left right perm fun _ _ _ _ same => same

namespace Collective

theorem min_perm (left right : List ParticipantId) (perm : left.Perm right) : left.min? = right.min? := by
  cases least : right.min? with
  | none =>
      rw [List.min?_eq_none_iff] at least ⊢
      rw [least] at perm
      exact perm.eq_nil
  | some smallest =>
      rw [List.min?_eq_some_iff] at least ⊢
      exact ⟨perm.mem_iff.mpr least.1, fun other inside => least.2 other (perm.mem_iff.mp inside)⟩

-- The rotation that puts the smallest member first does not depend on where the cycle was cut.
theorem rotate_ring_rotated (members : List ParticipantId) (distinct : members.Nodup) (turns : Nat) :
    rotateRingCanonical (members.rotate turns) = rotateRingCanonical members := by
  unfold rotateRingCanonical
  rw [min_perm _ _ (members.rotate_perm turns)]
  cases least : members.min? with
  | none =>
      rw [List.min?_eq_none_iff] at least
      rw [least, List.rotate_nil]
  | some smallest =>
      have member : smallest ∈ members := (List.min?_eq_some_iff.mp least).1
      have place := List.idxOf_lt_length_of_mem member
      have moved := List.idxOf_lt_length_of_mem (List.mem_rotate.mpr member : smallest ∈ members.rotate turns)
      have some : 0 < members.length := List.length_pos_of_mem member
      have front : (members.rotate turns)[(members.rotate turns).idxOf smallest] = smallest := List.getElem_idxOf moved
      have home : members[members.idxOf smallest] = smallest := List.getElem_idxOf place
      dsimp only
      rw [List.rotate_rotate]
      rw [List.getElem_rotate] at front
      have same : ((members.rotate turns).idxOf smallest + turns) % members.length = members.idxOf smallest := by
        exact (distinct.getElem_inj_iff).mp (front.trans home.symm)
      rw [← List.rotate_mod members (turns + _), Nat.add_comm turns, same]

end Collective

-- One group as another declaration of it may list its members: a cycle cut elsewhere, any other set in any order.
structure GroupSpec.Rearranged (left right : GroupSpec) : Prop where
  rest : right = { left with members := right.members }
  members : if left.pattern = .ring then left.members ~r right.members else left.members.Perm right.members

namespace GroupSpec.Rearranged

variable {left right : GroupSpec}

theorem perm (rearranged : Rearranged left right) : left.members.Perm right.members := by
  have members := rearranged.members
  split_ifs at members
  · exact members.perm
  · exact members

theorem symm (rearranged : Rearranged left right) : Rearranged right left where
  rest := by
    rw [rearranged.rest]
  members := by
    have pattern : right.pattern = left.pattern := by rw [rearranged.rest]
    have members := rearranged.members
    rw [pattern]
    split_ifs at members ⊢
    · exact members.symm
    · exact members.symm

-- Both are refused, or both have one canonical form.
theorem canonical (rearranged : Rearranged left right) (result : GroupSpec) (built : Collective.canonicalMembers left = .ok result) :
    Collective.canonicalMembers right = .ok result := by
  have perm := rearranged.perm
  have members := rearranged.members
  rw [rearranged.rest]
  generalize right.members = others at perm members
  simp only [Collective.canonicalMembers, then_ok, deny_ok, for_each_ok] at built ⊢
  obtain ⟨id, level, some, few, names, root, built⟩ := built
  refine ⟨id, level, fun empty => some ?_, by rwa [← perm.length_eq], fun member inside => names member (perm.mem_iff.mpr inside),
    root, ?_⟩
  · rw [empty] at perm
    exact perm.eq_nil
  · rw [← sort_values_perm_eq _ _ perm]
    split_ifs at built members ⊢
    · rw [then_ok, deny_ok, Bool.not_eq_true, sorted_duplicates_free] at built
      obtain ⟨turns, rfl⟩ := members
      rw [then_ok, deny_ok, Bool.not_eq_true, sorted_duplicates_free, Collective.rotate_ring_rotated _ built.1]
      exact built
    · exact built

end GroupSpec.Rearranged

end PathPlanner

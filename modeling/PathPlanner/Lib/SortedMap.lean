import Mathlib

set_option autoImplicit false

namespace PathPlanner

-- A map kept as a list in strictly ascending key order, as an ordered tree map enumerates it.
structure SortedMap (K V : Type) [LinearOrder K] where
  entries : List (K × V)
  sorted : entries.Pairwise fun a b => a.1 < b.1

namespace SortedMap

variable {K V : Type} [LinearOrder K]

def empty : SortedMap K V := ⟨[], List.Pairwise.nil⟩

def find (map : SortedMap K V) (key : K) : Option V := (map.entries.find? fun entry => entry.1 = key).map Prod.snd

def insert (map : SortedMap K V) (key : K) (value : V) : SortedMap K V where
  entries := map.entries.filter (fun entry => entry.1 < key) ++ (key, value) :: map.entries.filter (fun entry => key < entry.1)
  sorted := by
    rw [List.pairwise_append, List.pairwise_cons]
    refine ⟨map.sorted.filter _, ⟨fun later member => by simpa using List.of_mem_filter member, map.sorted.filter _⟩, ?_⟩
    intro before below other member
    have less : before.1 < key := by simpa using List.of_mem_filter below
    rcases List.mem_cons.mp member with rfl | after
    · exact less
    · exact lt_trans less (by simpa using List.of_mem_filter after)

def erase (map : SortedMap K V) (key : K) : SortedMap K V where
  entries := map.entries.filter fun entry => entry.1 ≠ key
  sorted := map.sorted.filter _

theorem distinct (map : SortedMap K V) (key : K) (left right : V) (here : (key, left) ∈ map.entries)
    (there : (key, right) ∈ map.entries) : left = right := by
  have keys : (map.entries.map Prod.fst).Nodup := by
    rw [List.Nodup, List.pairwise_map]
    exact map.sorted.imp fun less => ne_of_lt less
  have same := List.inj_on_of_nodup_map keys here there rfl
  exact congrArg Prod.snd same

theorem find_some (map : SortedMap K V) (key : K) (value : V) : map.find key = some value ↔ (key, value) ∈ map.entries := by
  constructor
  · intro found
    rw [find, Option.map_eq_some_iff] at found
    obtain ⟨⟨other, held⟩, first, rfl⟩ := found
    have same : other = key := by simpa using List.find?_some first
    exact same ▸ List.mem_of_find?_eq_some first
  · intro member
    cases first : map.entries.find? fun entry => entry.1 = key with
    | none =>
        have absent := List.find?_eq_none.mp first (key, value) member
        simp at absent
    | some entry =>
        obtain ⟨other, held⟩ := entry
        have same : other = key := by simpa using List.find?_some first
        subst same
        rw [find, first, Option.map_some, map.distinct other held value (List.mem_of_find?_eq_some first) member]

@[simp] theorem find_empty (key : K) : (empty : SortedMap K V).find key = none := rfl

theorem mem_insert (map : SortedMap K V) (key other : K) (value held : V) :
    (other, held) ∈ (map.insert key value).entries ↔ (other = key ∧ held = value) ∨ (other ≠ key ∧ (other, held) ∈ map.entries) := by
  simp only [insert, List.mem_append, List.mem_cons, List.mem_filter, decide_eq_true_eq, Prod.mk.injEq]
  rcases lt_trichotomy other key with less | rfl | more
  · simp [less, ne_of_lt less, not_lt_of_gt less]
  · simp
  · simp [more, ne_of_gt more, not_lt_of_gt more]

theorem mem_erase (map : SortedMap K V) (key other : K) (held : V) :
    (other, held) ∈ (map.erase key).entries ↔ other ≠ key ∧ (other, held) ∈ map.entries := by
  simp [erase, and_comm]

@[simp] theorem find_insert (map : SortedMap K V) (key : K) (value : V) : (map.insert key value).find key = some value := by
  rw [find_some, mem_insert]
  exact Or.inl ⟨rfl, rfl⟩

theorem find_insert_other (map : SortedMap K V) (key other : K) (value : V) (apart : other ≠ key) :
    (map.insert key value).find other = map.find other := by
  ext held
  simp only [find_some, mem_insert, apart, false_and, ne_eq, not_false_eq_true, true_and, false_or]

@[simp] theorem find_erase (map : SortedMap K V) (key : K) : (map.erase key).find key = none := by
  rw [Option.eq_none_iff_forall_ne_some]
  intro held found
  rw [find_some, mem_erase] at found
  exact found.1 rfl

theorem find_erase_other (map : SortedMap K V) (key other : K) (apart : other ≠ key) :
    (map.erase key).find other = map.find other := by
  ext held
  simp only [find_some, mem_erase, apart, ne_eq, not_false_eq_true, true_and]

def eraseAll (map : SortedMap K V) (keys : List K) : SortedMap K V := keys.foldl erase map

theorem find_erase_all (map : SortedMap K V) (keys : List K) (other : K) (apart : other ∉ keys) :
    (map.eraseAll keys).find other = map.find other := by
  induction keys generalizing map with
  | nil => rfl
  | cons key rest ih =>
      rw [List.mem_cons, not_or] at apart
      exact (ih (map.erase key) apart.2).trans (map.find_erase_other key other apart.1)

theorem mem_erase_all (map : SortedMap K V) (keys : List K) (other : K) (held : V) :
    (other, held) ∈ (map.eraseAll keys).entries ↔ other ∉ keys ∧ (other, held) ∈ map.entries := by
  induction keys generalizing map with
  | nil => simp [eraseAll]
  | cons key rest ih =>
      rw [eraseAll, List.foldl_cons, ← eraseAll, ih, mem_erase, List.mem_cons, not_or]
      tauto

theorem find_erased (map : SortedMap K V) (keys : List K) (key : K) (erased : key ∈ keys) : (map.eraseAll keys).find key = none := by
  rw [Option.eq_none_iff_forall_ne_some]
  intro held found
  exact ((map.mem_erase_all keys key held).mp ((find_some _ _ _).mp found)).1 erased

theorem entries_nodup (map : SortedMap K V) : map.entries.Nodup :=
  map.sorted.imp fun less same => (ne_of_lt less) (congrArg Prod.fst same)

-- Two maps with the same lookups are the same map.
theorem ext_find (left right : SortedMap K V) (same : ∀ key, left.find key = right.find key) : left = right := by
  have members (entry : K × V) : entry ∈ left.entries ↔ entry ∈ right.entries := by
    rw [← find_some, ← find_some, same]
  have perm := (List.perm_ext_iff_of_nodup left.entries_nodup right.entries_nodup).mpr members
  have lists : left.entries = right.entries := by
    refine perm.eq_of_pairwise ?_ left.sorted right.sorted
    intro a b _ _ below above
    exact absurd (lt_trans below above) (lt_irrefl _)
  cases left
  cases right
  cases lists
  rfl

theorem erase_perm (map : SortedMap K V) (key : K) (value : V) (found : map.find key = some value) :
    map.entries.Perm ((key, value) :: (map.erase key).entries) := by
  have held := (map.find_some key value).mp found
  have absent : (key, value) ∉ (map.erase key).entries := fun member => ((map.mem_erase key key value).mp member).1 rfl
  refine (List.perm_ext_iff_of_nodup map.entries_nodup ((map.erase key).entries_nodup.cons absent)).mpr fun entry => ?_
  obtain ⟨other, content⟩ := entry
  rw [List.mem_cons, mem_erase, Prod.mk.injEq]
  constructor
  · intro member
    by_cases same : other = key
    · subst same
      exact Or.inl ⟨rfl, map.distinct other content value member held⟩
    · exact Or.inr ⟨same, member⟩
  · intro here
    rcases here with ⟨rfl, rfl⟩ | ⟨_, member⟩
    · exact held
    · exact member

theorem insert_perm (map : SortedMap K V) (key : K) (value : V) :
    (map.insert key value).entries.Perm ((key, value) :: (map.erase key).entries) := by
  have perm := (map.insert key value).erase_perm key value (map.find_insert key value)
  have same : (map.insert key value).erase key = map.erase key := by
    apply ext_find
    intro other
    by_cases here : other = key
    · subst here
      rw [find_erase, find_erase]
    · rw [find_erase_other _ _ _ here, find_erase_other _ _ _ here, find_insert_other _ _ _ _ here]
  rwa [same] at perm

theorem erase_absent (map : SortedMap K V) (key : K) (absent : map.find key = none) : map.erase key = map := by
  apply ext_find
  intro other
  by_cases here : other = key
  · subst here
    rw [find_erase, absent]
  · exact map.find_erase_other key other here

theorem erase_sublist (map : SortedMap K V) (key : K) : (map.erase key).entries.Sublist map.entries := List.filter_sublist

end SortedMap

end PathPlanner

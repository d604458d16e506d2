import Mathlib

set_option autoImplicit false

namespace PathPlanner.Blocks

variable {α σ : Type} (size : Nat)

def blocksOf : Nat → List α → List (List α)
  | 0, _ => []
  | count + 1, data => data.take size :: blocksOf count (data.drop size)

-- The whole blocks of a sequence, in order; what is short of a block is left out.
def blocks (data : List α) : List (List α) := blocksOf size (data.length / size) data

variable {size}

theorem blocks_short (data : List α) (short : data.length < size) : blocks size data = [] := by
  rw [blocks, Nat.div_eq_of_lt short, blocksOf]

theorem blocks_of_append (count : Nat) (whole rest : List α) (exact : whole.length = count * size) (more : Nat) :
    blocksOf size (count + more) (whole ++ rest) = blocksOf size count whole ++ blocksOf size more rest := by
  induction count generalizing whole with
  | zero =>
      obtain rfl := List.length_eq_zero_iff.mp (exact.trans (Nat.zero_mul size))
      rw [Nat.zero_add, List.nil_append, blocksOf, List.nil_append]
  | succ count ih =>
      have room : size ≤ whole.length := by
        rw [exact, Nat.succ_mul]
        omega
      have later : (whole.drop size).length = count * size := by
        rw [List.length_drop, exact, Nat.succ_mul]
        omega
      rw [Nat.add_right_comm, blocksOf, blocksOf, List.take_append_of_le_length room, List.drop_append_of_le_length room,
        ih _ later, List.cons_append]

theorem blocks_append (positive : 0 < size) (whole rest : List α) (exact : size ∣ whole.length) :
    blocks size (whole ++ rest) = blocks size whole ++ blocks size rest := by
  obtain ⟨count, length⟩ := exact
  have counted : whole.length = count * size := by rw [length, Nat.mul_comm]
  have quotient : (whole ++ rest).length / size = count + rest.length / size := by
    rw [List.length_append, counted, Nat.add_comm, Nat.add_mul_div_right _ _ positive, Nat.add_comm]
  rw [blocks, quotient, blocks_of_append count whole rest counted, blocks, blocks, counted, Nat.mul_div_cancel _ positive]

theorem blocks_one (positive : 0 < size) (block : List α) (exact : block.length = size) : blocks size block = [block] := by
  rw [blocks, exact, Nat.div_self positive, blocksOf, blocksOf, ← exact, List.take_length]

theorem whole_length (data : List α) : (data.take (size * (data.length / size))).length = size * (data.length / size) := by
  rw [List.length_take, min_eq_left (Nat.mul_div_le _ _)]

theorem rest_short (positive : 0 < size) (data : List α) : (data.drop (size * (data.length / size))).length < size := by
  rw [List.length_drop, ← Nat.mod_eq_sub_mul_div]
  exact Nat.mod_lt _ positive

theorem blocks_take (positive : 0 < size) (data : List α) :
    blocks size (data.take (size * (data.length / size))) = blocks size data := by
  have exact : size ∣ (data.take (size * (data.length / size))).length := by
    rw [whole_length]
    exact Nat.dvd_mul_right _ _
  have split := blocks_append positive _ (data.drop (size * (data.length / size))) exact
  rw [List.take_append_drop, blocks_short _ (rest_short positive data), List.append_nil] at split
  exact split.symm

-- A state that has taken in the whole blocks of what was seen, and the letters that wait for their block.
structure Buffered (size : Nat) (step : σ → List α → σ) (start state : σ) (pending seen : List α) : Prop where
  split : ∃ whole, seen = whole ++ pending ∧ size ∣ whole.length ∧ state = (blocks size whole).foldl step start
  short : pending.length < size

namespace Buffered

variable {step : σ → List α → σ} {start state : σ} {pending seen : List α}

theorem nil (positive : 0 < size) : Buffered size step start start [] [] where
  split := ⟨[], rfl, dvd_zero _, by rw [blocks_short _ positive, List.foldl_nil]⟩
  short := positive

theorem keep (buffered : Buffered size step start state pending seen) (more : List α) (room : (pending ++ more).length < size) :
    Buffered size step start state (pending ++ more) (seen ++ more) where
  split := by
    obtain ⟨whole, rfl, exact, held⟩ := buffered.split
    exact ⟨whole, List.append_assoc _ _ _, exact, held⟩
  short := room

theorem whole_blocks (buffered : Buffered size step start state pending seen) (more : List α)
    (exact : size ∣ (pending ++ more).length) :
    Buffered size step start ((blocks size (pending ++ more)).foldl step state) [] (seen ++ more) where
  split := by
    have positive := Nat.zero_lt_of_lt buffered.short
    obtain ⟨whole, rfl, first, held⟩ := buffered.split
    refine ⟨whole ++ (pending ++ more), by simp, ?_, ?_⟩
    · rw [List.length_append]
      exact Nat.dvd_add first exact
    · rw [blocks_append positive whole _ first, List.foldl_append, ← held]
  short := Nat.zero_lt_of_lt buffered.short

-- With nothing pending, whole blocks are taken in and the rest starts the next one.
theorem take_in (buffered : Buffered size step start state [] seen) (more : List α) :
    Buffered size step start ((blocks size more).foldl step state) (more.drop (size * (more.length / size))) (seen ++ more) := by
  have positive := Nat.zero_lt_of_lt buffered.short
  have exact : size ∣ (more.take (size * (more.length / size))).length := by
    rw [whole_length]
    exact Nat.dvd_mul_right _ _
  have taken := buffered.whole_blocks (more.take (size * (more.length / size))) exact
  rw [List.nil_append, blocks_take positive] at taken
  have kept := taken.keep (more.drop (size * (more.length / size))) (rest_short positive more)
  rwa [List.append_assoc, List.take_append_drop, List.nil_append] at kept

theorem pending_length (buffered : Buffered size step start state pending seen) : pending.length = seen.length % size := by
  obtain ⟨whole, rfl, ⟨count, length⟩, _⟩ := buffered.split
  rw [List.length_append, length, Nat.mul_add_mod, Nat.mod_eq_of_lt buffered.short]

theorem finished (buffered : Buffered size step start state pending seen) (exact : size ∣ seen.length) :
    state = (blocks size seen).foldl step start := by
  have empty : pending = [] := by
    rw [← List.length_eq_zero_iff, buffered.pending_length]
    exact Nat.mod_eq_zero_of_dvd exact
  subst empty
  obtain ⟨whole, rfl, _, held⟩ := buffered.split
  rw [List.append_nil]
  exact held

end Buffered

end PathPlanner.Blocks

import Mathlib

set_option autoImplicit false

namespace PathPlanner.Arrivals

variable {α ε : Type}

-- What a receiver sees of a stream, in the pieces it happens to come in; the end of the list is the orderly close.
inductive Arrival (α ε : Type) where
  | piece (items : List α)
  | interrupted
  | failed (error : ε)

def content : List (Arrival α ε) → List α
  | [] => []
  | .piece items :: rest => items ++ content rest
  | .interrupted :: rest => content rest
  | .failed _ :: _ => []

def ending : List (Arrival α ε) → Option ε
  | [] => none
  | .piece _ :: rest => ending rest
  | .interrupted :: rest => ending rest
  | .failed error :: _ => some error

-- The stream itself, whatever its pieces.
@[ext] structure Source (α ε : Type) where
  content : List α
  ending : Option ε

def source (arrivals : List (Arrival α ε)) : Source α ε := ⟨content arrivals, ending arrivals⟩

def Source.skip (count : Nat) (stream : Source α ε) : Source α ε := { stream with content := stream.content.drop count }

theorem skip_skip (first second : Nat) (stream : Source α ε) : (stream.skip first).skip second = stream.skip (first + second) := by
  simp only [Source.skip, List.drop_drop]

theorem skip_zero (stream : Source α ε) : stream.skip 0 = stream := by
  rw [Source.skip, List.drop_zero]

@[simp] theorem source_interrupted (rest : List (Arrival α ε)) : source (.interrupted :: rest) = source rest := rfl

theorem source_piece (items : List α) (rest : List (Arrival α ε)) :
    source (.piece items :: rest) = ⟨items ++ (source rest).content, (source rest).ending⟩ := rfl

-- What remains of a piece that was received in part.
theorem source_cut (limit : Nat) (items : List α) (rest : List (Arrival α ε)) (inside : limit ≤ items.length) :
    source (.piece (items.drop limit) :: rest) = (source (.piece items :: rest)).skip limit := by
  rw [source_piece, source_piece, Source.skip, List.drop_append_of_le_length inside]

theorem source_taken (items : List α) (rest : List (Arrival α ε)) :
    source rest = (source (.piece items :: rest)).skip items.length := by
  rw [source_piece, Source.skip, List.drop_left]

end PathPlanner.Arrivals

import Mathlib

set_option autoImplicit false

namespace PathPlanner.Words

variable {α : Type} (blank : α → Bool)

-- The runs between the blanks of a line.
def words (line : List α) : List (List α) := (line.splitOnP blank).filter fun word => !word.isEmpty

@[simp] theorem words_nil : words blank [] = [] := rfl

theorem words_append_blank (front back : List α) (ch : α) (isBlank : blank ch = true) :
    words blank (front ++ ch :: back) = words blank front ++ words blank back := by
  rw [words, List.splitOnP_append_cons front back isBlank, List.filter_append]
  rfl

theorem words_blank_cons (line : List α) (ch : α) (isBlank : blank ch = true) : words blank (ch :: line) = words blank line := by
  have split := words_append_blank blank [] line ch isBlank
  exact split

theorem words_drop_blanks (line : List α) : words blank (line.dropWhile blank) = words blank line := by
  induction line with
  | nil => rfl
  | cons ch rest ih =>
      cases isBlank : blank ch with
      | true => rw [List.dropWhile_cons_of_pos isBlank, ih, words_blank_cons blank rest ch isBlank]
      | false => rw [List.dropWhile_cons_of_neg (by rw [isBlank]; exact Bool.false_ne_true)]

theorem words_solid (word : List α) (solid : ∀ ch ∈ word, blank ch = false) (some : word ≠ []) : words blank word = [word] := by
  rw [words, List.splitOnP_eq_singleton solid, List.filter_singleton]
  cases word with
  | nil => exact absurd rfl some
  | cons ch rest => rfl

-- A word ends where the line does or at a blank.
theorem words_cons (word rest : List α) (solid : ∀ ch ∈ word, blank ch = false) (some : word ≠ [])
    (ends : ∀ ch ∈ rest.head?, blank ch = true) : words blank (word ++ rest) = word :: words blank rest := by
  cases rest with
  | nil => rw [List.append_nil, words_solid blank word solid some, words_nil]
  | cons ch more =>
      have isBlank := ends ch rfl
      rw [words_append_blank blank word more ch isBlank, words_solid blank word solid some, words_blank_cons blank more ch isBlank]
      rfl

theorem dropped_head (keep : α → Bool) (line : List α) : ∀ ch ∈ (line.dropWhile keep).head?, keep ch = false := by
  intro ch head
  have stopped := List.head?_dropWhile_not keep line
  rw [Option.mem_def.mp head] at stopped
  exact stopped

end PathPlanner.Words

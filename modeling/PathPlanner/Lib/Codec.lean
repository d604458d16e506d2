import PathPlanner.Lib.Checks

set_option autoImplicit false

namespace PathPlanner.Codec

variable {σ ε α β ρ : Type}

-- A reader takes items off the front of its input, or fails.
abbrev Reader (σ ε α : Type) := StateT (List σ) (Except ε) α

-- The reader accepts exactly what the writer writes of the values in the domain.
structure Reads (read : Reader σ ε α) (write : α → List σ) (domain : α → Prop) : Prop where
  accepts : ∀ value rest, domain value → read (write value ++ rest) = .ok (value, rest)
  canonical : ∀ input value rest, read input = .ok (value, rest) → domain value ∧ input = write value ++ rest

def always : α → Prop := fun _ => True

@[simp] theorem always_holds (value : α) : always value := trivial

def checked (read : Reader σ ε α) (bad : α → Prop) [DecidablePred bad] (error : α → ε) : Reader σ ε α := fun input =>
  match read input with
  | .error failed => .error failed
  | .ok (value, rest) => if bad value then .error (error value) else .ok (value, rest)

def require (bad : Prop) [Decidable bad] (error : ε) : Reader σ ε Unit := fun input =>
  if bad then .error error else .ok ((), input)

def times (read : Reader σ ε α) : Nat → Reader σ ε (List α)
  | 0 => pure []
  | n + 1 => do
      let head ← read
      let tail ← times read n
      pure (head :: tail)

-- The whole input is one value.
def whole (read : Reader σ ε α) (trailing : Nat → ε) (input : List σ) : Except ε α :=
  match read input with
  | .error failed => .error failed
  | .ok (value, rest) => if rest = [] then .ok value else .error (trailing rest.length)

theorem bind_accepted (first : Reader σ ε α) (next : α → Reader σ ε β) (input : List σ) (result : β × List σ) :
    (first >>= next) input = .ok result ↔ ∃ value rest, first input = .ok (value, rest) ∧ next value rest = .ok result := by
  change (first input >>= fun step => next step.1 step.2) = _ ↔ _
  rw [Checks.bind_ok]
  simp

@[simp] theorem require_accepted (bad : Prop) [Decidable bad] (error : ε) (input : List σ) (result : Unit × List σ) :
    require bad error input = .ok result ↔ ¬ bad ∧ result = ((), input) := by
  by_cases wrong : bad <;> simp [require, wrong, eq_comm]

namespace Reads

section Records

variable {first : Reader σ ε α} {next : α → Reader σ ε ρ} {head : α → List σ} {tail : ρ → List σ} {here : α → Prop}
  {later : ρ → Prop}

-- One field of a record: what is known of the record grows by the value read for the field.
theorem field (known : ρ → Prop) (part : ρ → α) (reads : Reads first head here)
    (others : ∀ value, Reads (next value) tail (fun record => (known record ∧ part record = value) ∧ later record)) :
    Reads (first >>= next) (fun record => head (part record) ++ tail record)
      (fun record => known record ∧ here (part record) ∧ later record) where
  accepts record rest inside := by
    rw [bind_accepted]
    refine ⟨part record, tail record ++ rest, ?_, (others _).accepts record rest ⟨⟨inside.1, rfl⟩, inside.2.2⟩⟩
    rw [List.append_assoc]
    exact reads.accepts _ _ inside.2.1
  canonical input record rest accepted := by
    rw [bind_accepted] at accepted
    obtain ⟨value, middle, here, there⟩ := accepted
    obtain ⟨valid, rfl⟩ := reads.canonical _ _ _ here
    obtain ⟨⟨⟨known, rfl⟩, later⟩, rfl⟩ := (others value).canonical _ _ _ there
    exact ⟨⟨known, valid, later⟩, by rw [List.append_assoc]⟩

-- The last field completes the record.
theorem final (known : ρ → Prop) (part : ρ → α) (make : α → ρ) (reads : Reads first head here)
    (only : ∀ value record, (known record ∧ part record = value) ↔ record = make value) :
    Reads (first >>= fun value => pure (make value)) (fun record => head (part record))
      (fun record => known record ∧ here (part record)) where
  accepts record rest inside := by
    rw [bind_accepted]
    refine ⟨part record, rest, reads.accepts _ _ inside.2, ?_⟩
    rw [← (only _ record).mp ⟨inside.1, rfl⟩]
    rfl
  canonical input record rest accepted := by
    rw [bind_accepted] at accepted
    obtain ⟨value, middle, here, there⟩ := accepted
    obtain ⟨valid, rfl⟩ := reads.canonical _ _ _ here
    cases there
    obtain ⟨known, same⟩ := (only value _).mpr rfl
    rw [same]
    exact ⟨⟨known, valid⟩, rfl⟩

end Records

variable {read : Reader σ ε α} {write : α → List σ} {domain : α → Prop}

theorem convert {image : α → List σ} {inside : α → Prop} (reads : Reads read write domain)
    (written : ∀ value, image value = write value) (same : ∀ value, inside value ↔ domain value) : Reads read image inside where
  accepts value rest holds := by
    rw [written]
    exact reads.accepts value rest ((same value).mp holds)
  canonical input value rest accepted := by
    rw [written, same]
    exact reads.canonical input value rest accepted

theorem map (convert : α → β) (back : β → α) (reads : Reads read write domain)
    (left : ∀ value, domain value → back (convert value) = value) (right : ∀ value, domain (back value) → convert (back value) = value) :
    Reads (convert <$> read) (fun value => write (back value)) (fun value => domain (back value)) where
  accepts value rest inside := by
    rw [map_eq_pure_bind, bind_accepted]
    refine ⟨back value, rest, reads.accepts _ _ inside, ?_⟩
    rw [right value inside]
    rfl
  canonical input value rest accepted := by
    rw [map_eq_pure_bind, bind_accepted] at accepted
    obtain ⟨raw, middle, here, there⟩ := accepted
    obtain ⟨valid, rfl⟩ := reads.canonical _ _ _ here
    cases there
    rw [left raw valid]
    exact ⟨valid, rfl⟩

theorem checked (reads : Reads read write domain) (bad : α → Prop) [DecidablePred bad] (error : α → ε) :
    Reads (checked read bad error) write (fun value => domain value ∧ ¬ bad value) where
  accepts value rest inside := by
    rw [Codec.checked, reads.accepts value rest inside.1]
    exact if_neg inside.2
  canonical input value rest accepted := by
    unfold Codec.checked at accepted
    cases outcome : read input with
    | error failed => simp [outcome] at accepted
    | ok step =>
        obtain ⟨raw, after⟩ := step
        simp only [outcome] at accepted
        split_ifs at accepted with wrong
        simp only [Except.ok.injEq, Prod.mk.injEq] at accepted
        obtain ⟨rfl, rfl⟩ := accepted
        obtain ⟨valid, same⟩ := reads.canonical _ _ _ outcome
        exact ⟨⟨valid, wrong⟩, same⟩

theorem times (reads : Reads read write domain) (count : Nat) :
    Reads (times read count) (fun values => values.flatMap write)
      (fun values => values.length = count ∧ ∀ value ∈ values, domain value) := by
  induction count with
  | zero =>
      refine ⟨fun values rest inside => ?_, fun input values rest accepted => ?_⟩
      · rw [List.length_eq_zero_iff.mp inside.1]
        rfl
      · cases accepted
        simp
  | succ count ih =>
      refine ⟨fun values rest inside => ?_, fun input values rest accepted => ?_⟩
      · cases values with
        | nil => simp at inside
        | cons value others =>
            rw [Codec.times, bind_accepted]
            refine ⟨value, others.flatMap write ++ rest, ?_, ?_⟩
            · rw [List.flatMap_cons, List.append_assoc]
              exact reads.accepts _ _ (inside.2 value (by simp))
            · rw [bind_accepted]
              exact ⟨others, rest, ih.accepts _ _ ⟨by simpa using inside.1, fun other member => inside.2 other (by simp [member])⟩, rfl⟩
      · rw [Codec.times, bind_accepted] at accepted
        obtain ⟨value, middle, here, others⟩ := accepted
        rw [bind_accepted] at others
        obtain ⟨tail, after, there, done⟩ := others
        cases done
        obtain ⟨valid, rfl⟩ := reads.canonical _ _ _ here
        obtain ⟨⟨rfl, all⟩, rfl⟩ := ih.canonical _ _ _ there
        exact ⟨⟨rfl, by simpa using ⟨valid, all⟩⟩, by rw [List.flatMap_cons, List.append_assoc]⟩

-- A count, then that many values.
theorem counted {count : Reader σ ε Nat} {number : Nat → List σ} {few : Nat → Prop} (counts : Reads count number few)
    (reads : Reads read write domain) :
    Reads (count >>= Codec.times read) (fun values => number values.length ++ values.flatMap write)
      (fun values => few values.length ∧ ∀ value ∈ values, domain value) :=
  have listed := field always List.length counts fun n => (reads.times n).convert (fun _ => rfl) fun values =>
    (show (always values ∧ values.length = n) ∧ (∀ value ∈ values, domain value) ↔ _ by simp)
  listed.convert (fun _ => rfl) (by simp)

theorem whole_accepts (reads : Reads read write domain) (trailing : Nat → ε) (value : α) (inside : domain value) :
    whole read trailing (write value) = .ok value := by
  have accepted := reads.accepts value [] inside
  rw [List.append_nil] at accepted
  rw [whole, accepted]
  rfl

theorem whole_canonical (reads : Reads read write domain) (trailing : Nat → ε) (input : List σ) (value : α)
    (accepted : whole read trailing input = .ok value) : domain value ∧ input = write value := by
  unfold whole at accepted
  cases outcome : read input with
  | error failed => simp [outcome] at accepted
  | ok step =>
      obtain ⟨found, rest⟩ := step
      simp only [outcome] at accepted
      split_ifs at accepted with empty
      simp only [Except.ok.injEq] at accepted
      subst accepted empty
      simpa using reads.canonical _ _ _ outcome

end Reads

-- Two values whose writings start alike are the same value.
def Delimited (write : α → List σ) (domain : α → Prop) : Prop :=
  ∀ left right after behind, domain left → domain right → write left ++ after = write right ++ behind →
    left = right ∧ after = behind

theorem Reads.delimited {read : Reader σ ε α} {write : α → List σ} {domain : α → Prop} (reads : Reads read write domain) :
    Delimited write domain := by
  intro left right after behind first second same
  have here := reads.accepts left after first
  have there := reads.accepts right behind second
  rw [same, there] at here
  simpa [eq_comm] using here

-- What the writing of a record settles about it.
def Fixes (write : ρ → List σ) (domain : ρ → Prop) (agree : ρ → ρ → Prop) : Prop :=
  ∀ left right after behind, domain left → domain right → write left ++ after = write right ++ behind →
    agree left right ∧ after = behind

namespace Fixes

theorem constant (domain : ρ → Prop) (tag : List σ) : Fixes (fun _ : ρ => tag) domain (fun _ _ => True) :=
  fun _ _ _ _ _ _ same => ⟨trivial, List.append_cancel_left same⟩

theorem part (domain : ρ → Prop) {head : α → List σ} {here : α → Prop} (part : ρ → α) (delimited : Delimited head here)
    (inside : ∀ record, domain record → here (part record)) :
    Fixes (fun record => head (part record)) domain (fun left right => part left = part right) :=
  fun left right after behind first second same => delimited _ _ after behind (inside left first) (inside right second) same

variable {write second : ρ → List σ} {domain : ρ → Prop} {agree also : ρ → ρ → Prop}

theorem append (fixes : Fixes write domain agree) (others : Fixes second domain also) :
    Fixes (fun record => write record ++ second record) domain (fun left right => agree left right ∧ also left right) := by
  intro left right after behind here there same
  rw [List.append_assoc, List.append_assoc] at same
  obtain ⟨agreed, rest⟩ := fixes _ _ _ _ here there same
  obtain ⟨more, done⟩ := others _ _ _ _ here there rest
  exact ⟨⟨agreed, more⟩, done⟩

theorem delimited (fixes : Fixes write domain agree) (whole : ∀ left right, agree left right → left = right) :
    Delimited write domain := by
  intro left right after behind here there same
  obtain ⟨agreed, done⟩ := fixes left right after behind here there same
  exact ⟨whole left right agreed, done⟩

end Fixes

namespace Delimited

variable {write : α → List σ} {domain : α → Prop}

theorem repeated (delimited : Delimited write domain) (left right : List α) (after behind : List σ)
    (here : ∀ value ∈ left, domain value) (there : ∀ value ∈ right, domain value) (long : left.length = right.length)
    (same : left.flatMap write ++ after = right.flatMap write ++ behind) : left = right ∧ after = behind := by
  induction left generalizing right with
  | nil =>
      rw [List.length_eq_zero_iff.mp long.symm] at same ⊢
      exact ⟨rfl, same⟩
  | cons first others ih =>
      cases right with
      | nil => simp at long
      | cons second rest =>
          rw [List.flatMap_cons, List.flatMap_cons, List.append_assoc, List.append_assoc] at same
          obtain ⟨rfl, tails⟩ := delimited _ _ _ _ (here first (by simp)) (there second (by simp)) same
          obtain ⟨rfl, done⟩ := ih rest (fun value member => here value (by simp [member]))
            (fun value member => there value (by simp [member])) (by simpa using long) tails
          exact ⟨rfl, done⟩

theorem counted {number : Nat → List σ} {few : Nat → Prop} (counts : Delimited number few) (delimited : Delimited write domain) :
    Delimited (fun values : List α => number values.length ++ values.flatMap write)
      (fun values => few values.length ∧ ∀ value ∈ values, domain value) := by
  intro left right after behind here there same
  rw [List.append_assoc, List.append_assoc] at same
  obtain ⟨long, rest⟩ := counts _ _ _ _ here.1 there.1 same
  exact delimited.repeated left right after behind here.2 there.2 long rest

theorem through (delimited : Delimited write domain) (view : β → α) (injective : Function.Injective view) :
    Delimited (fun value => write (view value)) (fun value => domain (view value)) :=
  fun _ _ after behind here there same =>
    ⟨injective (delimited _ _ after behind here there same).1, (delimited _ _ after behind here there same).2⟩

theorem injective (delimited : Delimited write domain) (left right : α) (here : domain left) (there : domain right)
    (same : write left = write right) : left = right := (delimited left right [] [] here there (by rw [same])).1

end Delimited

end PathPlanner.Codec

/-!
Computations that may fail, step by step: what a success is made of, and which faults there cannot
be.
-/

namespace AccessLedger

variable {ε ε' α β : Type} {x : Except ε α}

theorem bind_eq_ok_iff {k : α → Except ε β} {b : β} :
    x >>= k = .ok b ↔ ∃ a, x = .ok a ∧ k a = .ok b := by
  cases x with
  | error e =>
      refine iff_of_false ?_ ?_
      · rintro ⟨⟩
      · rintro ⟨_, ⟨⟩, _⟩
  | ok a =>
      constructor
      · exact fun h => ⟨a, rfl, h⟩
      · rintro ⟨_, ⟨⟩, h⟩
        exact h

theorem bind_eq_error_iff {k : α → Except ε β} {fault : ε} :
    x >>= k = .error fault ↔ x = .error fault ∨ ∃ a, x = .ok a ∧ k a = .error fault := by
  cases x with
  | error cause =>
      constructor
      · rintro ⟨⟩
        exact .inl rfl
      · rintro (⟨⟨⟩⟩ | ⟨_, ⟨⟩, _⟩)
        rfl
  | ok a =>
      constructor
      · exact fun h => .inr ⟨a, rfl, h⟩
      · rintro (⟨⟨⟩⟩ | ⟨_, ⟨⟩, h⟩)
        exact h

theorem mapError_eq_ok_iff {k : ε → ε'} {b : α} : x.mapError k = .ok b ↔ x = .ok b := by
  cases x with
  | error _ =>
      refine iff_of_false ?_ ?_
      · rintro ⟨⟩
      · rintro ⟨⟩
  | ok _ =>
      constructor
      · rintro ⟨⟩
        rfl
      · rintro ⟨⟩
        rfl

theorem ok_ne_error {b : α} {fault : ε} : Except.ok b ≠ .error fault := by
  rintro ⟨⟩

theorem bind_ne_error {k : α → Except ε β} {fault : ε} (hx : x ≠ .error fault)
    (hk : ∀ b, x = .ok b → k b ≠ .error fault) : x >>= k ≠ .error fault := by
  intro h
  rcases bind_eq_error_iff.mp h with h | ⟨b, hb, h⟩
  · exact hx h
  · exact hk b hb h

theorem mapError_ne_error {k : ε → ε'} {fault : ε'} (h : ∀ cause, k cause ≠ fault) :
    x.mapError k ≠ .error fault := by
  cases x with
  | error cause => exact fun heq => h cause (Except.error.inj heq)
  | ok _ => exact ok_ne_error

end AccessLedger

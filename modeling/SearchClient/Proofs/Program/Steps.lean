/-!
# One step after another

Steps that may fail give a result exactly when each of them does.
-/

set_option autoImplicit false
set_option relaxedAutoImplicit false

namespace SearchClient

variable {ε α β : Type} {first : Except ε α} {b : β}

theorem bind_eq_ok {next : α → Except ε β} :
    first >>= next = .ok b ↔ ∃ a, first = .ok a ∧ next a = .ok b := by
  constructor
  · intro h
    cases first with
    | error e => cases h
    | ok a => exact ⟨a, rfl, h⟩
  · rintro ⟨a, rfl, h⟩
    exact h

theorem map_eq_ok {f : α → β} : first.map f = .ok b ↔ ∃ a, first = .ok a ∧ f a = b := by
  cases first with
  | error e => exact ⟨nofun, nofun⟩
  | ok a => simp [Except.map]

end SearchClient

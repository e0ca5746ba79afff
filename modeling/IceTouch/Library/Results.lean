import Mathlib.Data.List.Basic

/-!
# Computations that may fail

What is known of the parts of a computation in `Except` that has succeeded.
-/

namespace IceTouch.Results

variable {ε φ α β : Type}

variable {result : Except ε α}

theorem bind_ok {next : α → Except ε β} {value : β} (bound : (result >>= next) = .ok value) :
    ∃ middle, result = .ok middle ∧ next middle = .ok value := by
  cases result with
  | error cause => cases bound
  | ok middle => exact ⟨middle, rfl, bound⟩

theorem map_ok {change : α → β} {value : β} (mapped : result.map change = .ok value) :
    ∃ middle, result = .ok middle ∧ change middle = value := by
  cases result with
  | error cause => cases mapped
  | ok middle => exact ⟨middle, rfl, Except.ok.inj mapped⟩

theorem map_error_ok {change : ε → φ} {value : α} (mapped : result.mapError change = .ok value) :
    result = .ok value := by
  cases result with
  | error cause => cases mapped
  | ok found => exact congrArg Except.ok (Except.ok.inj mapped)

end IceTouch.Results

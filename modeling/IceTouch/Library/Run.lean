import Mathlib.Data.List.Basic
import Mathlib.Logic.Basic

/-!
# Runs of a state machine with failure

Rules for `EStateM`, whose runs keep the state they failed in: how a computation steps
when its first part is known to succeed or to fail, how a run that ended is taken apart, and
what every value that is returned has in common.
-/

namespace IceTouch.Run

variable {ε σ α β : Type} {first : EStateM ε σ α} {next : α → EStateM ε σ β}

variable {before after : σ}

theorem bind_of_ok {value : α} (ran : first before = .ok value after) :
    (first >>= next) before = next value after := by
  change (match first before with
    | .ok a s => next a s
    | .error e s => .error e s) = _
  rw [ran]

theorem bind_of_error {error : ε} (ran : first before = .error error after) :
    (first >>= next) before = .error error after := by
  change (match first before with
    | .ok a s => next a s
    | .error e s => .error e s) = _
  rw [ran]

/-- A run that ended normally did so in both parts. -/
theorem of_bind_ok {value : β} (ran : (first >>= next) before = .ok value after) :
    ∃ found middle, first before = .ok found middle ∧ next found middle = .ok value after := by
  cases begun : first before with
  | ok found middle =>
      rw [bind_of_ok begun] at ran
      exact ⟨found, middle, rfl, ran⟩
  | error error middle =>
      rw [bind_of_error begun] at ran
      cases ran

/-- A run that failed did so in one of the parts. -/
theorem of_bind_error {error : ε} (ran : (first >>= next) before = .error error after) :
    first before = .error error after ∨
      ∃ found middle, first before = .ok found middle ∧ next found middle = .error error after := by
  cases begun : first before with
  | ok found middle =>
      rw [bind_of_ok begun] at ran
      exact Or.inr ⟨found, middle, rfl, ran⟩
  | error failed middle =>
      rw [bind_of_error begun] at ran
      cases ran
      exact Or.inl rfl

@[simp] theorem bind_get (next : σ → EStateM ε σ β) (state : σ) :
    (get >>= next) state = next state state := rfl

@[simp] theorem bind_modify (change : σ → σ) (next : Unit → EStateM ε σ β) (state : σ) :
    (modify change >>= next : EStateM ε σ β) state = next () (change state) := rfl

@[simp] theorem pure_run (value : α) (state : σ) :
    (pure value : EStateM ε σ α) state = .ok value state := rfl

/-- Whatever a run returns has the property. -/
def Returns (run : EStateM ε σ α) (property : α → Prop) : Prop :=
  ∀ before value after, run before = .ok value after → property value

namespace Returns

variable {property : α → Prop}

theorem pure {value : α} (holds : property value) :
    Returns (Pure.pure value : EStateM ε σ α) property := by
  intro before result after ran
  cases ran
  exact holds

theorem bind {first : EStateM ε σ β} {next : β → EStateM ε σ α}
    (returns : ∀ found, Returns (next found) property) : Returns (first >>= next) property := by
  intro before value after ran
  obtain ⟨found, middle, _, continued⟩ := of_bind_ok ran
  exact returns found middle value after continued

theorem ite {condition : Prop} [Decidable condition] {one two : EStateM ε σ α}
    (first : Returns one property) (second : Returns two property) :
    Returns (if condition then one else two) property := by
  split
  · exact first
  · exact second

end Returns

/-- Run a computation `count` times and collect the results in order. -/
def repeatRun (count : Nat) (each : EStateM ε σ α) : EStateM ε σ (List α) :=
  match count with
  | 0 => pure []
  | count + 1 => do
      let value ← each
      let values ← repeatRun count each
      pure (value :: values)

end IceTouch.Run

import Mathlib.Data.List.Basic

/-!
# Runs of a machine that is driven by events

A step may be impossible in a state, and a run may be confined to steps that meet a
condition on the event and on the state before it.
-/

namespace IceTouch.Machine

variable {ε σ : Type}

/-- `state` is reached from `start` by possible steps that are all `allowed`. -/
inductive Reach (step : ε → σ → Option σ) (allowed : ε → σ → Prop) (start : σ) : σ → Prop
  | here : Reach step allowed start start
  | next {state after : σ} {event : ε} (before : Reach step allowed start state)
      (admitted : allowed event state) (stepped : step event state = some after) :
      Reach step allowed start after

variable {step : ε → σ → Option σ} {allowed : ε → σ → Prop} {start state : σ}

/-- What holds at the start and survives every allowed step holds in every state reached. -/
theorem Reach.invariant {holds : σ → Prop} (reached : Reach step allowed start state)
    (initially : holds start)
    (preserved : ∀ event before after, holds before → allowed event before →
      step event before = some after → holds after) : holds state := by
  induction reached with
  | here => exact initially
  | next _ admitted stepped ih => exact preserved _ _ _ ih admitted stepped

theorem Reach.trans {later : σ} (first : Reach step allowed start state)
    (second : Reach step allowed state later) : Reach step allowed start later := by
  induction second with
  | here => exact first
  | next _ admitted stepped ih => exact .next ih admitted stepped

theorem Reach.weaken {other : ε → σ → Prop} (reached : Reach step allowed start state)
    (implies : ∀ event state, allowed event state → other event state) :
    Reach step other start state := by
  induction reached with
  | here => exact .here
  | next _ admitted stepped ih => exact .next ih (implies _ _ admitted) stepped

def runAll (step : ε → σ → Option σ) : List ε → σ → Option σ
  | [], state => some state
  | event :: events, state => (step event state).bind (runAll step events)

theorem reach_of_run {events : List ε} {after : σ}
    (ran : runAll step events start = some after)
    (admitted : ∀ event ∈ events, ∀ state, allowed event state) :
    Reach step allowed start after := by
  induction events generalizing start with
  | nil =>
      simp only [runAll, Option.some.injEq] at ran
      rw [← ran]
      exact .here
  | cons event events ih =>
      simp only [runAll, Option.bind_eq_some_iff] at ran
      obtain ⟨middle, stepped, rest⟩ := ran
      have first : Reach step allowed start middle :=
        .next .here (admitted event List.mem_cons_self start) stepped
      exact first.trans
        (ih rest fun other inside => admitted other (List.mem_cons_of_mem event inside))

def checked (step : ε → σ → Option σ) (check : ε → σ → Bool) (event : ε) (state : σ) : Option σ :=
  if check event state then step event state else none

theorem reach_of_checked {check : ε → σ → Bool} {events : List ε} {after : σ}
    (implies : ∀ event state, check event state = true → allowed event state)
    (ran : runAll (checked step check) events start = some after) :
    Reach step allowed start after := by
  induction events generalizing start with
  | nil =>
      simp only [runAll, Option.some.injEq] at ran
      rw [← ran]
      exact .here
  | cons event events ih =>
      simp only [runAll, Option.bind_eq_some_iff] at ran
      obtain ⟨middle, stepped, rest⟩ := ran
      unfold checked at stepped
      split at stepped
      · next passed =>
          have first : Reach step allowed start middle :=
            .next .here (implies event start passed) stepped
          exact first.trans (ih rest)
      · cases stepped

section outcomes

variable {φ ο : Type}

/-- The outcomes of the steps up to the first one that fails, with the state the run ends in. -/
def outcomes (step : ε → σ → Except φ (ο × σ)) : List ε → σ → List ο × σ × Option φ
  | [], state => ([], state, none)
  | event :: events, state =>
      match step event state with
      | .error fault => ([], state, some fault)
      | .ok (outcome, after) =>
          let rest := outcomes step events after
          (outcome :: rest.1, rest.2)

/-- Every step of the run is `allowed`. -/
def Every (step : ε → σ → Except φ (ο × σ)) (allowed : ε → σ → Prop) : List ε → σ → Prop
  | [], _ => True
  | event :: events, state =>
      allowed event state ∧
        ∀ outcome after, step event state = .ok (outcome, after) → Every step allowed events after

end outcomes

end IceTouch.Machine

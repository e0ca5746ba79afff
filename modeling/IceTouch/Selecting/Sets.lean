import Mathlib.Data.Finset.Card
import Mathlib.Data.Finset.Image
import IceTouch.Selecting.EventHandler

/-!
# The selector over select and poll

Both keep the descriptors in sets of their own, which may only be changed while no thread
selects: a change that comes in between is queued, and the selecting thread interrupted. What
the sets are, and how a change is stored in them, is all that differs.
-/

namespace IceTouch.Selecting

open Machine

structure SetSelector (η τ : Type) where
  flags : η → Flags
  changes : List (η × SocketOperation)
  selecting : Bool
  interrupted : Bool
  sets : τ

variable {η τ : Type} [DecidableEq η]

namespace SetSelector

def start (sets : τ) : SetSelector η τ where
  flags := fun _ => Flags.none
  changes := []
  selecting := false
  interrupted := false
  sets := sets

def setFlags (s : SetSelector η τ) (handler : η) (flags : Flags) : SetSelector η τ :=
  { s with flags := Function.update s.flags handler flags }

section calls

-- What stores a change in the sets.
variable (store : η → SocketOperation → τ → τ)

def stored (changes : List (η × SocketOperation)) (sets : τ) : τ :=
  changes.foldl (fun sets change => store change.1 change.2 sets) sets

def updateSelector (s : SetSelector η τ) : SetSelector η τ :=
  { s with sets := stored store s.changes s.sets, changes := [] }

def updateImpl (s : SetSelector η τ) (handler : η) : SetSelector η τ :=
  let queued := { s with changes := s.changes ++ [(handler, (s.flags handler).status)] }
  if s.selecting then { queued with interrupted := true } else queued.updateSelector store

def update (s : SetSelector η τ) (handler : η) (remove add : SocketOperation) :
    SetSelector η τ :=
  let flags := s.flags handler
  let after := flags.register remove add
  let changed := s.setFlags handler after
  if flags.registered = after.registered then changed else changed.updateImpl store handler

def enable (s : SetSelector η τ) (handler : η) (operation : SocketOperation) :
    SetSelector η τ :=
  let flags := s.flags handler
  if has flags.disabled operation then
    let changed := s.setFlags handler (flags.enable operation)
    if has flags.registered operation then changed.updateImpl store handler else changed
  else s

def disable (s : SetSelector η τ) (handler : η) (operation : SocketOperation) :
    SetSelector η τ :=
  let flags := s.flags handler
  if has flags.disabled operation then s
  else
    let changed := s.setFlags handler (flags.disable operation)
    if has flags.registered operation then changed.updateImpl store handler else changed

def finish (s : SetSelector η τ) (handler : η) : SetSelector η τ :=
  if (s.flags handler).registered ≠ 0 then
    s.update store handler (s.flags handler).registered operationNone
  else s

def startSelect (s : SetSelector η τ) : SetSelector η τ :=
  let resumed :=
    if s.interrupted then
      let quiet := { s with interrupted := false }
      if s.changes ≠ [] then quiet.updateSelector store else quiet
    else s
  { resumed with selecting := true }

def step : Event η → SetSelector η τ → Option (SetSelector η τ)
  | .update handler remove add, s => some (s.update store handler remove add)
  | .enable handler operation, s => some (s.enable store handler operation)
  | .disable handler operation, s => some (s.disable store handler operation)
  | .finish handler, s => some (s.finish store handler)
  | .startSelect, s => some (s.startSelect store)
  | .finishSelect, s => some { s with selecting := false }

end calls

def within (used : η → Prop) : Event η → Prop
  | .update handler _ _ => used handler
  | .enable handler _ => used handler
  | .disable handler _ => used handler
  | .finish handler => used handler
  | .startSelect => True
  | .finishSelect => True

def allowed (used : η → Prop) (event : Event η) (s : SetSelector η τ) : Prop :=
  event.proper s.flags ∧ within used event

section runs

variable {store : η → SocketOperation → τ → τ} {used : η → Prop}
  {agrees : (η → SocketOperation) → τ → Prop} {s : SetSelector η τ} {handler : η}

def statuses (s : SetSelector η τ) : η → SocketOperation := fun handler => (s.flags handler).status

def Stores (store : η → SocketOperation → τ → τ) (used : η → Prop)
    (agrees : (η → SocketOperation) → τ → Prop) : Prop :=
  ∀ (statuses : η → SocketOperation) (sets : τ) (handler : η) (status : SocketOperation),
    used handler → agrees statuses sets →
      agrees (Function.update statuses handler status) (store handler status sets)

/-- When all changes are stored the sets are those of the flags. Without an interrupt there are
no changes. -/
structure Settles (store : η → SocketOperation → τ → τ)
    (agrees : (η → SocketOperation) → τ → Prop) (s : SetSelector η τ) : Prop where
  agrees : agrees s.statuses (stored store s.changes s.sets)
  interrupted : s.changes ≠ [] → s.interrupted = true

theorem statuses_set (flags : Flags) :
    (s.setFlags handler flags).statuses = Function.update s.statuses handler flags.status := by
  funext other
  by_cases same : other = handler
  · subst same
    simp [statuses, setFlags]
  · simp [statuses, setFlags, same]

section

variable (settles : Settles store agrees s)

include settles

theorem Settles.keep {flags : Flags} (same : flags.status = (s.flags handler).status) :
    Settles store agrees (s.setFlags handler flags) where
  agrees := by
    have unchanged : (s.setFlags handler flags).statuses = s.statuses := by
      rw [statuses_set, same]
      exact Function.update_eq_self handler s.statuses
    rw [unchanged]
    exact settles.agrees
  interrupted := settles.interrupted

section

variable (stores : Stores store used agrees)

include stores

theorem Settles.updateImpl (inside : used handler) (flags : Flags) :
    Settles store agrees ((s.setFlags handler flags).updateImpl store handler) := by
  have queued : agrees (s.setFlags handler flags).statuses
      (stored store (s.changes ++ [(handler, flags.status)]) s.sets) := by
    rw [statuses_set, stored, List.foldl_append]
    exact stores _ _ handler flags.status inside settles.agrees
  have status : ((s.setFlags handler flags).flags handler).status = flags.status := by
    simp [setFlags]
  unfold SetSelector.updateImpl
  rw [status]
  by_cases selecting : s.selecting = true
  · rw [if_pos (show (s.setFlags handler flags).selecting = true from selecting)]
    exact ⟨queued, fun _ => rfl⟩
  · rw [if_neg (show ¬ (s.setFlags handler flags).selecting = true from selecting)]
    exact ⟨queued, fun changed => absurd rfl changed⟩

theorem Settles.update (inside : used handler) (remove add : SocketOperation) :
    Settles store agrees (s.update store handler remove add) := by
  simp only [SetSelector.update]
  by_cases same : (s.flags handler).registered = ((s.flags handler).register remove add).registered
  · rw [if_pos same]
    apply settles.keep
    rw [Flags.status, ← same]
    rfl
  · rw [if_neg same]
    exact settles.updateImpl stores inside _

theorem Settles.enable (inside : used handler) (operation : SocketOperation) :
    Settles store agrees (s.enable store handler operation) := by
  simp only [SetSelector.enable]
  by_cases disabled : has (s.flags handler).disabled operation = true
  · rw [if_pos disabled]
    by_cases registered : has (s.flags handler).registered operation = true
    · rw [if_pos registered]
      exact settles.updateImpl stores inside _
    · rw [if_neg registered]
      exact settles.keep (status_enable_unregistered (by simpa using registered))
  · rw [if_neg disabled]
    exact settles

theorem Settles.disable (inside : used handler) (operation : SocketOperation) :
    Settles store agrees (s.disable store handler operation) := by
  simp only [SetSelector.disable]
  by_cases disabled : has (s.flags handler).disabled operation = true
  · rw [if_pos disabled]
    exact settles
  · rw [if_neg disabled]
    by_cases registered : has (s.flags handler).registered operation = true
    · rw [if_pos registered]
      exact settles.updateImpl stores inside _
    · rw [if_neg registered]
      exact settles.keep (status_disable_unregistered (by simpa using registered))

theorem Settles.step {event : Event η} {after : SetSelector η τ} (inside : within used event)
    (stepped : SetSelector.step store event s = some after) : Settles store agrees after := by
  cases event with
  | update handler remove add =>
      cases stepped
      exact settles.update stores inside remove add
  | enable handler operation =>
      cases stepped
      exact settles.enable stores inside operation
  | disable handler operation =>
      cases stepped
      exact settles.disable stores inside operation
  | finish handler =>
      cases stepped
      unfold SetSelector.finish
      split
      · exact settles.update stores inside _ _
      · exact settles
  | startSelect =>
      cases stepped
      simp only [SetSelector.startSelect]
      by_cases interrupted : s.interrupted = true
      · rw [if_pos interrupted]
        by_cases changed : s.changes ≠ []
        · rw [if_pos changed]
          exact ⟨settles.agrees, fun changes => absurd rfl changes⟩
        · rw [if_neg changed]
          exact ⟨settles.agrees, fun changes => absurd changes changed⟩
      · rw [if_neg interrupted]
        exact ⟨settles.agrees, settles.interrupted⟩
  | finishSelect =>
      cases stepped
      exact ⟨settles.agrees, settles.interrupted⟩

end

end

theorem agrees_of_reach {sets : τ} (stores : Stores store used agrees)
    (initially : agrees (fun _ => 0) sets)
    (reached : Reach (step store) (allowed used) (start sets) s) (settled : s.changes = []) :
    agrees s.statuses s.sets := by
  have first : Settles store agrees (start sets) := by
    constructor
    · have nothing : (start sets : SetSelector η τ).statuses = fun _ => 0 := by
        funext handler
        exact status_none
      rw [nothing]
      exact initially
    · intro changed
      exact absurd rfl changed
  have settles : Settles store agrees s :=
    reached.invariant first fun _ _ _ settles admitted stepped =>
      settles.step stores admitted.2 stepped
  have here := settles.agrees
  rw [settled] at here
  exact here

end runs

end SetSelector

end IceTouch.Selecting

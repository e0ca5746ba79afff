import IceTouch.Selecting.EventHandler

/-!
# The selector over epoll

Every change is made at once, by the `epoll_ctl` that fits what was watched before and what is
watched afterwards. An `epoll_ctl` that does not fit fails, and the selector only logs this.
-/

namespace IceTouch.Selecting

open Machine

/-- An `epoll_event`. -/
structure EpollEvent (η : Type) where
  events : SocketOperation
  data : η
deriving DecidableEq

structure EpollSelector (η : Type) where
  flags : η → Flags
  /-- The interest list of `_queueFd`. -/
  interest : Socket → Option (EpollEvent η)

inductive Control where
  | add
  | modify
  | delete
deriving DecidableEq

variable {η : Type} [DecidableEq η]

def epollCtl (control : Control) (socket : Socket) (event : EpollEvent η)
    (interest : Socket → Option (EpollEvent η)) : Socket → Option (EpollEvent η) :=
  match control, interest socket with
  | .add, none => Function.update interest socket (some event)
  | .modify, some _ => Function.update interest socket (some event)
  | .delete, some _ => Function.update interest socket none
  | _, _ => interest

/-- `EPOLLIN` and `EPOLLOUT` for a set of operations. -/
def epollEvents (status : SocketOperation) : SocketOperation :=
  (if has status operationRead then operationRead else 0) |||
    if has status operationWrite then operationWrite else 0

namespace EpollSelector

def start : EpollSelector η where
  flags := fun _ => Flags.none
  interest := fun _ => none

def setFlags (s : EpollSelector η) (handler : η) (flags : Flags) : EpollSelector η :=
  { s with flags := Function.update s.flags handler flags }

section calls

variable (fd : η → Socket)

def control (s : EpollSelector η) (operation : Control) (handler : η)
    (status : SocketOperation) : EpollSelector η :=
  { s with interest := epollCtl operation (fd handler) ⟨epollEvents status, handler⟩ s.interest }

def update (s : EpollSelector η) (handler : η) (remove add : SocketOperation) :
    EpollSelector η :=
  let flags := s.flags handler
  let after := flags.register remove add
  let changed := s.setFlags handler after
  if flags.registered = after.registered then changed
  else
    let status :=
      if flags.disabled ≠ 0 then after.registered &&& ~~~flags.disabled else after.registered
    let previous :=
      if flags.disabled ≠ 0 then flags.registered &&& ~~~flags.disabled else flags.registered
    if previous = 0 ∧ status ≠ 0 then changed.control fd .add handler status
    else if previous ≠ 0 ∧ status = 0 then changed.control fd .delete handler status
    else if previous = status then changed
    else changed.control fd .modify handler status

def enable (s : EpollSelector η) (handler : η) (operation : SocketOperation) : EpollSelector η :=
  let flags := s.flags handler
  if has flags.disabled operation then
    let after := flags.enable operation
    let changed := s.setFlags handler after
    if has flags.registered operation then
      let previous := flags.registered &&& ~~~(after.disabled ||| operation)
      changed.control fd (if previous ≠ 0 then .modify else .add) handler after.status
    else changed
  else s

def disable (s : EpollSelector η) (handler : η) (operation : SocketOperation) :
    EpollSelector η :=
  let flags := s.flags handler
  if has flags.disabled operation then s
  else
    let after := flags.disable operation
    let changed := s.setFlags handler after
    if has flags.registered operation then
      changed.control fd (if after.status ≠ 0 then .modify else .delete) handler after.status
    else changed

def finish (s : EpollSelector η) (handler : η) : EpollSelector η :=
  if (s.flags handler).registered ≠ 0 then
    s.update fd handler (s.flags handler).registered operationNone
  else s

def step : Event η → EpollSelector η → Option (EpollSelector η)
  | .update handler remove add, s => some (s.update fd handler remove add)
  | .enable handler operation, s => some (s.enable fd handler operation)
  | .disable handler operation, s => some (s.disable fd handler operation)
  | .finish handler, s => some (s.finish fd handler)
  | .startSelect, s => some s
  | .finishSelect, s => some s

/-- The operations that are watched for a handler. -/
def asked (s : EpollSelector η) (handler : η) : Option SocketOperation :=
  (s.interest (fd handler)).map EpollEvent.events

end calls

/-- Where some of the operations were watched all along, others of them must stay out of what
`enable` is called with, unless nothing new is watched. -/
def careful (s : EpollSelector η) : Event η → Prop
  | .enable handler operation =>
      has (s.flags handler).disabled operation → has (s.flags handler).registered operation →
        (s.flags handler).registered &&& ~~~((s.flags handler).disabled ||| operation) ≠ 0 ∨
          (s.flags handler).status = 0 ∨
          ((s.flags handler).enable operation).status = (s.flags handler).status
  | _ => True

def allowed (event : Event η) (s : EpollSelector η) : Prop :=
  event.proper s.flags ∧ s.careful event

instance (s : EpollSelector η) : (event : Event η) → Decidable (s.careful event)
  | .update _ _ _ => isTrue trivial
  | .enable _ _ => by unfold careful; infer_instance
  | .disable _ _ => isTrue trivial
  | .finish _ => isTrue trivial
  | .startSelect => isTrue trivial
  | .finishSelect => isTrue trivial

instance (event : Event η) (s : EpollSelector η) : Decidable (allowed event s) :=
  inferInstanceAs (Decidable (event.proper s.flags ∧ s.careful event))

def entry (flags : Flags) (handler : η) : Option (EpollEvent η) :=
  flags.told.map fun status => ⟨status, handler⟩

variable {fd : η → Socket} {s : EpollSelector η} {handler : η} {flags : Flags}
  {operation : SocketOperation}

omit [DecidableEq η] in
theorem entry_none (nothing : flags.status = 0) : entry flags handler = none := by
  rw [entry, told_none nothing]
  rfl

omit [DecidableEq η] in
theorem entry_some (something : flags.status ≠ 0) :
    entry flags handler = some ⟨flags.status, handler⟩ := by
  rw [entry, told_some something]
  rfl

def Exact (fd : η → Socket) (s : EpollSelector η) : Prop :=
  ∀ handler, s.interest (fd handler) = entry (s.flags handler) handler

theorem epoll_events_eq (status : SocketOperation) : epollEvents status = status := by
  revert status
  decide

def Fits (control : Control) (before after : Flags) : Prop :=
  match control with
  | .add => before.status = 0 ∧ after.status ≠ 0
  | .modify => before.status ≠ 0 ∧ after.status ≠ 0
  | .delete => before.status ≠ 0 ∧ after.status = 0

variable {after : Flags}

omit [DecidableEq η] in
theorem epoll_ctl_fits {control : Control} {before : Flags} {socket : Socket}
    {interest : Socket → Option (EpollEvent η)} (fits : Fits control before after)
    (stored : interest socket = entry before handler) :
    epollCtl control socket ⟨epollEvents after.status, handler⟩ interest =
      Function.update interest socket (entry after handler) := by
  rw [epoll_events_eq]
  cases control with
  | add =>
      rw [entry_none fits.1] at stored
      simp only [epollCtl, stored, entry_some fits.2]
  | modify =>
      rw [entry_some fits.1] at stored
      simp only [epollCtl, stored, entry_some fits.2]
  | delete =>
      rw [entry_some fits.1] at stored
      simp only [epollCtl, stored, entry_none fits.2]

theorem Exact.control (exact : Exact fd s) (distinct : Function.Injective fd) {control : Control}
    (fits : Fits control (s.flags handler) after) :
    Exact fd ((s.setFlags handler after).control fd control handler after.status) := by
  intro other
  simp only [EpollSelector.control, setFlags]
  rw [epoll_ctl_fits fits (exact handler)]
  by_cases same : other = handler
  · rw [same, Function.update_self, Function.update_self]
  · rw [Function.update_of_ne same, Function.update_of_ne (distinct.ne same)]
    exact exact other

theorem Exact.keep (exact : Exact fd s) (same : after.status = (s.flags handler).status) :
    Exact fd (s.setFlags handler after) := by
  intro other
  simp only [setFlags]
  by_cases here : other = handler
  · rw [here, Function.update_self, entry, Flags.told, same]
    exact exact handler
  · rw [Function.update_of_ne here]
    exact exact other

theorem masked_status (registered disabled : SocketOperation) :
    (if disabled ≠ 0 then registered &&& ~~~disabled else registered) =
      registered &&& ~~~disabled := by
  revert registered disabled
  decide

theorem Exact.update (exact : Exact fd s) (distinct : Function.Injective fd)
    (remove add : SocketOperation) : Exact fd (s.update fd handler remove add) := by
  have status : (s.flags handler).registered &&& ~~~(s.flags handler).disabled =
      (s.flags handler).status := rfl
  have after : ((s.flags handler).register remove add).registered &&&
      ~~~(s.flags handler).disabled = ((s.flags handler).register remove add).status := rfl
  simp only [EpollSelector.update, masked_status]
  simp only [status, after]
  split
  · next same =>
      apply exact.keep
      rw [← after, ← same, status]
  · split
    · next fits => exact exact.control distinct fits
    · next noAdd =>
        split
        · next fits => exact exact.control distinct fits
        · next noDelete =>
            split
            · next same => exact exact.keep same.symm
            · next differ =>
                have fits : Fits .modify (s.flags handler)
                    ((s.flags handler).register remove add) := by
                  constructor
                  · intro nothing
                    by_cases something : ((s.flags handler).register remove add).status = 0
                    · exact differ (nothing.trans something.symm)
                    · exact noAdd ⟨nothing, something⟩
                  · intro nothing
                    by_cases something : (s.flags handler).status = 0
                    · exact differ (something.trans nothing.symm)
                    · exact noDelete ⟨something, nothing⟩
                exact exact.control distinct fits

theorem enable_modifies
    (previous : flags.registered &&& ~~~((flags.enable operation).disabled ||| operation) ≠ 0) :
    flags.status ≠ 0 ∧ (flags.enable operation).status ≠ 0 := by
  obtain ⟨registered, disabled⟩ := flags
  revert registered disabled operation
  decide

theorem enable_adds (inside : has flags.registered operation = true) (nothing : flags.status = 0) :
    (flags.enable operation).status ≠ 0 := by
  obtain ⟨registered, disabled⟩ := flags
  revert registered disabled operation
  decide

theorem enable_previous :
    (flags.enable operation).disabled ||| operation = flags.disabled ||| operation := by
  obtain ⟨registered, disabled⟩ := flags
  revert registered disabled operation
  decide

theorem disable_watched (enabled : has flags.disabled operation = false)
    (inside : has flags.registered operation = true) : flags.status ≠ 0 := by
  obtain ⟨registered, disabled⟩ := flags
  revert registered disabled operation
  decide

theorem Exact.enable (exact : Exact fd s) (distinct : Function.Injective fd)
    (careful : s.careful (.enable handler operation)) :
    Exact fd (s.enable fd handler operation) := by
  simp only [EpollSelector.enable]
  by_cases disabled : has (s.flags handler).disabled operation = true
  · rw [if_pos disabled]
    by_cases registered : has (s.flags handler).registered operation = true
    · rw [if_pos registered]
      by_cases previous : (s.flags handler).registered &&&
          ~~~(((s.flags handler).enable operation).disabled ||| operation) ≠ 0
      · rw [if_pos previous]
        exact exact.control distinct (enable_modifies previous)
      · rw [if_neg previous]
        by_cases nothing : (s.flags handler).status = 0
        · exact exact.control distinct ⟨nothing, enable_adds registered nothing⟩
        · -- The handler is watched already; the control fails, and what was asked for it stays.
          rw [enable_previous] at previous
          have same := ((careful disabled registered).resolve_left previous).resolve_left nothing
          have stored := exact handler
          rw [entry_some nothing] at stored
          have kept := exact.keep same
          simp only [EpollSelector.control, epollCtl, setFlags, stored] at kept ⊢
          exact kept
    · rw [if_neg registered]
      exact exact.keep (status_enable_unregistered (by simpa using registered))
  · rw [if_neg disabled]
    exact exact

theorem Exact.disable (exact : Exact fd s) (distinct : Function.Injective fd)
    (operation : SocketOperation) : Exact fd (s.disable fd handler operation) := by
  simp only [EpollSelector.disable]
  by_cases disabled : has (s.flags handler).disabled operation = true
  · rw [if_pos disabled]
    exact exact
  · rw [if_neg disabled]
    by_cases registered : has (s.flags handler).registered operation = true
    · rw [if_pos registered]
      have watched := disable_watched (by simpa using disabled) registered
      by_cases something : ((s.flags handler).disable operation).status ≠ 0
      · rw [if_pos something]
        exact exact.control distinct ⟨watched, something⟩
      · rw [if_neg something]
        exact exact.control distinct ⟨watched, not_not.mp something⟩
    · rw [if_neg registered]
      exact exact.keep (status_disable_unregistered (by simpa using registered))

theorem Exact.step (exact : Exact fd s) (distinct : Function.Injective fd) {event : Event η}
    {after : EpollSelector η} (careful : s.careful event)
    (stepped : EpollSelector.step fd event s = some after) : Exact fd after := by
  cases event with
  | update handler remove add =>
      cases stepped
      exact exact.update distinct remove add
  | enable handler operation =>
      cases stepped
      exact exact.enable distinct careful
  | disable handler operation =>
      cases stepped
      exact exact.disable distinct operation
  | finish handler =>
      cases stepped
      unfold EpollSelector.finish
      split
      · exact exact.update distinct _ _
      · exact exact
  | startSelect =>
      cases stepped
      exact exact
  | finishSelect =>
      cases stepped
      exact exact

omit [DecidableEq η] in
theorem start_exact : Exact fd (start : EpollSelector η) := by
  intro handler
  exact (entry_none status_none).symm

theorem asked_eq_told (distinct : Function.Injective fd)
    (reached : Reach (step fd) allowed start s) (handler : η) :
    s.asked fd handler = (s.flags handler).told := by
  have exact : Exact fd s :=
    reached.invariant start_exact fun _ _ _ exact admitted stepped =>
      exact.step distinct admitted.2 stepped
  rw [asked, exact handler, entry, Option.map_map]
  exact Option.map_id'

end EpollSelector

end IceTouch.Selecting

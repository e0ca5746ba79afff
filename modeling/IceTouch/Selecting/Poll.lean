import IceTouch.Selecting.Sets

/-!
# The sets of poll

An array of descriptors with their events, the interrupt pipe in front, and a map from the
descriptors to the handlers.
-/

namespace IceTouch.Selecting

structure PollFd where
  fd : Socket
  events : SocketOperation
deriving DecidableEq

structure PollSets (η : Type) where
  pollFdSet : List PollFd
  handlers : Socket → Option η

/-- `POLLIN` and `POLLOUT` for a set of operations. -/
def pollEvents (status : SocketOperation) : SocketOperation :=
  (if has status operationRead then operationRead else 0) |||
    if has status operationWrite then operationWrite else 0

def setEvents (socket : Socket) (events : SocketOperation) : List PollFd → List PollFd
  | [] => []
  | entry :: rest =>
      if entry.fd = socket then { entry with events } :: rest
      else entry :: setEvents socket events rest

def eraseFd (socket : Socket) : List PollFd → List PollFd
  | [] => []
  | entry :: rest => if entry.fd = socket then rest else entry :: eraseFd socket rest

def entriesOf (socket : Socket) (set : List PollFd) : List PollFd :=
  set.filter fun entry => entry.fd = socket

namespace PollSets

variable {η : Type}

def start (fdIntrRead : Socket) : PollSets η where
  pollFdSet := [⟨fdIntrRead, operationRead⟩]
  handlers := fun _ => none

def store (fd : η → Socket) (handler : η) (status : SocketOperation) (sets : PollSets η) :
    PollSets η :=
  if status ≠ 0 then
    match sets.handlers (fd handler) with
    | none =>
        { pollFdSet := sets.pollFdSet ++ [⟨fd handler, pollEvents status⟩]
          handlers := Function.update sets.handlers (fd handler) (some handler) }
    | some _ =>
        { sets with pollFdSet := setEvents (fd handler) (pollEvents status) sets.pollFdSet }
  else
    { pollFdSet := eraseFd (fd handler) sets.pollFdSet
      handlers := Function.update sets.handlers (fd handler) none }

structure Agrees (fd : η → Socket) (statuses : η → SocketOperation) (sets : PollSets η) :
    Prop where
  entries : ∀ handler, entriesOf (fd handler) sets.pollFdSet =
    if statuses handler = 0 then [] else [⟨fd handler, statuses handler⟩]
  handlers : ∀ handler, sets.handlers (fd handler) =
    if statuses handler = 0 then none else some handler

theorem poll_events_eq (status : SocketOperation) : pollEvents status = status := by
  revert status
  decide

variable {socket : Socket}

theorem entries_set_events {events : SocketOperation} {set : List PollFd} {entry : PollFd}
    (only : entriesOf socket set = [entry]) :
    entriesOf socket (setEvents socket events set) = [⟨socket, events⟩] := by
  induction set with
  | nil => cases only
  | cons first rest ih =>
      by_cases same : first.fd = socket
      · simp only [entriesOf, List.filter_cons, same, decide_true, if_true, List.cons.injEq]
          at only
        simp only [setEvents, entriesOf, List.filter_cons, same, decide_true, if_true, only.2]
      · simp only [entriesOf, List.filter_cons, same, decide_false, Bool.false_eq_true,
          if_false] at only
        simp only [setEvents, entriesOf, List.filter_cons, same, decide_false,
          Bool.false_eq_true, if_false]
        exact ih only

variable {other : Socket} {fd : η → Socket}

theorem entries_set_events_other (events : SocketOperation) (set : List PollFd)
    (differ : other ≠ socket) :
    entriesOf other (setEvents socket events set) = entriesOf other set := by
  induction set with
  | nil => rfl
  | cons first rest ih =>
      by_cases same : first.fd = socket
      · simp [setEvents, same, entriesOf, differ.symm]
      · simp only [setEvents, if_neg same, entriesOf, List.filter_cons] at ih ⊢
        rw [ih]

theorem entries_erase {set : List PollFd} {entries : List PollFd}
    (found : entriesOf socket set = entries) :
    entriesOf socket (eraseFd socket set) = entries.tail := by
  rw [← found]
  clear found
  induction set with
  | nil => rfl
  | cons first rest ih =>
      by_cases same : first.fd = socket
      · simp [eraseFd, same, entriesOf]
      · simp only [eraseFd, entriesOf, List.filter_cons, same, decide_false, Bool.false_eq_true,
          if_false] at ih ⊢
        exact ih

theorem entries_erase_other (set : List PollFd) (differ : other ≠ socket) :
    entriesOf other (eraseFd socket set) = entriesOf other set := by
  induction set with
  | nil => rfl
  | cons first rest ih =>
      by_cases same : first.fd = socket
      · simp [eraseFd, same, entriesOf, differ.symm]
      · simp only [eraseFd, if_neg same, entriesOf, List.filter_cons] at ih ⊢
        rw [ih]

theorem entries_append_other {entry : PollFd} (set : List PollFd) (differ : other ≠ entry.fd) :
    entriesOf other (set ++ [entry]) = entriesOf other set := by
  simp [entriesOf, List.filter_append, differ.symm]

variable [DecidableEq η]

theorem agrees_update (distinct : Function.Injective fd) {statuses : η → SocketOperation}
    {sets after : PollSets η} (agrees : Agrees fd statuses sets) {handler : η}
    {status : SocketOperation}
    (entries : entriesOf (fd handler) after.pollFdSet =
      if status = 0 then [] else [⟨fd handler, status⟩])
    (handlers : after.handlers = Function.update sets.handlers (fd handler)
      (if status = 0 then none else some handler))
    (elsewhere : ∀ other, other ≠ fd handler →
      entriesOf other after.pollFdSet = entriesOf other sets.pollFdSet) :
    Agrees fd (Function.update statuses handler status) after where
  entries other := by
    by_cases same : other = handler
    · rw [same, Function.update_self]
      exact entries
    · rw [Function.update_of_ne same, elsewhere _ (distinct.ne same)]
      exact agrees.entries other
  handlers other := by
    rw [handlers]
    by_cases same : other = handler
    · rw [same, Function.update_self, Function.update_self]
    · rw [Function.update_of_ne same, Function.update_of_ne (distinct.ne same)]
      exact agrees.handlers other

theorem stores (distinct : Function.Injective fd) :
    SetSelector.Stores (store fd) (fun _ => True) (Agrees fd) := by
  intro statuses sets handler status _ agrees
  have entries := agrees.entries handler
  have known := agrees.handlers handler
  unfold store
  by_cases something : status ≠ 0
  · rw [if_pos something]
    by_cases before : statuses handler = 0
    · rw [if_pos before] at entries known
      rw [known]
      apply agrees_update distinct agrees
      · change entriesOf _ (_ ++ _) = _
        rw [if_neg something, entriesOf, List.filter_append]
        rw [entriesOf] at entries
        rw [entries, poll_events_eq]
        simp
      · rw [if_neg something]
      · intro other differ
        exact entries_append_other _ differ
    · rw [if_neg before] at entries known
      rw [known]
      apply agrees_update distinct agrees
      · rw [if_neg something, entries_set_events entries, poll_events_eq]
      · change sets.handlers = _
        rw [if_neg something, ← known]
        exact (Function.update_eq_self (fd handler) sets.handlers).symm
      · intro other differ
        exact entries_set_events_other _ _ differ
  · rw [if_neg something]
    have nothing := not_not.mp something
    apply agrees_update distinct agrees
    · rw [if_pos nothing, entries_erase entries]
      split <;> rfl
    · rw [if_pos nothing]
    · intro other differ
      exact entries_erase_other _ differ

omit [DecidableEq η] in
theorem start_agrees {fdIntrRead : Socket} (apart : ∀ handler, fd handler ≠ fdIntrRead) :
    Agrees fd (fun _ => 0) (start fdIntrRead : PollSets η) where
  entries handler := by
    have other : ¬ fdIntrRead = fd handler := fun same => apart handler same.symm
    simp [start, entriesOf, other]
  handlers handler := rfl

end PollSets

end IceTouch.Selecting

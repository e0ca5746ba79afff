import IceTouch.Connection.Lifecycle

/-!
# What an operation leaves alone

The fields of a connection in groups, and for each function the connection with the fields
erased that it may write. Whatever does not depend on the erased fields is left as it is.
-/

namespace IceTouch.Connection

open Bytes

structure Ending where
  shutdownInitiated : Bool
  shutdowns : List (State × Int)

/-- The sending side. -/
structure Pipe where
  sendStreams : List OutgoingMessage
  writeStream : Buffer
  handed : List OutgoingMessage
  delivered : List Byte

structure Table where
  nextRequestId : Int
  requests : RequestMap
  asyncRequests : RequestMap
  calls : List CallRecord

structure Tally where
  dispatchCount : Int
  upcalls : List Upcall
  dispatches : List Dispatch
  reaped : List (State × Int)

/-- The receiving side. -/
structure Input where
  readStream : ReadState
  consumed : List Byte
  parsed : List (List Byte)

def ConnectionI.pipe (c : ConnectionI) : Pipe :=
  ⟨c.sendStreams, c.writeStream, c.handed, c.delivered⟩

def ConnectionI.table (c : ConnectionI) : Table :=
  ⟨c.nextRequestId, c.requests, c.asyncRequests, c.calls⟩

def ConnectionI.tally (c : ConnectionI) : Tally :=
  ⟨c.dispatchCount, c.upcalls, c.dispatches, c.reaped⟩

def ConnectionI.ending (c : ConnectionI) : Ending :=
  ⟨c.shutdownInitiated, c.shutdowns⟩

def ConnectionI.input (c : ConnectionI) : Input :=
  ⟨c.readStream, c.consumed, c.parsed⟩

def ConnectionI.quiet (c : ConnectionI) : ConnectionI :=
  { c with
    state := .notInitialized
    exception := none
    monitored := false
    states := []
    assertions := [] }

def ConnectionI.mute (c : ConnectionI) : ConnectionI :=
  { c with
    sendStreams := []
    writeStream := .empty
    handed := []
    delivered := []
    notices := [] }

/-- Without what the life of a connection writes, the flags of `start` included. -/
def ConnectionI.still (c : ConnectionI) : ConnectionI :=
  { c.quiet with
    validated := false
    started := false
    startWaiting := false
    startCallback := false }

def ConnectionI.bare (c : ConnectionI) : ConnectionI :=
  c.still.mute

variable {setup : Setup} {c d : ConnectionI}

theorem still_of_quiet (same : d.quiet = c.quiet) : d.still = c.still :=
  congrArg (fun e : ConnectionI =>
    { e with validated := false, started := false, startWaiting := false, startCallback := false })
    same

theorem bare_of_still (same : d.still = c.still) : d.bare = c.bare :=
  congrArg ConnectionI.mute same

theorem bare_of_quiet (same : d.quiet = c.quiet) : d.bare = c.bare :=
  bare_of_still (still_of_quiet same)

theorem bare_of_mute (same : d.mute = c.mute) : d.bare = c.bare :=
  congrArg ConnectionI.still same

theorem table_of_bare (same : d.bare = c.bare) : d.table = c.table := by
  have tables := congrArg ConnectionI.table same
  exact tables

theorem tally_of_bare (same : d.bare = c.bare) : d.tally = c.tally := by
  have tallies := congrArg ConnectionI.tally same
  exact tallies

theorem ending_of_bare (same : d.bare = c.bare) : d.ending = c.ending := by
  have endings := congrArg ConnectionI.ending same
  exact endings

theorem pipe_of_still (same : d.still = c.still) : d.pipe = c.pipe := by
  have pipes := congrArg ConnectionI.pipe same
  exact pipes

theorem record_exception_quiet (ex : LocalException) : (recordException ex c).quiet = c.quiet := by
  unfold recordException
  split <;> rfl

theorem shift_quiet (requested : State) : (shift setup requested c).quiet = c.quiet := by
  unfold shift
  split <;> rfl

theorem fail_quiet (ex : LocalException) : (fail setup ex c).quiet = c.quiet := by
  unfold fail
  split
  · rfl
  · rw [shift_quiet, record_exception_quiet]

theorem fail_closed (ex : LocalException) : .closed ≤ (fail setup ex c).state := by
  unfold fail
  split
  · next closed =>
      rw [closed]
      decide
  · have same : (recordException ex c).state = c.state := by
      unfold recordException
      split <;> rfl
    by_cases stay : c.state = .closed ∨ c.state = .finished
    · rw [shift, same, switch_closed, if_pos stay]
      change State.closed ≤ (recordException ex c).state
      rw [same]
      obtain closed | finished := stay
      · rw [closed]
        decide
      · rw [finished]
        decide
    · rw [shift, same, switch_closed, if_neg stay]
      exact Nat.le_refl _

theorem notify_sent_mute (message : OutgoingMessage) : (notifySent message c).mute = c.mute := by
  unfold notifySent
  split <;> rfl

theorem send_message_mute (outcome : WriteOutcome) (message : OutgoingMessage) :
    (sendMessage setup outcome message c).2.mute = c.mute := by
  unfold sendMessage
  dsimp only
  split
  · rfl
  · split
    · rfl
    · split
      · rfl
      · rw [notify_sent_mute]
        rfl
      · rfl

theorem send_next_loop_mute (rest : List OutgoingMessage) (current : OutgoingMessage)
    (writes : List WriteOutcome) (callbacks : List Call) :
    (sendNextLoop setup rest current writes callbacks c).connection.mute = c.mute := by
  induction rest generalizing current writes callbacks c with
  | nil =>
      unfold sendNextLoop
      dsimp only
      split <;> (rw [notify_sent_mute]; rfl)
  | cons message later ih =>
      have popped : (notifySent current { c with
          writeStream := current.stream, sendStreams := message :: later }).mute = c.mute := by
        rw [notify_sent_mute]
        rfl
      unfold sendNextLoop
      dsimp only
      split
      · exact popped
      · split
        · exact popped
        · split
          · exact popped
          · exact popped
          · rw [ih]
            exact popped

theorem set_state_shift (outcome : WriteOutcome) {requested : State}
    (other : requested ≠ .closing) : setState setup outcome requested c = shift setup requested c := by
  have notClosing : switch setup c.state requested ≠ .go .closing := by
    generalize c.state = current
    cases requested <;> cases current <;> simp_all [switch, aim]
  unfold setState
  dsimp only
  rw [if_neg (fun both => notClosing both.1)]

end IceTouch.Connection

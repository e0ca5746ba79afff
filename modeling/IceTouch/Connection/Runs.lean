import IceTouch.Connection.Messages
import IceTouch.Library.Machine

/-!
# Runs of a connection

One event for each method that another thread or the thread pool can call, in any order. An
event is impossible where the code waits or where nothing can make the call: a request is
answered once, an upcall is dispatched once, and `finish` follows the close.
-/

namespace IceTouch.Connection

open Bytes Machine

inductive Event where
  | start (callback : Bool) (initializing validating : Progress)
  | resumeStart
  | activate
  | hold
  | destroy (reason : DestructionReason) (outcome : WriteOutcome)
  | close (force : Bool) (outcome : WriteOutcome)
  | monitor (expired : Bool) (outcome : WriteOutcome)
  | timedOut
  | exception (ex : LocalException)
  | sendRequest (compress response : Bool) (os : RequestStream) (outcome : WriteOutcome)
  | sendAsyncRequest (notifies compress response : Bool) (os : RequestStream)
      (outcome : WriteOutcome)
  | prepareBatchRequest
  | finishBatchRequest (written : List Byte) (compress : Bool) (outcome : WriteOutcome)
  | abortBatchRequest
  | flushBatchRequests (outcome : WriteOutcome)
  | flushAsyncBatchRequests (notifies : Bool) (outcome : WriteOutcome)
  | message (ready : Ready)
  /-- A user Dispatcher throws before it runs the call. -/
  | dispatcherThrows (index : Nat)
  /-- `dispatch` makes the callbacks of an upcall. -/
  | callbacks (index : Nat)
  /-- `invokeAll` invokes the next request, or fails with an exception that is fatal. -/
  | invoke (index : Nat) (fatal : Option LocalException)
  | dispatchDone (index : Nat) (outcome : WriteOutcome)
  /-- The answer to a dispatched request: `sendResponse` or `sendNoResponse`. -/
  | answer (index : Nat) (body : List Byte) (outcome closing : WriteOutcome)
  | finish
deriving DecidableEq, Repr

def replaceUpcall (index : Nat) (upcall : Upcall) (c : ConnectionI) : ConnectionI :=
  { c with upcalls := c.upcalls.set index upcall }

def removeUpcall (index : Nat) (c : ConnectionI) : ConnectionI :=
  { c with upcalls := c.upcalls.eraseIdx index }

/-- `OutgoingAsync::__finished` for the reply that the upcall carries. -/
def Upcall.notices (upcall : Upcall) : List Notice :=
  match upcall.outAsync with
  | none => []
  | some (call, stream) => [.replied call.serial stream]

def makeCallbacks (index : Nat) (upcall : Upcall) (c : ConnectionI) : ConnectionI :=
  replaceUpcall index { upcall with called := true }
    { c with notices := c.notices ++ upcall.notices }

/-- One round of the loop of `invokeAll`. -/
def invoke (setup : Setup) (index : Nat) (upcall : Upcall) (fatal : Option LocalException)
    (c : ConnectionI) : ConnectionI :=
  match fatal with
  | some ex =>
      replaceUpcall index { upcall with invokeNum := 0 }
        (invokeException setup ex upcall.invokeNum c)
  | none =>
      replaceUpcall index { upcall with invokeNum := upcall.invokeNum - 1 }
        { c with dispatches := c.dispatches ++
          [⟨upcall.frame, upcall.requestId, upcall.compress⟩] }

/-- `bool response = !_endpoint->datagram() && requestId != 0`. -/
def Dispatch.response (setup : Setup) (dispatch : Dispatch) : Bool :=
  !setup.datagram && dispatch.requestId ≠ 0

def answer (setup : Setup) (index : Nat) (dispatch : Dispatch) (body : List Byte)
    (outcome closing : WriteOutcome) (c : ConnectionI) : ConnectionI :=
  let c := { c with dispatches := c.dispatches.eraseIdx index }
  if dispatch.response setup then
    sendResponse setup (replyStream dispatch.requestId body) dispatch.compress outcome closing c
  else
    sendNoResponse setup closing c

/-- The events that need no guard. -/
def guardAnd (condition : Prop) [Decidable condition] (c : ConnectionI) : Option ConnectionI :=
  if condition then some c else none

/-- The method that the event calls. The streams of requests and replies have been marshalled
within the message size limit, the limit also bounds the batch stream unless it is flushed
automatically, and a batched request is never empty: it has at least the identity, the
operation and the mode. -/
def perform (setup : Setup) (event : Event) (c : ConnectionI) : Option ConnectionI :=
  match event with
  | .start callback initializing validating =>
      guardAnd (c.started = false) (start setup callback initializing validating c)
  | .resumeStart =>
      guardAnd (c.startWaiting = true ∧ .notValidated < c.state) (resumeStart setup c)
  | .activate => some (activate setup c)
  | .hold => some (hold setup c)
  | .destroy reason outcome => some (destroy setup reason outcome c)
  | .close force outcome => close setup force outcome c
  | .monitor expired outcome => some (monitor setup expired outcome c)
  | .timedOut => some (timedOut setup c)
  | .exception ex => some (fail setup ex c)
  | .sendRequest compress response os outcome =>
      guardAnd (.notValidated < c.state) (sendRequest setup compress response os outcome c).2
  | .sendAsyncRequest notifies compress response os outcome =>
      guardAnd (.notValidated < c.state)
        (sendAsyncRequest setup notifies compress response os outcome c).2
  | .prepareBatchRequest =>
      if .notValidated < c.state then (prepareBatchRequest c).map Prod.snd else none
  | .finishBatchRequest written compress outcome =>
      guardAnd (c.batch.inUse = true ∧ written ≠ [] ∧
          (setup.batchAutoFlush = true ∨
            (c.batch.lent ++ written).length ≤ setup.messageSizeMax))
        (finishBatchRequest setup written compress outcome c).2
  | .abortBatchRequest => guardAnd (c.batch.inUse = true) (abortBatchRequest c)
  | .flushBatchRequests outcome =>
      if .notValidated < c.state then (flushBatch setup false false outcome c).map Prod.snd
      else none
  | .flushAsyncBatchRequests notifies outcome =>
      if .notValidated < c.state then (flushBatch setup true notifies outcome c).map Prod.snd
      else none
  | .message ready =>
      guardAnd (c.started = true ∧
          (ready.write = true → .notValidated < c.state → c.sendStreams ≠ []))
        (message setup ready c)
  | .dispatcherThrows index =>
      match c.upcalls[index]? with
      | none => none
      | some upcall =>
          guardAnd (setup.dispatcher = true ∧ upcall.called = false) (removeUpcall index c)
  | .callbacks index =>
      match c.upcalls[index]? with
      | none => none
      | some upcall => guardAnd (upcall.called = false) (makeCallbacks index upcall c)
  | .invoke index fatal =>
      match c.upcalls[index]? with
      | none => none
      | some upcall =>
          guardAnd (upcall.called = true ∧ 0 < upcall.invokeNum)
            (invoke setup index upcall fatal c)
  | .dispatchDone index outcome =>
      match c.upcalls[index]? with
      | none => none
      | some upcall =>
          guardAnd (upcall.called = true ∧ upcall.invokeNum ≤ 0)
            (dispatchDone setup outcome upcall (removeUpcall index c))
  | .answer index body outcome closing =>
      match c.dispatches[index]? with
      | none => none
      | some dispatch =>
          guardAnd ((replyStream dispatch.requestId body).length ≤ setup.messageSizeMax)
            (answer setup index dispatch body outcome closing c)
  | .finish => guardAnd (c.state = .closed) (finish setup c)

/-- What a transceiver, a servant or the application can raise: the exception for a close message
of the peer comes from `parseMessage` alone, and only a datagram transceiver raises
`DatagramLimitException`. -/
def LocalException.foreign (setup : Setup) (ex : LocalException) : Bool :=
  ex ≠ .closeConnection true && (setup.datagram || ex ≠ .datagramLimit)

def Progress.exceptions : Progress → List LocalException
  | .fails ex => [ex]
  | _ => []

def WriteOutcome.exceptions (outcome : WriteOutcome) : List LocalException :=
  outcome.failure.toList

def Ready.exceptions (ready : Ready) : List LocalException :=
  ready.initializing.exceptions ++ ready.validating.exceptions ++ ready.supply.failure.toList ++
    ready.writes.flatMap WriteOutcome.exceptions ++ ready.refusal.toList

def Event.exceptions : Event → List LocalException
  | .start _ initializing validating => initializing.exceptions ++ validating.exceptions
  | .destroy _ outcome => outcome.exceptions
  | .close _ outcome => outcome.exceptions
  | .monitor _ outcome => outcome.exceptions
  | .exception ex => [ex]
  | .sendRequest _ _ _ outcome => outcome.exceptions
  | .sendAsyncRequest _ _ _ _ outcome => outcome.exceptions
  | .finishBatchRequest _ _ outcome => outcome.exceptions
  | .flushBatchRequests outcome => outcome.exceptions
  | .flushAsyncBatchRequests _ outcome => outcome.exceptions
  | .message ready => ready.exceptions
  | .invoke _ fatal => fatal.toList
  | .dispatchDone _ outcome => outcome.exceptions
  | .answer _ _ outcome closing => outcome.exceptions ++ closing.exceptions
  | _ => []

def step (setup : Setup) (event : Event) (c : ConnectionI) : Option ConnectionI :=
  if ∀ ex ∈ event.exceptions, ex.foreign setup = true then perform setup event c else none

/-- The runs without any condition on their steps. -/
def anyStep (_ : Event) (_ : ConnectionI) : Prop := True

/-- The states that a connection can reach. -/
abbrev Reachable (setup : Setup) (c : ConnectionI) : Prop :=
  Reach (step setup) anyStep .initial c

end IceTouch.Connection

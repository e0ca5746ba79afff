import IceTouch.Connection.Wire
import IceTouch.Library.Machine

/-!
# The request handler of a proxy whose connection is being established

`ConnectRequestHandler`: requests are queued until the connection is there, then the queue is
flushed, and from then on requests go straight to the connection. A step is one critical
section of one thread, or one call on the connection. A thread that has to wait is noted with
what it waits for, and makes its call again once it has been notified.

The connection is what it answers to each call. Observers and the replacement of the proxy's
request handler are left out: the handler that replaces this one passes everything on.
-/

namespace IceTouch.Connecting

open Bytes Connection Machine

abbrev Thread := Nat

structure Config where
  batchAutoFlush : Bool
  messageSizeMax : Nat
deriving DecidableEq, Repr

/-- The entries of `_requests`, by which of `out`, `os` and `batchOut` is set. -/
inductive Request where
  | out (serial : Nat)
  | os (bytes : List Byte)
  | batchOut (serial : Nat)
deriving DecidableEq, Repr

/-- What a call on the connection returns or throws; a batch request is taken over `queued`. -/
inductive Answer where
  | sent (invokeCallback : Bool)
  | queued
  /-- A `LocalExceptionWrapper`. -/
  | refused (ex : LocalException)
  | thrown (ex : LocalException)
deriving DecidableEq, Repr

def Answer.accepts : Answer → Bool
  | .sent _ => true
  | .queued => true
  | .refused _ => false
  | .thrown _ => false

/-- `finishBatchRequest` returns nothing, and `flushAsyncBatchRequests` throws the exception of
the connection as it is. -/
def Answer.fits (answer : Answer) : Request → Prop
  | .os _ => ∀ invokeCallback, answer ≠ .sent invokeCallback
  | .batchOut _ => ∀ ex, answer ≠ .refused ex
  | .out _ => True

instance (answer : Answer) (request : Request) : Decidable (answer.fits request) :=
  match answer, request with
  | .sent invokeCallback, .os _ => isFalse fun fits => fits invokeCallback rfl
  | .refused ex, .batchOut _ => isFalse fun fits => fits ex rfl
  | .queued, .os _ | .refused _, .os _ | .thrown _, .os _ => isTrue fun _ same => nomatch same
  | .sent _, .batchOut _ | .queued, .batchOut _ | .thrown _, .batchOut _ =>
      isTrue fun _ same => nomatch same
  | _, .out _ => isTrue trivial

def batches (requests : List Request) : List (List Byte) :=
  requests.filterMap fun request =>
    match request with
    | .os bytes => some bytes
    | _ => none

def queuedSize (requests : List Request) : Nat :=
  ((batches requests).map List.length).sum

inductive Told where
  | accepted (invokeCallback : Bool)
  /-- `wrapped` when the exception came in a `LocalExceptionWrapper`. -/
  | failed (ex : LocalException) (wrapped : Bool)
deriving DecidableEq, Repr

/-- What a caller learns that makes the call on the connection itself. -/
def Answer.told : Answer → Told
  | .sent invokeCallback => .accepted invokeCallback
  | .queued => .accepted false
  | .refused ex => .failed ex true
  | .thrown ex => .failed ex false

inductive Awaited where
  /-- `_batchRequestInProgress` to become false. -/
  | batch
  /-- `_flushing` to become false, or `_exception` to be set. -/
  | flush
deriving DecidableEq, Repr

/-- Items executed by the client thread pool. -/
inductive WorkItem where
  | flushRequestsWithException (ex : LocalException) (wrapped : Bool)
  | flushSentRequests (callbacks : List Request)
deriving DecidableEq, Repr

inductive Progress where
  | connecting
  | connected
  | sending
  | done
deriving DecidableEq, Repr

structure ConnectRequestHandler where
  initialized : Bool
  flushing : Bool
  exception : Option LocalException
  batchRequestInProgress : Bool
  batchRequestsSize : Nat
  batchStream : List Byte
  requests : List Request
  /-- `sentCallbacks` of `flushRequests`. -/
  sentCallbacks : List Request
deriving DecidableEq, Repr

/-- The batch stream in the hands of a thread, with what the handler had queued when it was
lent. -/
structure Lease where
  thread : Thread
  stream : List Byte
  batches : List (List Byte)
  size : Nat
deriving DecidableEq, Repr

/-- The handler, its surroundings, and what has happened so far. -/
structure State where
  handler : ConnectRequestHandler
  progress : Progress
  work : List WorkItem
  waiting : List (Thread × Awaited)
  /-- The threads that have the batch stream. -/
  holders : List Lease
  /-- The requests that were taken, in the order given. -/
  given : List Request
  /-- The calls on the connection. -/
  passed : List (Request × Answer)
  told : List (Request × Told)
deriving DecidableEq, Repr

inductive Event where
  | prepareBatchRequest (thread : Thread)
  /-- `bytes` is what the caller has written behind what was in the stream. -/
  | finishBatchRequest (thread : Thread) (bytes : List Byte)
  | abortBatchRequest (thread : Thread)
  /-- The connection is asked, and answers, only when it has been established. -/
  | sendAsyncRequest (thread : Thread) (serial : Nat) (answer : Answer)
  | flushAsyncBatchRequests (thread : Thread) (serial : Nat) (answer : Answer)
  /-- A batch request that is prepared and finished once the connection is established. -/
  | directBatchRequest (thread : Thread) (bytes : List Byte) (answer : Answer)
  | setConnection
  | setException (ex : LocalException)
  /-- The start of `flushRequests`. -/
  | flushRequests (thread : Thread)
  /-- One round of its loop. -/
  | flushFront (answer : Answer)
  /-- What follows the loop. -/
  | flushEnd
  | execute (item : Nat)
deriving DecidableEq, Repr

def ConnectRequestHandler.initial : ConnectRequestHandler where
  initialized := false
  flushing := false
  exception := none
  batchRequestInProgress := false
  batchRequestsSize := requestBatchHdr.length
  batchStream := []
  requests := []
  sentCallbacks := []

def start : State where
  handler := .initial
  progress := .connecting
  work := []
  waiting := []
  holders := []
  given := []
  passed := []
  told := []

/-- How `initialized()` ends. -/
inductive Initialized where
  | yes
  | no
  | waits
  | throws (ex : LocalException)
deriving DecidableEq, Repr

def ConnectRequestHandler.isInitialized (handler : ConnectRequestHandler) : Initialized :=
  if handler.initialized then .yes
  else
    match handler.exception with
    | some ex => .throws ex
    | none => if handler.flushing then .waits else .no

def State.wait (thread : Thread) (awaited : Awaited) (state : State) : State :=
  { state with waiting := state.waiting ++ [(thread, awaited)] }

def State.notifyAll (state : State) : State := { state with waiting := [] }

def State.waits (thread : Thread) (state : State) : Bool :=
  state.waiting.any fun entry => entry.1 = thread

def State.queue (request : Request) (state : State) : State :=
  { state with handler.requests := state.handler.requests ++ [request] }

def State.tell (request : Request) (told : Told) (state : State) : State :=
  { state with told := state.told ++ [(request, told)] }

def State.give (request : Request) (state : State) : State :=
  { state with given := state.given ++ [request] }

def State.pass (request : Request) (answer : Answer) (state : State) : State :=
  { state with passed := state.passed ++ [(request, answer)] }

def prepareBatchRequest (thread : Thread) (state : State) : State :=
  if state.handler.batchRequestInProgress then state.wait thread .batch
  else
    match state.handler.isInitialized with
    | .waits => state.wait thread .flush
    | .throws _ => state
    | .yes => state
    | .no =>
        -- The stream of the caller is empty, and is what the swap leaves behind.
        { state with
          handler.batchRequestInProgress := true
          handler.batchStream := []
          holders := state.holders ++ [{
            thread := thread
            stream := state.handler.batchStream
            batches := batches state.handler.requests
            size := state.handler.batchRequestsSize }] }

def State.lease (thread : Thread) (state : State) : Option Lease :=
  state.holders.find? fun lease => lease.thread = thread

def State.returnStream (lease : Lease) (state : State) : State :=
  { state with holders := state.holders.erase lease }

def ConnectRequestHandler.exceeds (config : Config) (size : Nat)
    (handler : ConnectRequestHandler) : Bool :=
  !config.batchAutoFlush && decide (config.messageSizeMax < size + handler.batchRequestsSize)

def finishBatchRequest (config : Config) (lease : Lease) (bytes : List Byte) (state : State) :
    State :=
  match state.handler.isInitialized with
  | .waits => state.wait lease.thread .flush
  | .throws _ => state.returnStream lease
  | .yes => state.returnStream lease
  | .no =>
      let stream := lease.stream ++ bytes
      let state := { state.returnStream lease with
        handler.batchRequestInProgress := false }.notifyAll
      if state.handler.exceeds config stream.length then
        { state with handler.batchStream := stream }
      else
        let state := { state with
          handler.batchRequestsSize := state.handler.batchRequestsSize + stream.length
          handler.batchStream := [] }
        ((state.queue (.os stream)).give (.os bytes)).tell (.os bytes) (.accepted false)

def abortBatchRequest (lease : Lease) (state : State) : State :=
  match state.handler.isInitialized with
  | .waits => state.wait lease.thread .flush
  | .throws _ => state.returnStream lease
  | .yes => state.returnStream lease
  | .no =>
      { state.returnStream lease with
        handler.batchRequestInProgress := false
        handler.batchStream := []
        handler.batchRequestsSize := requestBatchHdr.length }.notifyAll

/-- `sendAsyncRequest` and `flushAsyncBatchRequests`. -/
def sendOrQueue (thread : Thread) (request : Request) (answer : Answer) (state : State) : State :=
  match state.handler.isInitialized with
  | .waits => state.wait thread .flush
  | .throws ex => state.tell request (.failed ex false)
  | .no => (state.queue request).give request
  | .yes => ((state.pass request answer).give request).tell request answer.told

def sendAsyncRequest (thread : Thread) (serial : Nat) (answer : Answer) : State → State :=
  sendOrQueue thread (.out serial) answer

def flushAsyncBatchRequests (thread : Thread) (serial : Nat) (answer : Answer) : State → State :=
  sendOrQueue thread (.batchOut serial) answer

def flushRequests (thread : Thread) (state : State) : State :=
  if state.handler.batchRequestInProgress then state.wait thread .batch
  else { state with handler.flushing := true, progress := .sending }

/-- The handlers of the `catch` clauses: the request stays at the front of the queue. -/
def State.failFlush (ex : LocalException) (wrapped : Bool) (state : State) : State :=
  { state with
    handler.exception := some ex
    work := state.work ++ [.flushRequestsWithException ex wrapped] }

def State.popFront (rest : List Request) (state : State) : State :=
  { state with handler.requests := rest }

def flushFront (front : Request) (rest : List Request) (answer : Answer) (state : State) : State :=
  let state := state.pass front answer
  match answer with
  | .refused ex => state.failFlush ex true
  | .thrown ex => state.failFlush ex false
  | .sent invokeCallback =>
      if invokeCallback then
        { state with handler.sentCallbacks := state.handler.sentCallbacks ++ [front] }.popFront rest
      else (state.tell front (.accepted false)).popFront rest
  | .queued =>
      match front with
      | .os _ => state.popFront rest
      | _ => (state.tell front (.accepted false)).popFront rest

def flushEnd (state : State) : State :=
  let state :=
    if state.handler.sentCallbacks = [] then state
    else { state with
      work := state.work ++ [.flushSentRequests state.handler.sentCallbacks]
      handler.sentCallbacks := [] }
  let state :=
    if state.handler.exception = none then
      { state with handler.initialized := true, handler.flushing := false }
    else state
  { state with progress := .done }.notifyAll

/-- The loops of both `flushRequestsWithException`: a queued batch request has nobody to be told,
and a flush gets what is in the wrapper. -/
def failures (ex : LocalException) (wrapped : Bool) (requests : List Request) :
    List (Request × Told) :=
  requests.filterMap fun request =>
    match request with
    | .out serial => some (.out serial, .failed ex wrapped)
    | .batchOut serial => some (.batchOut serial, .failed ex false)
    | .os _ => none

def WorkItem.run (item : WorkItem) (state : State) : State :=
  match item with
  | .flushRequestsWithException ex wrapped =>
      { state with
        told := state.told ++ failures ex wrapped state.handler.requests
        handler.requests := [] }
  | .flushSentRequests callbacks =>
      { state with told := state.told ++ callbacks.map fun request => (request, .accepted true) }

def step (config : Config) : Event → State → Option State
  | .prepareBatchRequest thread, state =>
      if state.waits thread then none else some (prepareBatchRequest thread state)
  | .finishBatchRequest thread bytes, state =>
      if state.waits thread then none
      else (state.lease thread).map fun lease => finishBatchRequest config lease bytes state
  | .abortBatchRequest thread, state =>
      if state.waits thread then none
      else (state.lease thread).map fun lease => abortBatchRequest lease state
  | .sendAsyncRequest thread serial answer, state =>
      if state.waits thread then none else some (sendAsyncRequest thread serial answer state)
  | .flushAsyncBatchRequests thread serial answer, state =>
      if state.waits thread ∨ ¬ answer.fits (.batchOut serial) then none
      else some (flushAsyncBatchRequests thread serial answer state)
  | .directBatchRequest thread bytes answer, state =>
      if state.waits thread ∨ state.handler.isInitialized ≠ .yes ∨ ¬ answer.fits (.os bytes) then
        none
      else some (((state.pass (.os bytes) answer).give (.os bytes)).tell (.os bytes) answer.told)
  | .setConnection, state =>
      if state.progress = .connecting ∧ state.handler.exception = none then
        some { state with progress := .connected }
      else none
  | .setException ex, state =>
      if (state.progress = .connecting ∨ state.progress = .connected) ∧
          state.handler.exception = none then
        let state := { state with handler.exception := some ex }
        let state := if state.handler.requests = [] then state else
          { state with work := state.work ++ [.flushRequestsWithException ex false] }
        some state.notifyAll
      else none
  | .flushRequests thread, state =>
      if state.progress = .connected ∧ state.handler.exception = none ∧
          ¬ state.waits thread then
        some (flushRequests thread state)
      else none
  | .flushFront answer, state =>
      match state.handler.requests with
      | [] => none
      | front :: rest =>
          if state.progress = .sending ∧ state.handler.exception = none ∧ answer.fits front then
            some (flushFront front rest answer state)
          else none
  | .flushEnd, state =>
      if state.progress = .sending ∧
          (state.handler.requests = [] ∨ state.handler.exception ≠ none) then
        some (flushEnd state)
      else none
  | .execute item, state => do
      let workItem ← state.work[item]?
      some (workItem.run { state with work := state.work.eraseIdx item })

end IceTouch.Connecting

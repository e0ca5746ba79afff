import IceTouch.Connection.Sending

/-!
# The operations of a connection

Every function is the body of one method of `ConnectionI` that runs with the mutex locked; a
method that throws returns the exception with the connection as it left it.
-/

namespace IceTouch.Connection

open Bytes

inductive Switch where
  | stay
  | assertion
  | go (target : State)
deriving DecidableEq, Repr

/-- The state that `setState` really aims at: a datagram connection and one that is not
validated skip the graceful shutdown. -/
def aim (setup : Setup) (current requested : State) : State :=
  if requested = .closing ∧ (setup.datagram ∨ current ≤ .notValidated) then .closed
  else requested

/-- The checks of `setState(State)`. -/
def switch (setup : Setup) (current requested : State) : Switch :=
  if current = aim setup current requested then
    .stay
  else
    match aim setup current requested with
    | .notInitialized => .assertion
    | .notValidated =>
        if current = .notInitialized then .go .notValidated
        else if current = .closed then .stay
        else .assertion
    | .active =>
        if current = .holding ∨ current = .notValidated then .go .active else .stay
    | .holding =>
        if current = .active ∨ current = .notValidated then .go .holding else .stay
    | .closing => if .closed ≤ current then .stay else .go .closing
    | .closed => if current = .finished then .stay else .go .closed
    | .finished => if current = .closed then .go .finished else .assertion

def enter (setup : Setup) (target : State) (c : ConnectionI) : ConnectionI :=
  { c with
    state := target
    states := c.states ++ [target]
    monitored :=
      if 0 < setup.acmTimeout then
        if target = .active then true
        else if c.state = .active then false
        else c.monitored
      else c.monitored }

/-- `setState(State)` without the shutdown that follows a switch to closing. -/
def shift (setup : Setup) (requested : State) (c : ConnectionI) : ConnectionI :=
  match switch setup c.state requested with
  | .stay => c
  | .assertion => { c with assertions := c.assertions ++ [.setState] }
  | .go target => enter setup target c

def recordException (ex : LocalException) (c : ConnectionI) : ConnectionI :=
  match c.exception with
  | some _ => c
  | none =>
      { c with
        exception := some ex
        assertions :=
          if c.state = .closed then c.assertions ++ [.setState] else c.assertions }

/-- `setState(StateClosed, ex)`. -/
def fail (setup : Setup) (ex : LocalException) (c : ConnectionI) : ConnectionI :=
  if c.state = .closed then c else shift setup .closed (recordException ex c)

def closeMessage : OutgoingMessage where
  stream := ⟨closeConnectionHdr, none⟩
  call := none
  compress := false
  requestId := 0
  adopted := false
  isSent := false
  original := []

def initiateShutdown (setup : Setup) (site : Assertion) (outcome : WriteOutcome)
    (c : ConnectionI) : SendStatus × ConnectionI :=
  let holds := c.state = .closing ∧ c.dispatchCount = 0 ∧ c.shutdownInitiated = false
  let c := { c with
    assertions := if holds then c.assertions else c.assertions ++ [site]
    shutdownInitiated := true
    shutdowns := c.shutdowns ++ [(c.state, c.dispatchCount)] }
  if setup.datagram then
    (.sent false, c)
  else
    sendMessage setup outcome closeMessage c

/-- `try { initiateShutdown(); } catch(const LocalException& ex) { setState(StateClosed, ex); }` -/
def shutdown (setup : Setup) (site : Assertion) (outcome : WriteOutcome) (c : ConnectionI) :
    ConnectionI :=
  match initiateShutdown setup site outcome c with
  | (.failed ex _, c) => fail setup ex c
  | (_, c) => c

/-- `setState(State)`. -/
def setState (setup : Setup) (outcome : WriteOutcome) (requested : State) (c : ConnectionI) :
    ConnectionI :=
  let shifted := shift setup requested c
  if switch setup c.state requested = .go .closing ∧ shifted.dispatchCount = 0 then
    shutdown setup .setState outcome shifted
  else
    shifted

/-- `setState(State, const LocalException&)`. -/
def setStateWith (setup : Setup) (outcome : WriteOutcome) (requested : State)
    (ex : LocalException) (c : ConnectionI) : ConnectionI :=
  let c :=
    if .closing ≤ requested then c else { c with assertions := c.assertions ++ [.setState] }
  if c.state = requested then c else setState setup outcome requested (recordException ex c)

inductive Progress where
  | done
  | pending
  | fails (ex : LocalException)
deriving DecidableEq, Repr

/-- No call on the transceiver is made. -/
def noWrite : WriteOutcome := ⟨0, none⟩

def initializeTransceiver (setup : Setup) (progress : Progress) (c : ConnectionI) :
    Except LocalException Bool × ConnectionI :=
  match progress with
  | .fails ex => (.error ex, c)
  | .pending => (.ok false, c)
  | .done => (.ok true, setState setup noWrite .notValidated c)

/-- Datagram connections are always implicitly validated. The bytes of the validation message
are not modelled: the streams are as they were before it. -/
def validate (setup : Setup) (progress : Progress) (c : ConnectionI) :
    Except LocalException Bool × ConnectionI :=
  let validated := { c with readStream := ⟨[], headerSize, true⟩ }
  if setup.datagram then
    (.ok true, validated)
  else
    match progress with
    | .fails ex => (.error ex, c)
    | .pending => (.ok false, c)
    | .done => (.ok true, { validated with validated := true })

/-- `initialize() && validate()`. -/
def establish (setup : Setup) (initializing validating : Progress) (c : ConnectionI) :
    Except LocalException Bool × ConnectionI :=
  match initializeTransceiver setup initializing c with
  | (.ok true, c) => validate setup validating c
  | result => result

/-- `start`: without a callback the calling thread waits for the validation. -/
def start (setup : Setup) (callback : Bool) (initializing validating : Progress)
    (c : ConnectionI) : ConnectionI :=
  let c := { c with started := true }
  if .closed ≤ c.state then
    match c.exception with
    | some ex => fail setup ex c
    | none => c
  else
    match establish setup initializing validating c with
    | (.error ex, c) => fail setup ex c
    | (.ok true, c) => setState setup noWrite .holding c
    | (.ok false, c) =>
        if callback then { c with startCallback := true } else { c with startWaiting := true }

/-- The thread that waits in `start` goes on, once the connection is validated. -/
def resumeStart (setup : Setup) (c : ConnectionI) : ConnectionI :=
  let c := { c with startWaiting := false }
  if .closing ≤ c.state then
    match c.exception with
    | some ex => fail setup ex c
    | none => c
  else
    setState setup noWrite .holding c

def activate (setup : Setup) (c : ConnectionI) : ConnectionI :=
  if c.state ≤ .notValidated then c else setState setup noWrite .active c

def hold (setup : Setup) (c : ConnectionI) : ConnectionI :=
  if c.state ≤ .notValidated then c else setState setup noWrite .holding c

inductive DestructionReason where
  | objectAdapterDeactivated
  | communicatorDestroyed
deriving DecidableEq, Repr

def destroy (setup : Setup) (reason : DestructionReason) (outcome : WriteOutcome)
    (c : ConnectionI) : ConnectionI :=
  match reason with
  | .objectAdapterDeactivated =>
      setStateWith setup outcome .closing .objectAdapterDeactivated c
  | .communicatorDestroyed =>
      setStateWith setup outcome .closing .communicatorDestroyed c

/-- `close`: a graceful close waits until there are no outstanding requests. -/
def close (setup : Setup) (force : Bool) (outcome : WriteOutcome) (c : ConnectionI) :
    Option ConnectionI :=
  if force then
    some (fail setup .forcedCloseConnection c)
  else if c.requests.entries ≠ [] ∨ c.asyncRequests.entries ≠ [] then
    none
  else
    some (setStateWith setup outcome .closing (.closeConnection false) c)

/-- `monitor`; the clock decides whether the idle time has expired. -/
def monitor (setup : Setup) (expired : Bool) (outcome : WriteOutcome) (c : ConnectionI) :
    ConnectionI :=
  if c.state ≠ .active then
    c
  else if setup.acmTimeout ≤ 0 ∨ c.requests.entries ≠ [] ∨ c.asyncRequests.entries ≠ [] ∨
      0 < c.dispatchCount ∨ headerSize < c.readStream.size ∨ c.writeStream.b ≠ [] ∨
      c.batch.stream ≠ [] then
    c
  else if expired then
    setStateWith setup outcome .closing .connectionTimeout c
  else
    c

def timedOut (setup : Setup) (c : ConnectionI) : ConnectionI :=
  if c.state ≤ .notValidated then fail setup .connectTimeout c
  else if c.state < .closing then fail setup .timeout c
  else if c.state = .closing then fail setup .closeTimeout c
  else c

/-- `_transceiver->checkSendSize`. -/
def checkSendSize (setup : Setup) (size : Nat) : Except LocalException Unit :=
  if setup.messageSizeMax < size then .error .memoryLimit
  else if setup.datagram ∧ setup.packetSize < size then .error .datagramLimit
  else .ok ()

/-- The request id that is taken from `_nextRequestId`. -/
def takenId (next : Int) : Int :=
  if next ≤ 0 then 1 else next

/-- `_nextRequestId` afterwards. -/
def followingId (next : Int) : Int :=
  if next ≤ 0 then 2 else wrap (next + 1)

inductive CallResult where
  | sent (invokeCallback : Bool)
  | queued
  /-- `LocalExceptionWrapper(*_exception.get(), true)`. -/
  | refused (ex : LocalException)
  /-- A plain exception; the bytes are those left in the stream of the call. -/
  | thrown (ex : LocalException) (os : List Byte)
deriving DecidableEq, Repr

def callMessage (async notifies compress : Bool) (requestId : Int) (os : List Byte)
    (c : ConnectionI) : OutgoingMessage where
  stream := ⟨os, none⟩
  call := some ⟨c.calls.length, async, notifies⟩
  compress := compress
  requestId := requestId
  adopted := false
  isSent := false
  original := []

/-- The `try` block around `sendMessage` in the four functions that send for a call. -/
def sendForCall (setup : Setup) (outcome : WriteOutcome) (message : OutgoingMessage)
    (response : Bool) (c : ConnectionI) : CallResult × ConnectionI :=
  match sendMessage setup outcome message c with
  | (.failed ex os, c) =>
      let c := fail setup ex { c with calls := c.calls ++ [⟨message.requestId, response, false⟩] }
      (.thrown (c.exception.getD ex) os, c)
  | (.sent callback, c) =>
      (.sent callback, { c with calls := c.calls ++ [⟨message.requestId, response, true⟩] })
  | (.queued, c) =>
      (.queued, { c with calls := c.calls ++ [⟨message.requestId, response, true⟩] })

/-- `hint = map.insert(map.end(), entry)`: the hint stands at the key also when an entry with
that key was there before. -/
def RequestMap.insert (requestId : Int) (call : Call) (map : RequestMap) : RequestMap :=
  ⟨OrderedMap.insert requestId call map.entries, some requestId⟩

def register (requestId : Int) (call : Call) (c : ConnectionI) : ConnectionI :=
  if call.async then
    { c with asyncRequests := c.asyncRequests.insert requestId call }
  else
    { c with requests := c.requests.insert requestId call }

/-- `sendRequest` and `sendAsyncRequest`, which differ in the map that takes the call. -/
def sendCall (setup : Setup) (async notifies compress response : Bool) (os : RequestStream)
    (outcome : WriteOutcome) (c : ConnectionI) : CallResult × ConnectionI :=
  match c.exception with
  | some ex => (.refused ex, c)
  | none =>
      match checkSendSize setup os.bytes.length with
      | .error ex => (.thrown ex os.bytes, c)
      | .ok () =>
          if response then
            let requestId := takenId c.nextRequestId
            let filled := putInt os.bytes headerSize requestId
            let c := { c with nextRequestId := followingId c.nextRequestId }
            let message := callMessage async notifies compress requestId filled c
            match sendForCall setup outcome message true c with
            | (.thrown ex os, c) => (.thrown ex os, c)
            | (result, sent) =>
                (result, register requestId ⟨c.calls.length, async, notifies⟩ sent)
          else
            sendForCall setup outcome
              (callMessage async notifies compress 0 os.bytes c) false c

def sendRequest (setup : Setup) (compress response : Bool) (os : RequestStream)
    (outcome : WriteOutcome) (c : ConnectionI) : CallResult × ConnectionI :=
  sendCall setup false false compress response os outcome c

def sendAsyncRequest (setup : Setup) (notifies compress response : Bool) (os : RequestStream)
    (outcome : WriteOutcome) (c : ConnectionI) : CallResult × ConnectionI :=
  sendCall setup true notifies compress response os outcome c

def Batch.reset (inUse : Bool) : Batch := ⟨[], [], inUse, 0, false, 0⟩

/-- `prepareBatchRequest`: it waits while the stream is in use. The result tells the caller
which exception it gets, if any, and whether that is retryable. -/
def prepareBatchRequest (c : ConnectionI) :
    Option (Except (LocalException × Bool) Unit × ConnectionI) :=
  if c.batch.inUse ∧ c.exception = none then
    none
  else
    match c.exception with
    | some ex => some (.error (ex, c.batch.stream.isEmpty), c)
    | none =>
        let stream := if c.batch.stream = [] then requestBatchHdr else c.batch.stream
        some (.ok (), { c with batch :=
          { c.batch with inUse := true, marker := stream.length, lent := stream, stream := [] } })

def abortBatchRequest (c : ConnectionI) : ConnectionI :=
  { c with batch := Batch.reset false }

def batchMessage (call : Option Call) (batch : Batch) : OutgoingMessage where
  stream := ⟨putInt batch.stream headerSize batch.requestNum, none⟩
  call := call
  compress := batch.compress
  requestId := 0
  adopted := false
  isSent := false
  original := []

/-- The flush in `finishBatchRequest`: the batch without its last request is sent and the
last request starts a new batch. -/
def autoFlush (setup : Setup) (outcome : WriteOutcome) (c : ConnectionI) :
    Except LocalException Unit × ConnectionI :=
  let lastRequest := c.batch.stream.drop c.batch.marker
  let front := { c.batch with stream := c.batch.stream.take c.batch.marker }
  match sendMessage setup outcome (batchMessage none front) { c with batch := front } with
  | (.failed ex _, c) =>
      let c := fail setup ex c
      (.error (c.exception.getD ex), c)
  | (_, c) =>
      let c := { c with batch := Batch.reset c.batch.inUse }
      if setup.messageSizeMax < requestBatchHdr.length + lastRequest.length then
        (.error .memoryLimit, c)
      else
        (.ok (), { c with batch := { c.batch with stream := requestBatchHdr ++ lastRequest } })

/-- The end of `finishBatchRequest`. -/
def countBatchRequest (written : List Byte) (compress : Bool) (c : ConnectionI) : ConnectionI :=
  { c with
    batched := c.batched ++ [written]
    batch := { c.batch with
      requestNum := wrap (c.batch.requestNum + 1)
      compress := compress || c.batch.compress
      inUse := false } }

/-- `finishBatchRequest`; `written` is what the caller wrote to the stream. -/
def finishBatchRequest (setup : Setup) (written : List Byte) (compress : Bool)
    (outcome : WriteOutcome) (c : ConnectionI) : Except LocalException Unit × ConnectionI :=
  let c := { c with batch := { c.batch with stream := c.batch.lent ++ written, lent := [] } }
  match c.exception with
  | some ex => (.error ex, abortBatchRequest c)
  | none =>
      let check := if setup.batchAutoFlush then checkSendSize setup c.batch.stream.length else .ok ()
      match check with
      | .ok () => (.ok (), countBatchRequest written compress c)
      | .error ex =>
          if 0 < c.batch.requestNum then
            match autoFlush setup outcome c with
            | (.error ex, c) => (.error ex, abortBatchRequest c)
            | (.ok (), c) => (.ok (), countBatchRequest written compress c)
          else
            (.error ex, abortBatchRequest c)

/-- `flushBatchRequests` and `flushAsyncBatchRequests`; they wait while the stream is in
use. -/
def flushBatch (setup : Setup) (async notifies : Bool) (outcome : WriteOutcome)
    (c : ConnectionI) : Option (CallResult × ConnectionI) :=
  if c.batch.inUse ∧ c.exception = none then
    none
  else
    match c.exception with
    | some ex => some (.thrown ex [], c)
    | none =>
        let call : Call := ⟨c.calls.length, async, notifies⟩
        if c.batch.requestNum = 0 then
          some (.sent (async && notifies), { c with
            calls := c.calls ++ [⟨0, false, true⟩]
            notices := c.notices ++ [.sent call.serial] })
        else
          let message := batchMessage (some call) c.batch
          -- The stream is swapped into the call before it is sent.
          match sendForCall setup outcome message false { c with
              batch := { c.batch with stream := [] } } with
          | (.thrown ex os, c) => some (.thrown ex os, c)
          | (result, c) => some (result, { c with batch := Batch.reset c.batch.inUse })

/-- The dispatch count reaches zero. -/
def reapWhenIdle (c : ConnectionI) : ConnectionI :=
  if c.dispatchCount = 0 ∧ c.state = .finished then
    { c with reaped := c.reaped ++ [(c.state, c.dispatchCount)] }
  else
    c

/-- A message of the connection itself. -/
def ownMessage (os : List Byte) (compress : Bool) : OutgoingMessage where
  stream := ⟨os, none⟩
  call := none
  compress := compress
  requestId := 0
  adopted := false
  isSent := false
  original := []

/-- The shutdown at the end of `sendResponse` and `sendNoResponse`. -/
def shutdownWhenIdle (setup : Setup) (outcome : WriteOutcome) (c : ConnectionI) : ConnectionI :=
  if c.state = .closing ∧ c.dispatchCount = 0 then
    shutdown setup .initiateShutdown outcome c
  else
    c

/-- `sendResponse`; the second outcome is for the close message. -/
def sendResponse (setup : Setup) (os : List Byte) (compressFlag : Byte)
    (outcome closing : WriteOutcome) (c : ConnectionI) : ConnectionI :=
  let c := reapWhenIdle { c with dispatchCount := wrap (c.dispatchCount - 1) }
  if .closed ≤ c.state then
    match c.exception with
    | some ex => fail setup ex c
    | none => c
  else
    match sendMessage setup outcome (ownMessage os (0 < compressFlag)) c with
    | (.failed ex _, c) => fail setup ex c
    | (_, c) => shutdownWhenIdle setup closing c

def sendNoResponse (setup : Setup) (outcome : WriteOutcome) (c : ConnectionI) : ConnectionI :=
  let c := reapWhenIdle { c with dispatchCount := wrap (c.dispatchCount - 1) }
  if .closed ≤ c.state then
    match c.exception with
    | some ex => fail setup ex c
    | none => c
  else
    shutdownWhenIdle setup outcome c

def invokeException (setup : Setup) (ex : LocalException) (invokeNum : Int) (c : ConnectionI) :
    ConnectionI :=
  let c := fail setup ex c
  if 0 < invokeNum then
    reapWhenIdle { c with dispatchCount := wrap (c.dispatchCount - invokeNum) }
  else
    c

/-- The last part of `dispatch`. -/
def dispatchDone (setup : Setup) (outcome : WriteOutcome) (upcall : Upcall) (c : ConnectionI) :
    ConnectionI :=
  if upcall.hasCallbacks then
    let c := { c with dispatchCount := wrap (c.dispatchCount - 1) }
    if c.dispatchCount = 0 then
      if c.state = .closing ∧ c.shutdownInitiated = false then
        shutdown setup .initiateShutdown outcome c
      else
        reapWhenIdle c
    else
      c
  else
    c

end IceTouch.Connection

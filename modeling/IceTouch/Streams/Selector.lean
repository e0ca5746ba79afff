import Mathlib.Data.List.Sort
import IceTouch.Library.Machine
import IceTouch.Streams.Transceiver

/-!
# The selector over CFStream

`EventHandlerWrapper` for handlers with streams, and the `Selector` that owns them. Every call
takes the lock of the selector once, but for `select`, which releases it while it waits. The
wrappers are known by their addresses; an address stands for a wrapper from the start.
-/

namespace IceTouch.Streams

open Machine

/-- A wrapper, with `_registered` and `_disabled` of its handler. -/
structure Wrapper where
  registered : SocketOperation
  disabled : SocketOperation
  ready : SocketOperation
  finish : Bool
  native : Transceiver
deriving DecidableEq

namespace Wrapper

/-- `ready`, and whether the selector has to add the wrapper to its ready handlers. -/
def makeReady (wrapper : Wrapper) (operation : SocketOperation) (error : Bool) : Wrapper × Bool :=
  let unregistered := wrapper.native.unregisterFromRunLoop operation error
  let wrapper := { wrapper with native := unregistered.2 }
  let operation := wrapper.registered &&& unregistered.1
  if operation = 0 || has wrapper.ready operation then (wrapper, false)
  else
    ({ wrapper with ready := wrapper.ready ||| operation }, !has wrapper.disabled operation)

/-- The stream is taken from the run loop where its operation is not registered or is already
recorded as ready. -/
def withdraw (wrapper : Wrapper) (operation : SocketOperation) : Wrapper :=
  if !has wrapper.registered (operation ||| operationConnect) || has wrapper.ready operation then
    { wrapper with native := (wrapper.native.unregisterFromRunLoop operation false).2 }
  else wrapper

def updateRunLoop (wrapper : Wrapper) (answers : Answers) : Wrapper × Bool :=
  let registered := wrapper.native.registerWithRunLoop answers wrapper.registered
  let wrapper := { wrapper with native := registered.2 }
  let wrapper := (wrapper.withdraw operationWrite).withdraw operationRead
  let result := if registered.1 = 0 then (wrapper, false) else wrapper.makeReady registered.1 false
  (if wrapper.finish then { result.1 with native := result.1.native.closeStreams } else result.1,
    result.2)

def checkReady (wrapper : Wrapper) : Bool := has wrapper.ready wrapper.registered

def readyOp (wrapper : Wrapper) : SocketOperation × Wrapper :=
  let operation := ~~~wrapper.disabled &&& wrapper.ready
  (operation, { wrapper with ready := ~~~operation &&& wrapper.ready })

/-- `update`, where the registered operations change. -/
def register (wrapper : Wrapper) (remove add : SocketOperation) : Wrapper :=
  let registered := (wrapper.registered &&& ~~~remove) ||| add
  { wrapper with registered := registered, ready := wrapper.ready &&& registered }

def finished (wrapper : Wrapper) : Wrapper :=
  { wrapper with finish := true, ready := operationNone, registered := operationNone }

end Wrapper

/-- Where the thread that selects stands. -/
inductive Select where
  | outside
  /-- Waiting for the changes to be processed. -/
  | changes
  /-- Waiting for ready handlers. -/
  | handlers
deriving DecidableEq

abbrev Address := Nat

structure Selector where
  wrappers : Address → Wrapper
  changes : List Address
  readyHandlers : List Address
  selectedHandlers : List (Address × SocketOperation)
  select : Select

def insert (changes : List Address) (address : Address) : List Address :=
  if address ∈ changes then changes else changes.orderedInsert (· ≤ ·) address

namespace Selector

def put (selector : Selector) (address : Address) (result : Wrapper × Bool) : Selector :=
  { selector with
    wrappers := Function.update selector.wrappers address result.1
    readyHandlers :=
      if result.2 then selector.readyHandlers ++ [address] else selector.readyHandlers }

def change (selector : Selector) (address : Address) (wrapper : Wrapper) : Selector :=
  { selector with
    wrappers := Function.update selector.wrappers address wrapper
    changes := insert selector.changes address }

def update (selector : Selector) (address : Address) (remove add : SocketOperation) : Selector :=
  let after := (selector.wrappers address).register remove add
  if (selector.wrappers address).registered = after.registered then selector
  else selector.change address after

def enable (selector : Selector) (address : Address) (operation : SocketOperation) : Selector :=
  let wrapper := selector.wrappers address
  if has wrapper.disabled operation then
    let wrapper := { wrapper with disabled := wrapper.disabled &&& ~~~operation }
    selector.put address (wrapper, has wrapper.registered operation && wrapper.checkReady)
  else selector

def disable (selector : Selector) (address : Address) (operation : SocketOperation) : Selector :=
  let wrapper := selector.wrappers address
  if has wrapper.disabled operation then selector
  else selector.put address ({ wrapper with disabled := wrapper.disabled ||| operation }, false)

def finish (selector : Selector) (address : Address) : Selector :=
  selector.change address (selector.wrappers address).finished

def take (selector : Selector) (address : Address) : Selector :=
  let taken := (selector.wrappers address).readyOp
  { selector with
    wrappers := Function.update selector.wrappers address taken.2
    selectedHandlers :=
      if taken.1 = 0 then selector.selectedHandlers
      else selector.selectedHandlers ++ [(address, taken.1)] }

def collect (selector : Selector) : Selector :=
  { selector.readyHandlers.foldl take selector with readyHandlers := [] }

/-- `select` from a point where it holds the lock to the next wait, or to its end. -/
def resume (selector : Selector) : Selector :=
  if selector.changes ≠ [] then { selector with select := .changes }
  else
    let collected := selector.collect
    if collected.selectedHandlers = [] then { collected with select := .handlers }
    else { collected with select := .outside }

def reselect (selector : Selector) : Selector :=
  { selector with
    changes := ((selector.selectedHandlers.map Prod.fst).filter fun address =>
      !(selector.wrappers address).finish).foldl insert selector.changes
    selectedHandlers := [] }

def updateRunLoop (answers : Address → Answers) (selector : Selector) (address : Address) :
    Selector :=
  selector.put address ((selector.wrappers address).updateRunLoop (answers address))

def processInterrupt (selector : Selector) (answers : Address → Answers) : Selector :=
  { selector.changes.foldl (updateRunLoop answers) selector with changes := [] }

def ready (selector : Selector) (address : Address) (operation : SocketOperation) (error : Bool) :
    Selector :=
  selector.put address ((selector.wrappers address).makeReady operation error)

end Selector

inductive Report where
  | openCompleted
  | usable
  | failed
deriving DecidableEq

def Report.operation (stream : Stream) : Report → SocketOperation
  | .openCompleted => operationConnect ||| stream.operation
  | _ => stream.operation

inductive Event where
  | update (address : Address) (remove add : SocketOperation)
  | enable (address : Address) (operation : SocketOperation)
  | disable (address : Address) (operation : SocketOperation)
  | finish (address : Address)
  /-- `select` is called. -/
  | select
  /-- A wait of `select` ends. -/
  | wake
  | timeout
  /-- `processInterrupt`, with what CoreFoundation answers for each handler. -/
  | interrupt (answers : Address → Answers)
  | callback (address : Address) (stream : Stream) (report : Report)

/-- Streams that are scheduled call back. One thread at a time selects, and a handler is
finished once. -/
def step : Event → Selector → Option Selector
  | .update address remove add, selector =>
      if (selector.wrappers address).finish then none
      else some (selector.update address remove add)
  | .enable address operation, selector => some (selector.enable address operation)
  | .disable address operation, selector => some (selector.disable address operation)
  | .finish address, selector =>
      if (selector.wrappers address).finish then none else some (selector.finish address)
  | .select, selector =>
      if selector.select = .outside then some selector.reselect.resume else none
  | .wake, selector => if selector.select = .outside then none else some selector.resume
  | .timeout, selector =>
      if selector.select = .handlers then some { selector with select := .outside } else none
  | .interrupt answers, selector => some (selector.processInterrupt answers)
  | .callback address stream report, selector =>
      let native := (selector.wrappers address).native
      if (native.stream stream).scheduled && !native.closed then
        some (selector.ready address (report.operation stream) (report = .failed))
      else none

def startTransceiver (hasDescriptor : Bool) : Transceiver :=
  ⟨⟨false, false⟩, ⟨false, false⟩, false, false, hasDescriptor, false⟩

def start (hasDescriptor : Address → Bool) : Selector where
  wrappers address :=
    ⟨operationNone, operationNone, operationNone, false, startTransceiver (hasDescriptor address)⟩
  changes := []
  readyHandlers := []
  selectedHandlers := []
  select := .outside

end IceTouch.Streams

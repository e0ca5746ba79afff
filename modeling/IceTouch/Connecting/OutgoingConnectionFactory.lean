import IceTouch.Connection.Wire
import IceTouch.Library.Lists
import IceTouch.Library.Machine
import Mathlib.Data.Finset.Filter
import Mathlib.Data.Finset.Insert
import Mathlib.Data.Finset.Lattice.Lemmas

/-!
# Establishing connections

`OutgoingConnectionFactory::getConnection`, `finishGetConnection` and the two kinds of caller:
`create` without a callback, which waits on the monitor, and `ConnectCallback`, which is
registered in `_pending`. Every section under the factory's mutex is one event, as is every
call that is made outside of it. Connectors are of any type `κ`.
-/

namespace IceTouch.Connecting.Establishing

open Connection Machine IceTouch.Lists

inductive Outcome (κ : Type) where
  /-- The connection to this connector. -/
  | connection (connector : κ)
  | exception (ex : LocalException)
deriving DecidableEq

inductive Stage (κ : Type) where
  /-- `connectors_async` is called for this many more endpoints. -/
  | resolving (endpoints : Nat)
  /-- `getConnection` of the factory is about to be called, or to run its loop again. -/
  | asking
  /-- A callback is registered in `_pending`. A thread waits on the monitor until it is
  notified. -/
  | waiting (notified : Bool)
  /-- Responsible for the establishment, at the connector with this index. -/
  | establishing (iter : Nat)
  /-- `setConnection` or `setException` is about to be called. -/
  | answered (outcome : Outcome κ)
  /-- It has been called, `decPendingConnectCount` has not. -/
  | told (outcome : Outcome κ)
  | finished (outcome : Outcome κ)
deriving DecidableEq

/-- A `ConnectCallback`, or a thread in `create`. -/
structure Request (κ : Type) where
  callback : Bool
  /-- `incPendingConnectCount` has let it through. -/
  counted : Bool
  connectors : List κ
  stage : Stage κ
deriving DecidableEq

structure State (κ : Type) where
  destroyed : Bool
  /-- `_pending` -/
  pending : κ → Option (Finset Nat)
  requests : List (Request κ)
  /-- `_pendingConnectCount` -/
  pendingConnectCount : Int
  /-- The calls of `setConnection` and `setException`. -/
  told : List Nat
  /-- The calls of `decPendingConnectCount`. -/
  decremented : List Nat

variable {κ : Type}

def start : State κ where
  destroyed := false
  pending := fun _ => none
  requests := []
  pendingConnectCount := 0
  told := []
  decremented := []

/-- A thread returns or throws what a callback has yet to be told. -/
def Request.answer (request : Request κ) (outcome : Outcome κ) : Request κ :=
  { request with stage := if request.callback then .answered outcome else .finished outcome }

/-- `notifyAll` reaches a thread that waits. -/
def Request.notify (request : Request κ) : Request κ :=
  match request.stage with
  | .waiting _ => if request.callback then request else { request with stage := .waiting true }
  | _ => request

def State.put (s : State κ) (id : Nat) (request : Request κ) : State κ :=
  { s with requests := s.requests.set id request }

/-- `getConnectors`, with the number of endpoints. -/
def State.getConnectors (s : State κ) (endpoints : Nat) : State κ :=
  if s.destroyed then
    { s with
      requests := s.requests ++ [{
        callback := true
        counted := false
        connectors := []
        stage := .finished (.exception .communicatorDestroyed) }]
      told := s.told ++ [s.requests.length] }
  else
    { s with
      requests := s.requests ++ [{
        callback := true
        counted := true
        connectors := []
        stage := .resolving endpoints }]
      pendingConnectCount := s.pendingConnectCount + 1 }

/-- `create` without a callback, when it has its connectors. -/
def State.create (s : State κ) (connectors : List κ) : State κ :=
  { s with
    requests := s.requests ++ [{
      callback := false
      counted := false
      connectors := connectors
      stage := .asking }] }

/-- `ConnectCallback::connectors`. -/
def Request.addConnectors (request : Request κ) (connectors : List κ) (left : Nat) : Request κ :=
  { request with
    connectors := request.connectors ++ connectors
    stage := if left = 0 then .asking else .resolving left }

/-- `ConnectCallback::exception`. -/
def Request.unresolved (request : Request κ) (ex : LocalException) (left : Nat) : Request κ :=
  if 0 < left then { request with stage := .resolving left }
  else if request.connectors ≠ [] then { request with stage := .asking }
  else request.answer (.exception ex)

variable [DecidableEq κ]

def State.register (s : State κ) (id : Nat) (connectors : List κ) : κ → Option (Finset Nat) :=
  fun connector =>
    if connector ∈ connectors then (s.pending connector).map (insert id)
    else s.pending connector

def State.reserve (s : State κ) (connectors : List κ) : κ → Option (Finset Nat) :=
  fun connector =>
    if connector ∈ connectors ∧ s.pending connector = none then some ∅ else s.pending connector

/-- `addToPending`, and what `getConnection` does with its result. -/
def State.addToPending (s : State κ) (id : Nat) (request : Request κ) : State κ :=
  if request.connectors.any fun connector => (s.pending connector).isSome then
    { s.put id { request with stage := .waiting false } with
      pending := if request.callback then s.register id request.connectors else s.pending }
  else
    { s.put id { request with stage := .establishing 0 } with
      pending := s.reserve request.connectors }

/-- `getConnection`; `found` is what `findConnection` finds. -/
def State.getConnection (s : State κ) (id : Nat) (request : Request κ) (found : Option κ) :
    Option (State κ) :=
  if s.destroyed then
    some (s.put id (request.answer (.exception .communicatorDestroyed)))
  else
    match found with
    | some connector =>
        if connector ∈ request.connectors ∧ s.pending connector = none then
          some (s.put id (request.answer (.connection connector)))
        else none
    | none => some (s.addToPending id request)

def State.waiters (s : State κ) (connectors : List κ) : Finset Nat :=
  connectors.foldr (fun connector set => (s.pending connector).getD ∅ ∪ set) ∅

/-- The pending lists after those of `connectors` are erased and `removeFromPending` is called
for the callbacks of `released`, which have the given connectors. -/
def State.releasePending (s : State κ) (connectors : List κ) (released : Finset Nat)
    (connectorsOf : Nat → List κ) : κ → Option (Finset Nat) :=
  fun connector =>
    if connector ∈ connectors then none
    else (s.pending connector).map fun set =>
      set.filter fun id => ¬(id ∈ released ∧ connector ∈ connectorsOf id)

def Request.remaining (request : Request κ) (failed : List κ) : List κ :=
  request.connectors.filter fun connector => connector ∉ failed

def Request.connected (request : Request κ) (connector : κ) : Request κ :=
  { request with
    stage := if connector ∈ request.connectors then .answered (.connection connector)
      else .asking }

/-- `removeConnectors` for a callback that waited for connectors which have failed. -/
def Request.failed (request : Request κ) (connectors : List κ) (ex : LocalException) :
    Request κ :=
  { request with
    connectors := request.remaining connectors
    stage := if request.remaining connectors = [] then .answered (.exception ex) else .asking }

def State.connectorsOf (s : State κ) (id : Nat) : List κ :=
  match s.requests[id]? with
  | some request => request.connectors
  | none => []

/-- `finishGetConnection` with a connection. -/
def State.finishConnected (s : State κ) (id : Nat) (connectors : List κ) (connector : κ) :
    State κ :=
  let waiters := s.waiters connectors
  { s with
    pending := s.releasePending connectors waiters s.connectorsOf
    requests := s.requests.mapIdx fun other request =>
      if other = id then request.answer (.connection connector)
      else if other ∈ waiters then request.connected connector
      else request.notify }

/-- `finishGetConnection` with an exception. Callbacks with no connectors left are not in
other pending lists. -/
def State.finishFailed (s : State κ) (id : Nat) (connectors : List κ) (ex : LocalException) :
    State κ :=
  let waiters := s.waiters connectors
  { s with
    pending := s.releasePending connectors waiters s.connectorsOf
    requests := s.requests.mapIdx fun other request =>
      if other = id then request.answer (.exception ex)
      else if other ∈ waiters then request.failed connectors ex
      else request.notify }

def State.destroy (s : State κ) : State κ :=
  if s.destroyed then s
  else { s with destroyed := true, requests := s.requests.map Request.notify }

inductive Event (κ : Type) where
  /-- An asynchronous `create` starts to resolve its endpoints, at least one. -/
  | getConnectors (endpoints : Nat)
  | create (connectors : List κ)
  | connectors (id : Nat) (connectors : List κ)
  | unresolved (id : Nat) (ex : LocalException)
  | getConnection (id : Nat) (found : Option κ)
  /-- A thread that was notified leaves `wait`. -/
  | wake (id : Nat)
  /-- The connection to the current connector is started, or this fails. -/
  | connected (id : Nat)
  | failed (id : Nat) (ex : LocalException)
  /-- `_callback->setConnection` or `_callback->setException` -/
  | tell (id : Nat)
  | decPendingConnectCount (id : Nat)
  | destroy
deriving DecidableEq

def step : Event κ → State κ → Option (State κ)
  | .getConnectors endpoints, s => if 0 < endpoints then some (s.getConnectors endpoints) else none
  | .create connectors, s => if connectors ≠ [] then some (s.create connectors) else none
  | .connectors id connectors, s => do
      let request ← s.requests[id]?
      match request.stage with
      | .resolving (left + 1) =>
          if connectors ≠ [] then some (s.put id (request.addConnectors connectors left)) else none
      | _ => none
  | .unresolved id ex, s => do
      let request ← s.requests[id]?
      match request.stage with
      | .resolving (left + 1) => some (s.put id (request.unresolved ex left))
      | _ => none
  | .getConnection id found, s => do
      let request ← s.requests[id]?
      if request.stage = .asking then s.getConnection id request found else none
  | .wake id, s => do
      let request ← s.requests[id]?
      if request.callback = false ∧ request.stage = .waiting true then
        some (s.put id { request with stage := .asking })
      else none
  | .connected id, s => do
      let request ← s.requests[id]?
      match request.stage with
      | .establishing iter => do
          let connector ← request.connectors[iter]?
          some (s.finishConnected id request.connectors connector)
      | _ => none
  | .failed id ex, s => do
      let request ← s.requests[id]?
      match request.stage with
      | .establishing iter =>
          if ex ≠ .communicatorDestroyed ∧ iter + 1 < request.connectors.length then
            some (s.put id { request with stage := .establishing (iter + 1) })
          else some (s.finishFailed id request.connectors ex)
      | _ => none
  | .tell id, s => do
      let request ← s.requests[id]?
      match request.stage with
      | .answered outcome =>
          some { s.put id { request with stage := .told outcome } with told := s.told ++ [id] }
      | _ => none
  | .decPendingConnectCount id, s => do
      let request ← s.requests[id]?
      match request.stage with
      | .told outcome =>
          some { s.put id { request with stage := .finished outcome } with
            pendingConnectCount := s.pendingConnectCount - 1
            decremented := s.decremented ++ [id] }
      | _ => none
  | .destroy, s => some s.destroy

end IceTouch.Connecting.Establishing

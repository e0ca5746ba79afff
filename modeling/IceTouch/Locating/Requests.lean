import IceTouch.Library.Lists
import IceTouch.Library.Machine
import IceTouch.Locating.LocatorTable

/-!
# Requests that callers share

The `LocatorInfo` objects of one locator, with the table they share. A resolution is a call
that consults the table, gets the request of its key and joins it; each of these steps, and
each step of finishing a request, can be interleaved with the steps of all other threads. A
call that is made within another one, as by a callback, runs as a call of its own.
-/

namespace IceTouch.Locating.Requests

open Bytes WireTypes Identities Machine IceTouch.Lists

/-- The keys of `_adapterRequests` and `_objectRequests`. -/
inductive Key where
  | adapter (id : Str)
  | object (id : Identity)
deriving DecidableEq

def keyOf : IndirectReference → Key
  | .adapter target => .adapter target.ref.adapterId
  | .wellKnown target => .object (identityOf target.ref)

/-- One call of `getEndpoints` on the `LocatorInfo` with number `info`. -/
structure Caller where
  info : Nat
  ref : IndirectReference
  wellKnownRef : Option Reference
  ttl : Int
  /-- It has a callback, or nobody is interested in its result. -/
  async : Bool
deriving DecidableEq

def Caller.onwards (caller : Caller) (r : AdapterReference) : Caller :=
  { caller with ref := .adapter r, wellKnownRef := some caller.ref.ref }

/-- What a thread is about to do. -/
inductive Call where
  | look (caller : Caller)
  | fetch (caller : Caller)
  | join (caller : Caller) (request : Nat)
  | wait (caller : Caller) (request : Nat)
  | clear (ref : IndirectReference)
deriving DecidableEq

/-- A `RequestCallback`, numbered in the order of `addCallback`. -/
structure Callback where
  serial : Nat
  caller : Caller
deriving DecidableEq

/-- How far a request is. From `forgetting` to `delivering` its monitor is locked. -/
inductive Stage where
  /-- `_sent` is not set. -/
  | idle
  | toSend (async : Bool)
  | inFlight (async : Bool)
  | forgetting (answer : Answer) (left : List Reference)
  | erasing (answer : Answer)
  | delivering (answer : Answer) (left : List Callback)
  | done (answer : Answer)
deriving DecidableEq

structure Request where
  info : Nat
  ref : IndirectReference
  callbacks : List Callback
  wellKnownRefs : List Reference
  stage : Stage
deriving DecidableEq

structure State where
  table : LocatorTable
  /-- `_adapterRequests` and `_objectRequests` of each `LocatorInfo`. -/
  current : Nat × Key → Option Nat
  requests : List Request
  calls : List Call
  serial : Nat
  /-- The callbacks whose `response` or `exception` has been called. -/
  answered : List Nat
  assertionFailed : Bool

def start : State where
  table := .empty
  current := fun _ => none
  requests := []
  calls := []
  serial := 0
  answered := []
  assertionFailed := false

def Request.slot (request : Request) : Nat × Key := (request.info, keyOf request.ref)

def Caller.slot (caller : Caller) : Nat × Key := (caller.info, keyOf caller.ref)

def State.spawn (s : State) (call : Call) : State := { s with calls := s.calls ++ [call] }

def State.drop (s : State) (index : Nat) : State := { s with calls := s.calls.eraseIdx index }

def State.put (s : State) (id : Nat) (request : Request) : State :=
  { s with requests := s.requests.set id request }

@[simp] theorem put_answered (s : State) (id : Nat) (request : Request) :
    (s.put id request).answered = s.answered := rfl

@[simp] theorem put_serial (s : State) (id : Nat) (request : Request) :
    (s.put id request).serial = s.serial := rfl

def State.check (s : State) (holds : Bool) : State :=
  if holds then s else { s with assertionFailed := true }

/-- The end of `getEndpoints` with what the table has for an object. -/
def State.follow (s : State) (caller : Caller) (r : Reference) : State :=
  match LocatorInfo.resolved r with
  | .endpoints found => s.check !found.isEmpty
  | .indirect target => s.spawn (.look (caller.onwards target))

/-- `getEndpoints` up to the call of `getAdapterRequest` or `getObjectRequest`. -/
def State.look (background : Bool) (now : Int) (s : State) (caller : Caller) : State :=
  match caller.ref with
  | .adapter target =>
      let (valid, endpoints) := s.table.getAdapterEndpoints target.ref.adapterId caller.ttl now
      if valid then s.check !endpoints.isEmpty
      else if background ∧ endpoints ≠ [] then
        (s.spawn (.fetch { caller with async := true })).check !endpoints.isEmpty
      else s.spawn (.fetch caller)
  | .wellKnown target =>
      match s.table.getObjectReference (identityOf target.ref) caller.ttl now with
      | (true, some r) => s.follow caller r
      | (_, some r) =>
          if background then
            (s.spawn (.fetch { caller with wellKnownRef := none, async := true })).follow caller r
          else s.spawn (.fetch { caller with wellKnownRef := none })
      | (_, none) => s.spawn (.fetch { caller with wellKnownRef := none })

def State.insert (s : State) (caller : Caller) : State :=
  { s with
    requests := s.requests ++ [{
      info := caller.info
      ref := caller.ref
      callbacks := []
      wellKnownRefs := []
      stage := .idle }]
    current := Function.update s.current caller.slot (some s.requests.length) }

/-- `getAdapterRequest` and `getObjectRequest`. -/
def State.fetch (s : State) (caller : Caller) : State :=
  match s.current caller.slot with
  | some id => s.spawn (.join caller id)
  | none => (s.insert caller).spawn (.join caller s.requests.length)

/-- `RequestCallback::response` and `exception`. -/
def State.answer (s : State) (callback : Callback) (answer : Answer) : State :=
  let told := { s with answered := s.answered ++ [callback.serial] }
  match answer with
  | .exception _ => told
  | .response proxy =>
      match RequestCallback.resolved callback.caller.ref.ref proxy with
      | .endpoints _ => told
      | .indirect r => told.spawn (.look { callback.caller.onwards r with async := true })

/-- The stage of a request once somebody has asked for its answer. -/
def Stage.asked : Stage → Stage
  | .idle => .toSend true
  | stage => stage

/-- The monitor is not locked and there is no answer yet. -/
def Stage.collecting : Stage → Bool
  | .idle | .toSend _ | .inFlight _ => true
  | _ => false

def Request.register (request : Request) (caller : Caller) : Request :=
  { request with
    wellKnownRefs := request.wellKnownRefs ++ caller.wellKnownRef.toList
    stage := request.stage.asked }

def Request.add (request : Request) (callback : Callback) : Request :=
  { request.register callback.caller with callbacks := request.callbacks ++ [callback] }

/-- `addCallback`, and `Request::getEndpoints` up to the wait. -/
def State.join (s : State) (caller : Caller) (id : Nat) : Option State := do
  let request ← s.requests[id]?
  let callback : Callback := ⟨s.serial, caller⟩
  if request.stage.collecting then
    if caller.async then
      some { s.put id (request.add callback) with serial := s.serial + 1 }
    else some ((s.put id (request.register caller)).spawn (.wait caller id))
  else
    match request.stage with
    | .done answer =>
        if caller.async then some ({ s with serial := s.serial + 1 }.answer callback answer)
        else some (s.spawn (.wait caller id))
    | _ => none

/-- `Request::getEndpoints` after the wait. -/
def State.resume (s : State) (caller : Caller) (id : Nat) : Option State := do
  let request ← s.requests[id]?
  match request.stage with
  | .done (.response proxy) =>
      match Request.resolved caller.ref.ref proxy with
      | .endpoints _ => some s
      | .indirect r => some (s.spawn (.look (caller.onwards r)))
  | .done (.exception _) => some s
  | _ => none

/-- One step of `Request::response` or `exception`, which the answer has begun. -/
def State.finish (s : State) (id : Nat) (now : Int) : Option State := do
  let request ← s.requests[id]?
  match request.stage with
  | .forgetting answer (ref :: left) =>
      some { s.put id { request with stage := .forgetting answer left } with
        table := s.table.removeObjectReference (identityOf ref) }
  | .forgetting answer [] =>
      some { s.put id { request with stage := .erasing answer } with
        table := s.table.store request.ref answer now }
  | .erasing answer =>
      let erased := (s.put id { request with stage := .delivering answer request.callbacks }).check
        (s.current request.slot).isSome
      some { erased with current := Function.update s.current request.slot none }
  | .delivering answer (callback :: left) =>
      some ((s.put id { request with stage := .delivering answer left }).answer callback answer)
  | .delivering answer [] => some (s.put id { request with stage := .done answer })
  | _ => none

/-- One removal of `clearCache`. -/
def State.clear (s : State) : IndirectReference → State
  | .adapter target => { s with table := s.table.removeAdapterEndpoints target.ref.adapterId }
  | .wellKnown target =>
      let removed :=
        { s with table := s.table.removeObjectReference (identityOf target.ref) }
      match s.table.objectMap (identityOf target.ref) with
      | none => removed
      | some (_, r) =>
          match resolved true r with
          | .endpoints _ => removed
          | .indirect adapter => removed.spawn (.clear (.adapter adapter))

inductive Event where
  /-- A caller with or without a callback begins to resolve a reference. -/
  | getEndpoints (info : Nat) (ref : IndirectReference) (ttl : Int) (async : Bool)
  | clearCache (ref : IndirectReference)
  /-- A call takes its next step. -/
  | proceed (index : Nat) (now : Int)
  /-- `send` makes the call of the locator. -/
  | send (request : Nat)
  /-- The locator is collocated, so the call throws and the request is to be sent again. -/
  | collocated (request : Nat)
  /-- The call of a locator elsewhere ends. -/
  | answer (request : Nat) (answer : Answer)
  | finish (request : Nat) (now : Int)
deriving DecidableEq

def State.proceed (background : Bool) (now : Int) (s : State) : Call → Option State
  | .look caller => some (s.look background now caller)
  | .fetch caller => some (s.fetch caller)
  | .join caller id => s.join caller id
  | .wait caller id => s.resume caller id
  | .clear ref => some (s.clear ref)

def step (background : Bool) : Event → State → Option State
  | .getEndpoints info ref ttl async, s =>
      some (s.spawn (.look ⟨info, ref, none, ttl, async⟩))
  | .clearCache ref, s => some (s.spawn (.clear ref))
  | .proceed index now, s => do
      let call ← s.calls[index]?
      (s.drop index).proceed background now call
  | .send id, s => do
      let request ← s.requests[id]?
      match request.stage with
      | .toSend async => some (s.put id { request with stage := .inFlight async })
      | _ => none
  | .collocated id, s => do
      let request ← s.requests[id]?
      match request.stage with
      | .inFlight _ => some (s.put id { request with stage := .toSend false })
      | _ => none
  | .answer id answer, s => do
      let request ← s.requests[id]?
      match request.stage with
      -- The call that follows a `CollocationOptimizationException` ends with another one.
      | .inFlight true =>
          let left := if leavesUnresolved answer.finished.1 then request.wellKnownRefs else []
          some (s.put id { request with stage := .forgetting answer left })
      | _ => none
  | .finish id now, s => s.finish id now

/-- The request has not been taken out of the map. -/
def Request.isOpen (request : Request) : Bool :=
  match request.stage with
  | .delivering _ _ | .done _ => false
  | _ => true

def Request.pending (request : Request) : List Callback :=
  match request.stage with
  | .delivering _ left => left
  | .done _ => []
  | _ => request.callbacks

def Request.inFlight (request : Request) : Bool :=
  match request.stage with
  | .inFlight _ => true
  | _ => false

def Request.unanswered (request : Request) : List Nat :=
  request.pending.map Callback.serial

def State.unanswered (s : State) : List Nat := s.requests.flatMap Request.unanswered

/-- What the table holds can be used. -/
structure Filled (table : LocatorTable) : Prop where
  adapters : ∀ adapter time endpoints,
    table.adapterEndpointsMap adapter = some (time, endpoints) → endpoints ≠ []
  objects : ∀ id time r, table.objectMap id = some (time, r) → resolved true r ≠ .endpoints []

structure Invariant (s : State) : Prop where
  filled : Filled s.table
  /-- A request that is in use is the one in the map. -/
  current : ∀ (id : Nat) (request : Request), s.requests[id]? = some request → request.isOpen = true →
    s.current request.slot = some id
  /-- Who adds a callback sees to it that the request is sent. -/
  idle : ∀ (id : Nat) (request : Request), s.requests[id]? = some request → request.stage = .idle →
    request.callbacks = []
  counted : ∀ number, s.answered.count number + s.unanswered.count number =
    if number < s.serial then 1 else 0
  asserted : s.assertionFailed = false

variable {table : LocatorTable} {s : State} {id : Nat} {request : Request}

theorem Filled.removeAdapterEndpoints (filled : Filled table) (adapter : Str) :
    Filled (table.removeAdapterEndpoints adapter) where
  adapters := by
    intro other time endpoints looked
    obtain ⟨_, absurdity⟩ | looked := update_some looked
    · cases absurdity
    · exact filled.adapters other time endpoints looked
  objects := filled.objects

theorem Filled.removeObjectReference (filled : Filled table) (id : Identity) :
    Filled (table.removeObjectReference id) where
  adapters := filled.adapters
  objects := by
    intro other time r looked
    obtain ⟨_, absurdity⟩ | looked := update_some looked
    · cases absurdity
    · exact filled.objects other time r looked

variable {endpoints : List Endpoint} {now : Int} {after : State}

theorem Filled.addAdapterEndpoints (filled : Filled table) (adapter : Str) (some : endpoints ≠ [])
    (now : Int) :
    Filled (table.addAdapterEndpoints adapter endpoints now) where
  adapters := by
    intro other time found looked
    obtain ⟨_, added⟩ | looked := update_some looked
    · cases added
      exact some
    · exact filled.adapters other time found looked
  objects := filled.objects

variable {r : Reference} {caller : Caller}

theorem Filled.addObjectReference (filled : Filled table) (id : Identity)
    (leads : resolved true r ≠ .endpoints []) (now : Int) :
    Filled (table.addObjectReference id r now) where
  adapters := filled.adapters
  objects := by
    intro other time found looked
    obtain ⟨_, added⟩ | looked := update_some looked
    · cases added
      exact leads
    · exact filled.objects other time found looked

theorem Filled.ite {other : LocatorTable} {condition : Prop} [Decidable condition]
    (first : condition → Filled table) (second : ¬condition → Filled other) :
    Filled (if condition then table else other) := by
  by_cases holds : condition
  · rw [if_pos holds]
    exact first holds
  · rw [if_neg holds]
    exact second holds

theorem Filled.store (filled : Filled table) (ref : IndirectReference) (answer : Answer)
    (now : Int) : Filled (table.store ref answer now) := by
  cases answer with
  | exception ex =>
      cases ref with
      | adapter target =>
          exact Filled.ite (fun _ => filled.removeAdapterEndpoints _) fun _ => filled
      | wellKnown target =>
          exact Filled.ite (fun _ => filled.removeObjectReference _) fun _ => filled
  | response proxy =>
      cases proxy with
      | none => cases ref <;> exact filled
      | some r =>
          cases ref with
          | adapter target =>
              apply Filled.ite fun _ => filled
              intro direct
              apply filled.addAdapterEndpoints
              simpa [isIndirect] using direct
          | wellKnown target =>
              apply Filled.ite fun _ => filled
              intro named
              apply filled.addObjectReference
              by_cases indirect : isIndirect r = true
              · simp [resolved, indirect, named]
              · have some : r.endpoints ≠ [] := by simpa [isIndirect] using indirect
                simpa [resolved, indirect] using some

section

variable (invariant : Invariant s)

include invariant

theorem Invariant.calls (calls : List Call) : Invariant { s with calls := calls } :=
  ⟨invariant.filled, invariant.current, invariant.idle, invariant.counted, invariant.asserted⟩

theorem Invariant.spawn (call : Call) : Invariant (s.spawn call) :=
  invariant.calls _

theorem Invariant.withTable (filled : Filled table) : Invariant { s with table := table } :=
  ⟨filled, invariant.current, invariant.idle, invariant.counted, invariant.asserted⟩

theorem Invariant.check {holds : Bool} (passes : holds = true) : Invariant (s.check holds) := by
  rw [State.check, if_pos passes]
  exact invariant

/-- A request moves on: it stays what the map says it is, and its callbacks are accounted
for. -/
theorem Invariant.put {after : Request} (there : s.requests[id]? = some request)
    (slot : after.slot = request.slot) (opened : after.isOpen = true → request.isOpen = true)
    (idle : after.stage = .idle → after.callbacks = [])
    {answered : List Nat} {serial : Nat}
    (counts : ∀ number, answered.count number + after.unanswered.count number +
        (if number < s.serial then 1 else 0) =
      s.answered.count number + request.unanswered.count number +
        (if number < serial then 1 else 0)) :
    Invariant { s.put id after with answered := answered, serial := serial } where
  filled := invariant.filled
  current := by
    intro other found looked isOpen
    obtain ⟨rfl, rfl⟩ | ⟨_, looked⟩ := get_set looked
    · exact slot ▸ invariant.current other request there (opened isOpen)
    · exact invariant.current other found looked isOpen
  idle := by
    intro other found looked isIdle
    obtain ⟨rfl, rfl⟩ | ⟨_, looked⟩ := get_set looked
    · exact idle isIdle
    · exact invariant.idle other found looked isIdle
  counted := by
    intro number
    have before := invariant.counted number
    have balance := counts number
    have moved := count_flat_set Request.unanswered after there number
    change answered.count number + ((s.requests.set id after).flatMap Request.unanswered).count
      number = if number < serial then 1 else 0
    rw [State.unanswered] at before
    omega
  asserted := invariant.asserted

end

theorem Invariant.answer {callback : Callback}
    (invariant : Invariant { s with answered := s.answered ++ [callback.serial] })
    (answer : Answer) :
    Invariant (s.answer callback answer) := by
  cases answer with
  | exception ex => exact invariant
  | response proxy =>
      simp only [State.answer]
      split
      · exact invariant
      · exact invariant.spawn _

theorem Invariant.follow (invariant : Invariant s) (caller : Caller)
    (leads : resolved true r ≠ .endpoints []) : Invariant (s.follow caller r) := by
  unfold State.follow
  cases led : LocatorInfo.resolved r with
  | indirect target => exact invariant.spawn _
  | endpoints found =>
      apply invariant.check
      have some : found ≠ [] := fun none => leads (none ▸ led)
      simpa using some

theorem Filled.adapter_hit (filled : Filled table) {adapter : Str} {ttl : Int}
    (hit : table.getAdapterEndpoints adapter ttl now = (true, endpoints)) : endpoints ≠ [] := by
  unfold LocatorTable.getAdapterEndpoints at hit
  split at hit
  · simp at hit
  · split at hit
    · simp at hit
    · next time found there =>
        simp only [Prod.mk.injEq] at hit
        exact hit.2 ▸ filled.adapters adapter time found there

theorem Filled.object_found (filled : Filled table) {id : Identity} {ttl : Int} {valid : Bool}
    (found : table.getObjectReference id ttl now = (valid, some r)) :
    resolved true r ≠ .endpoints [] := by
  unfold LocatorTable.getObjectReference at found
  split at found
  · simp at found
  · split at found
    · simp at found
    · next time kept there =>
        simp only [Prod.mk.injEq, Option.some.injEq] at found
        exact found.2 ▸ filled.objects id time kept there

theorem Invariant.look (invariant : Invariant s) (background : Bool) (now : Int) (caller : Caller) :
    Invariant (s.look background now caller) := by
  unfold State.look
  cases caller.ref with
  | adapter target =>
      simp only
      cases looked : s.table.getAdapterEndpoints target.ref.adapterId caller.ttl now with
      | mk valid endpoints =>
          cases valid with
          | true =>
              have some : endpoints ≠ [] := invariant.filled.adapter_hit looked
              exact invariant.check (by simpa using some)
          | false =>
              simp only [Bool.false_eq_true, if_false]
              by_cases stale : background ∧ endpoints ≠ []
              · rw [if_pos stale]
                exact (invariant.spawn _).check (by simpa using stale.2)
              · rw [if_neg stale]
                exact invariant.spawn _
  | wellKnown target =>
      simp only
      cases looked : s.table.getObjectReference (identityOf target.ref) caller.ttl now with
      | mk valid found =>
          cases found with
          | none => cases valid <;> exact invariant.spawn _
          | some r =>
              have leads := invariant.filled.object_found looked
              cases valid with
              | true => exact invariant.follow caller leads
              | false =>
                  simp only
                  split
                  · exact (invariant.spawn _).follow caller leads
                  · exact invariant.spawn _

theorem Invariant.insert (invariant : Invariant s) (absent : s.current caller.slot = none) :
    Invariant (s.insert caller) where
  filled := invariant.filled
  current := by
    intro id request looked isOpen
    obtain ⟨inside, here⟩ | ⟨rfl, rfl⟩ := get_append looked
    · have listed := invariant.current id request here isOpen
      have other : request.slot ≠ caller.slot := by
        intro same
        rw [same, absent] at listed
        cases listed
      exact (Function.update_of_ne other _ _).trans listed
    · exact Function.update_self _ _ _
  idle := by
    intro id request looked isIdle
    obtain ⟨inside, here⟩ | ⟨rfl, rfl⟩ := get_append looked
    · exact invariant.idle id request here isIdle
    · rfl
  counted := by
    intro number
    have same : (s.insert caller).unanswered = s.unanswered := by
      simp [State.insert, State.unanswered, Request.unanswered, Request.pending]
    rw [same]
    exact invariant.counted number
  asserted := invariant.asserted

theorem Invariant.fetch (invariant : Invariant s) (caller : Caller) :
    Invariant (s.fetch caller) := by
  unfold State.fetch
  cases listed : s.current caller.slot with
  | some id => exact invariant.spawn _
  | none => exact (invariant.insert listed).spawn _

theorem collecting_register (caller : Caller) (collecting : request.stage.collecting = true) :
    request.isOpen = true ∧ (request.register caller).stage ≠ .idle ∧
      (request.register caller).pending = request.callbacks ∧
      request.pending = request.callbacks := by
  unfold Request.isOpen Request.pending Request.register
  cases stage : request.stage with
  | idle | toSend | inFlight => simp [Stage.asked]
  | forgetting | erasing | delivering | done => simp [stage, Stage.collecting] at collecting

theorem collecting_add (callback : Callback) (collecting : request.stage.collecting = true) :
    (request.add callback).pending = request.callbacks ++ [callback] := by
  unfold Request.pending Request.add Request.register
  cases stage : request.stage with
  | idle | toSend | inFlight => simp [Stage.asked]
  | forgetting | erasing | delivering | done => simp [stage, Stage.collecting] at collecting

section

variable (invariant : Invariant s)

include invariant

theorem Invariant.addCallback (there : s.requests[id]? = some request)
    (collecting : request.stage.collecting = true) :
    Invariant { s.put id (request.add ⟨s.serial, caller⟩) with serial := s.serial + 1 } := by
  obtain ⟨isOpen, asked, _, before⟩ := collecting_register caller collecting
  have slot : (request.add ⟨s.serial, caller⟩).slot = request.slot := rfl
  refine invariant.put there slot (fun _ => isOpen) (fun isIdle => absurd isIdle asked) ?_
  intro number
  have here := count_one s.serial number
  simp only [Request.unanswered, collecting_add _ collecting, before, List.map_append,
    List.map_cons, List.map_nil, List.count_append, put_answered]
  split at here <;> split <;> split <;> omega

theorem Invariant.register (caller : Caller) (there : s.requests[id]? = some request)
    (collecting : request.stage.collecting = true) :
    Invariant (s.put id (request.register caller)) := by
  obtain ⟨isOpen, asked, pending, before⟩ := collecting_register caller collecting
  have slot : (request.register caller).slot = request.slot := rfl
  refine invariant.put there slot (fun _ => isOpen) (fun isIdle => absurd isIdle asked) ?_
  intro number
  simp only [Request.unanswered, pending, before]

theorem Invariant.late :
    Invariant { s with serial := s.serial + 1, answered := s.answered ++ [s.serial] } := by
  refine ⟨invariant.filled, invariant.current, invariant.idle, ?_, invariant.asserted⟩
  intro number
  have before := invariant.counted number
  have here := count_one s.serial number
  change (s.answered ++ [s.serial]).count number + s.unanswered.count number =
    if number < s.serial + 1 then 1 else 0
  rw [List.count_append]
  split <;> split at before <;> split at here <;> omega

theorem Invariant.join (joined : s.join caller id = some after) : Invariant after := by
  unfold State.join at joined
  simp only [Option.bind_eq_bind, Option.bind_eq_some_iff] at joined
  obtain ⟨request, there, joined⟩ := joined
  by_cases collecting : request.stage.collecting = true
  · rw [if_pos collecting] at joined
    by_cases async : caller.async = true
    · rw [if_pos async] at joined
      cases joined
      exact invariant.addCallback there collecting
    · rw [if_neg async] at joined
      cases joined
      exact (invariant.register caller there collecting).spawn _
  · rw [if_neg collecting] at joined
    cases stage : request.stage with
    | done answer =>
        simp only [stage] at joined
        by_cases async : caller.async = true
        · rw [if_pos async] at joined
          cases joined
          exact invariant.late.answer answer
        · rw [if_neg async] at joined
          cases joined
          exact invariant.spawn _
    | idle | toSend | inFlight => simp [stage, Stage.collecting] at collecting
    | forgetting | erasing | delivering => simp [stage] at joined

theorem Invariant.resume (resumed : s.resume caller id = some after) : Invariant after := by
  unfold State.resume at resumed
  simp only [Option.bind_eq_bind, Option.bind_eq_some_iff] at resumed
  obtain ⟨request, there, resumed⟩ := resumed
  split at resumed
  · split at resumed
    · cases resumed
      exact invariant
    · cases resumed
      exact invariant.spawn _
  · cases resumed
    exact invariant
  · cases resumed

theorem Invariant.advance (there : s.requests[id]? = some request) {stage : Stage}
    (opened : ({ request with stage := stage } : Request).isOpen = true → request.isOpen = true)
    (sent : stage ≠ .idle)
    (kept : ({ request with stage := stage } : Request).pending = request.pending) :
    Invariant (s.put id { request with stage := stage }) := by
  have slot : ({ request with stage := stage } : Request).slot = request.slot := rfl
  refine invariant.put there slot opened (fun isIdle => absurd isIdle sent) ?_
  intro number
  simp only [Request.unanswered, kept]

theorem Invariant.erased {answer : Answer} (there : s.requests[id]? = some request)
    (erasing : request.stage = .erasing answer) :
    Invariant { (s.put id { request with stage := .delivering answer request.callbacks }).check
      (s.current request.slot).isSome with
        current := Function.update s.current request.slot none } := by
  have listed : s.current request.slot = some id :=
    invariant.current id request there (by simp [Request.isOpen, erasing])
  have advanced : Invariant
      (s.put id { request with stage := .delivering answer request.callbacks }) :=
    invariant.advance there (by simp [Request.isOpen]) (by simp)
      (by simp [Request.pending, erasing])
  rw [listed, State.check, if_pos Option.isSome_some]
  refine ⟨advanced.filled, ?_, advanced.idle, advanced.counted, advanced.asserted⟩
  intro other found looked isOpen
  have kept := advanced.current other found looked isOpen
  obtain ⟨rfl, rfl⟩ | ⟨different, looked⟩ := get_set looked
  · cases isOpen
  · have elsewhere : found.slot ≠ request.slot := by
      intro same
      rw [same] at kept
      exact different (Option.some.inj (kept.symm.trans listed))
    exact (Function.update_of_ne elsewhere _ _).trans kept

end

theorem Invariant.finish {s after : State} (invariant : Invariant s) {id : Nat} {now : Int}
    (finished : s.finish id now = some after) : Invariant after := by
  unfold State.finish at finished
  simp only [Option.bind_eq_bind, Option.bind_eq_some_iff] at finished
  obtain ⟨request, there, finished⟩ := finished
  cases stage : request.stage with
  | forgetting answer left =>
      cases left with
      | cons ref left =>
          simp only [stage] at finished
          cases finished
          apply Invariant.withTable _ (invariant.filled.removeObjectReference _)
          exact invariant.advance there (by simp [Request.isOpen, stage]) (by simp)
            (by simp [Request.pending, stage])
      | nil =>
          simp only [stage] at finished
          cases finished
          have storable : Filled (s.table.store request.ref answer now) :=
            invariant.filled.store request.ref answer now
          apply Invariant.withTable _ storable
          exact invariant.advance there (by simp [Request.isOpen, stage]) (by simp)
            (by simp [Request.pending, stage])
  | erasing answer =>
      simp only [stage] at finished
      cases finished
      exact invariant.erased there stage
  | delivering answer left =>
      cases left with
      | nil =>
          simp only [stage] at finished
          cases finished
          exact invariant.advance there (by simp [Request.isOpen]) (by simp)
            (by simp [Request.pending, stage])
      | cons callback left =>
          simp only [stage] at finished
          cases finished
          apply Invariant.answer
          have slot : ({ request with stage := .delivering answer left } : Request).slot =
              request.slot := rfl
          refine invariant.put there slot (by simp [Request.isOpen]) (by simp) ?_
          intro number
          simp only [Request.unanswered, Request.pending, stage, List.map_cons]
          have cons := List.count_cons (a := number) (b := callback.serial)
            (l := left.map Callback.serial)
          have one := List.count_singleton (a := number) (b := callback.serial)
          rw [List.count_append, put_answered, put_serial]
          omega
  | idle | toSend | inFlight | done => simp [stage] at finished

section

variable (invariant : Invariant s)

include invariant

theorem Invariant.clear (ref : IndirectReference) : Invariant (s.clear ref) := by
  cases ref with
  | adapter target => exact invariant.withTable (invariant.filled.removeAdapterEndpoints _)
  | wellKnown target =>
      have removed := invariant.withTable
        (invariant.filled.removeObjectReference (identityOf target.ref))
      simp only [State.clear]
      split
      · exact removed
      · split
        · exact removed
        · exact removed.spawn _

theorem Invariant.proceed {background : Bool} {call : Call}
    (proceeded : s.proceed background now call = some after) : Invariant after := by
  cases call with
  | look caller =>
      cases proceeded
      exact invariant.look background now caller
  | fetch caller =>
      cases proceeded
      exact invariant.fetch caller
  | join caller id => exact invariant.join proceeded
  | wait caller id => exact invariant.resume proceeded
  | clear ref =>
      cases proceeded
      exact invariant.clear ref

theorem Invariant.answered (there : s.requests[id]? = some request) {async : Bool}
    (inFlight : request.stage = .inFlight async) {answer : Answer} {left : List Reference} :
    Invariant (s.put id { request with stage := .forgetting answer left }) :=
  invariant.advance there (by simp [Request.isOpen, inFlight]) (by simp)
    (by simp [Request.pending, inFlight])

theorem step_keeps {background : Bool} {event : Event}
    (stepped : step background event s = some after) : Invariant after := by
  cases event with
  | getEndpoints info ref ttl async =>
      cases stepped
      exact invariant.spawn _
  | clearCache ref =>
      cases stepped
      exact invariant.spawn _
  | proceed index now =>
      simp only [step, Option.bind_eq_bind, Option.bind_eq_some_iff] at stepped
      obtain ⟨call, _, proceeded⟩ := stepped
      exact Invariant.proceed (invariant.calls _) proceeded
  | send id =>
      simp only [step, Option.bind_eq_bind, Option.bind_eq_some_iff] at stepped
      obtain ⟨request, there, sent⟩ := stepped
      cases stage : request.stage with
      | toSend async =>
          simp only [stage] at sent
          cases sent
          exact invariant.advance there (by simp [Request.isOpen, stage]) (by simp)
            (by simp [Request.pending, stage])
      | idle | inFlight | forgetting | erasing | delivering | done => simp [stage] at sent
  | collocated id =>
      simp only [step, Option.bind_eq_bind, Option.bind_eq_some_iff] at stepped
      obtain ⟨request, there, refused⟩ := stepped
      split at refused
      · next stage =>
          cases refused
          exact invariant.advance there (by simp [Request.isOpen, stage]) (by simp)
            (by simp [Request.pending, stage])
      · cases refused
  | answer id answer =>
      simp only [step, Option.bind_eq_bind, Option.bind_eq_some_iff] at stepped
      obtain ⟨request, there, answered⟩ := stepped
      cases stage : request.stage with
      | inFlight async =>
          cases async with
          | true =>
              simp only [stage] at answered
              cases answered
              exact invariant.answered there stage
          | false => simp [stage] at answered
      | idle | toSend | forgetting | erasing | delivering | done => simp [stage] at answered
  | finish id now => exact invariant.finish stepped

end

theorem start_invariant : Invariant start where
  filled := by
    constructor
    · intro adapter time endpoints looked
      cases looked
    · intro id time r looked
      cases looked
  current := by simp [start]
  idle := by simp [start]
  counted := by simp [start, State.unanswered]
  asserted := rfl

/-- What can be said of the table and of the shared requests at any time. -/
structure Shared (s : State) : Prop where
  adapters : ∀ adapter time endpoints,
    s.table.adapterEndpointsMap adapter = some (time, endpoints) → endpoints ≠ []
  objects : ∀ id time r, s.table.objectMap id = some (time, r) → isWellKnown r = false
  oneInFlight : ∀ (first second : Nat) (one other : Request),
    s.requests[first]? = some one → s.requests[second]? = some other →
    one.inFlight = true → other.inFlight = true → one.slot = other.slot → first = second
  /-- A callback that was added has been answered once or is going to be, and no other. -/
  answeredOnce : ∀ number, s.answered.count number + s.unanswered.count number =
    if number < s.serial then 1 else 0
  /-- A request with such a callback is to be sent, or in flight, or being answered. -/
  underWay : ∀ request ∈ s.requests, request.pending ≠ [] → request.stage ≠ .idle
  asserted : s.assertionFailed = false

theorem not_well_known_of_resolved (leads : resolved true r ≠ .endpoints []) :
    isWellKnown r = false := by
  by_contra wellKnown
  have wellKnown : isWellKnown r = true := by simpa using wellKnown
  have indirect : isIndirect r = true := by
    simp only [isWellKnown, Bool.and_eq_true] at wellKnown
    exact wellKnown.1
  exact leads (by simp [resolved, indirect, wellKnown])

theorem Invariant.shared (invariant : Invariant s) : Shared s where
  adapters := invariant.filled.adapters
  objects := fun id time r looked =>
    not_well_known_of_resolved (invariant.filled.objects id time r looked)
  oneInFlight := by
    intro first second one other there elsewhere oneInFlight otherInFlight same
    have isOpen : ∀ request : Request, request.inFlight = true → request.isOpen = true := by
      intro request inFlight
      unfold Request.inFlight at inFlight
      split at inFlight
      · next stage => simp [Request.isOpen, stage]
      · cases inFlight
    have left := invariant.current first one there (isOpen one oneInFlight)
    have right := invariant.current second other elsewhere (isOpen other otherInFlight)
    rw [same] at left
    exact Option.some.inj (left.symm.trans right)
  answeredOnce := invariant.counted
  underWay := by
    intro request inside waiting isIdle
    obtain ⟨id, there⟩ := List.getElem?_of_mem inside
    have none := invariant.idle id request there isIdle
    simp [Request.pending, isIdle, none] at waiting
  asserted := invariant.asserted

def exampleReference (encoding : Version) (adapterId : Str) (endpoints : List Endpoint)
    (direct : endpoints ≠ [] → adapterId = []) : Reference where
  name := [111]
  category := []
  facet := []
  mode := .twoway
  secure := false
  protocol := ⟨1, 0⟩
  encoding := encoding
  endpoints := endpoints
  adapterId := adapterId
  identified := fun empty => List.cons_ne_nil _ _ empty.1
  direct := direct

def byEndpoint : Reference :=
  exampleReference ⟨1, 1⟩ [] [.tcp [] 4061 60000 false] (fun _ => rfl)

/-- A request with two callbacks is sent and answered. -/
def answering (request : Nat) (proxy : Reference) (now : Int) : List Event :=
  [.send request, .answer request (.response (some proxy))] ++
    List.replicate 5 (.finish request now)

end IceTouch.Locating.Requests

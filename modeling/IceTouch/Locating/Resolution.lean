import IceTouch.Locating.LocatorTable

/-!
# The two ways to resolve a reference

`LocatorInfo::getEndpoints` with and without a callback, on one `LocatorInfo` whose table and
pending requests are arbitrary. The caller that is watched is the last one to join the request
it needs, and the answer to that request is the next thing that happens; a request that nobody
is watching is answered when it is sent or stays pending.
-/

namespace IceTouch.Locating.Resolution

open Bytes WireTypes Identities

inductive Sink where
  | nobody
  | watched
  | other (caller : Nat)
deriving DecidableEq

structure RequestCallback where
  ref : Reference
  ttl : Int
  callback : Sink
deriving DecidableEq

structure Request where
  callbacks : List RequestCallback
  wellKnownRefs : List Reference
  sent : Bool

def Request.fresh : Request where
  callbacks := []
  wellKnownRefs := []
  sent := false

inductive Outcome where
  | setEndpoints (endpoints : List Endpoint) (cached : Bool)
  | setException (failure : Failure)
  /-- `assert(!endpoints.empty())` fails. -/
  | assertionFailed
deriving DecidableEq

structure State where
  table : LocatorTable
  adapterRequests : Str → Option Request
  objectRequests : Identity → Option Request
  /-- What the other callers have been told. -/
  told : List (Nat × Outcome)
  /-- What the watched caller's callback has been told. -/
  result : Option Outcome
  /-- How often the clock has been read. -/
  readings : Nat

/-- The locator, the clock, the property `Ice.BackgroundLocatorCacheUpdates`, and which
requests are answered before `addCallback` returns. -/
structure Environment where
  findAdapterById : Str → Answer
  findObjectById : Identity → Answer
  now : Nat → Int
  background : Bool
  promptAdapter : Str → Bool
  promptObject : Identity → Bool

def State.tell (s : State) (callback : Sink) (outcome : Outcome) : State :=
  match callback with
  | .nobody => s
  | .watched => { s with result := some outcome }
  | .other caller => { s with told := s.told ++ [(caller, outcome)] }

/-- The end of `getEndpoints` when the endpoints were in the table. -/
def fromTable (endpoints : List Endpoint) : Outcome :=
  if endpoints = [] then .assertionFailed else .setEndpoints endpoints true

/-- `RequestCallback::response` and `exception`; `resolve` is the call of `getEndpoints` for
an indirect reference. -/
def RequestCallback.deliver (resolve : AdapterReference → RequestCallback → State → State)
    (answer : Answer) (s : State) (callback : RequestCallback) : State :=
  match answer with
  | .exception ex =>
      s.tell callback.callback (.setException (getEndpointsException callback.ref ex))
  | .response proxy =>
      match Locating.RequestCallback.resolved callback.ref proxy with
      | .endpoints found => s.tell callback.callback (.setEndpoints found false)
      | .indirect r => resolve r callback s

/-- `getAdapterRequest`. -/
def State.adapterRequest (s : State) (adapter : Str) : Request :=
  (s.adapterRequests adapter).getD .fresh

/-- `getObjectRequest`. -/
def State.objectRequest (s : State) (id : Identity) : Request :=
  (s.objectRequests id).getD .fresh

/-- `finishRequest` for the request of an adapter. -/
def State.finishAdapter (env : Environment) (s : State) (adapter : Str)
    (wellKnownRefs : List Reference) : State :=
  let finished := (env.findAdapterById adapter).finished
  let table := if leavesUnresolved finished.1 then s.table.forget wellKnownRefs else s.table
  { s with
    table := table.finishAdapter adapter finished.1 finished.2 (env.now s.readings)
    adapterRequests := Function.update s.adapterRequests adapter none
    readings := s.readings + 1 }

/-- `finishRequest` for the request of a well-known object. -/
def State.finishObject (env : Environment) (s : State) (id : Identity)
    (wellKnownRefs : List Reference) : State :=
  let finished := (env.findObjectById id).finished
  let table := if leavesUnresolved finished.1 then s.table.forget wellKnownRefs else s.table
  { s with
    table := table.finishObject id finished.1 finished.2 (env.now s.readings)
    objectRequests := Function.update s.objectRequests id none
    readings := s.readings + 1 }

/-- `Request::response` or `exception` for the request of an adapter. Its callbacks are for
adapter references, which are not led on. -/
def State.answerAdapter (env : Environment) (s : State) (adapter : Str) (request : Request) :
    State :=
  request.callbacks.foldl
    (RequestCallback.deliver (fun _ _ s => s) (env.findAdapterById adapter))
    (s.finishAdapter env adapter request.wellKnownRefs)

/-- A request with a callback added by `Request::addCallback`. -/
def Request.withCallback (request : Request) (callback : RequestCallback)
    (wellKnownRef : Option Reference) : Request where
  callbacks := request.callbacks ++ [callback]
  wellKnownRefs := request.wellKnownRefs ++ wellKnownRef.toList
  sent := true

/-- A request with a caller waiting in `Request::getEndpoints`. -/
def Request.withWaiter (request : Request) (wellKnownRef : Option Reference) : Request where
  callbacks := request.callbacks
  wellKnownRefs := request.wellKnownRefs ++ wellKnownRef.toList
  sent := true

/-- The answer comes before anything else happens to the table. -/
def Request.answered (request : Request) (callback : Sink) (prompt : Bool) : Bool :=
  callback = .watched ∨ (request.sent = false ∧ prompt)

/-- `addCallback` on the request of an adapter. -/
def State.addAdapterCallback (env : Environment) (s : State) (ref : AdapterReference)
    (wellKnownRef : Option Reference) (ttl : Int) (callback : Sink) : State :=
  let adapter := ref.ref.adapterId
  let request := s.adapterRequest adapter
  let joined := request.withCallback ⟨ref.ref, ttl, callback⟩ wellKnownRef
  if request.answered callback (env.promptAdapter adapter) then s.answerAdapter env adapter joined
  else { s with adapterRequests := Function.update s.adapterRequests adapter (some joined) }

/-- `getEndpoints` with a callback, for a reference with an adapter id. -/
def State.getAdapterEndpointsAsync (env : Environment) (s : State) (ref : AdapterReference)
    (wellKnownRef : Option Reference) (ttl : Int) (callback : Sink) : State :=
  let (valid, endpoints) := s.table.getAdapterEndpoints ref.ref.adapterId ttl (env.now s.readings)
  let s := { s with readings := s.readings + 1 }
  if valid then s.tell callback (fromTable endpoints)
  else if env.background ∧ endpoints ≠ [] then
    (s.addAdapterCallback env ref wellKnownRef ttl .nobody).tell callback (fromTable endpoints)
  else s.addAdapterCallback env ref wellKnownRef ttl callback

/-- `getEndpoints` without a callback, for a reference with an adapter id. -/
def State.getAdapterEndpointsSync (env : Environment) (s : State) (ref : AdapterReference)
    (wellKnownRef : Option Reference) (ttl : Int) : Outcome × State :=
  let (valid, endpoints) := s.table.getAdapterEndpoints ref.ref.adapterId ttl (env.now s.readings)
  let s := { s with readings := s.readings + 1 }
  if valid then (fromTable endpoints, s)
  else if env.background ∧ endpoints ≠ [] then
    (fromTable endpoints, s.addAdapterCallback env ref wellKnownRef ttl .nobody)
  else
    let adapter := ref.ref.adapterId
    let after := s.answerAdapter env adapter ((s.adapterRequest adapter).withWaiter wellKnownRef)
    match env.findAdapterById adapter with
    | .exception ex => (.setException (getEndpointsException ref.ref ex), after)
    | .response proxy =>
        match Locating.Request.resolved ref.ref proxy with
        | .endpoints found => (.setEndpoints found false, after)
        | .indirect _ => (.setEndpoints [] false, after)

/-- `RequestCallback::response` goes on with the adapter of the answer. -/
def resolveOn (env : Environment) (r : AdapterReference) (callback : RequestCallback)
    (s : State) : State :=
  s.getAdapterEndpointsAsync env r (some callback.ref) callback.ttl callback.callback

/-- `Request::response` or `exception` for the request of a well-known object. -/
def State.answerObject (env : Environment) (s : State) (id : Identity) (request : Request) :
    State :=
  request.callbacks.foldl (RequestCallback.deliver (resolveOn env) (env.findObjectById id))
    (s.finishObject env id request.wellKnownRefs)

/-- `addCallback` on the request of a well-known object. -/
def State.addObjectCallback (env : Environment) (s : State) (ref : WellKnownReference)
    (ttl : Int) (callback : Sink) : State :=
  let id := identityOf ref.ref
  let request := s.objectRequest id
  let joined := request.withCallback ⟨ref.ref, ttl, callback⟩ none
  if request.answered callback (env.promptObject id) then s.answerObject env id joined
  else { s with objectRequests := Function.update s.objectRequests id (some joined) }

/-- The end of `getEndpoints` with a callback, with the reference that was in the table. -/
def State.followAsync (env : Environment) (s : State) (ref : WellKnownReference) (ttl : Int)
    (callback : Sink) (r : Reference) : State :=
  match LocatorInfo.resolved r with
  | .endpoints found => s.tell callback (fromTable found)
  | .indirect target => s.getAdapterEndpointsAsync env target (some ref.ref) ttl callback

/-- The end of `getEndpoints` without a callback, with the reference that was in the table. -/
def State.followSync (env : Environment) (s : State) (ref : WellKnownReference) (ttl : Int)
    (r : Reference) : Outcome × State :=
  match LocatorInfo.resolved r with
  | .endpoints found => (fromTable found, s)
  | .indirect target => s.getAdapterEndpointsSync env target (some ref.ref) ttl

/-- `getEndpoints` with a callback, for a well-known object. -/
def State.getObjectEndpointsAsync (env : Environment) (s : State) (ref : WellKnownReference)
    (ttl : Int) (callback : Sink) : State :=
  let found := s.table.getObjectReference (identityOf ref.ref) ttl (env.now s.readings)
  let s := { s with readings := s.readings + 1 }
  match found with
  | (true, some r) => s.followAsync env ref ttl callback r
  | (_, some r) =>
      if env.background then
        (s.addObjectCallback env ref ttl .nobody).followAsync env ref ttl callback r
      else s.addObjectCallback env ref ttl callback
  | (_, none) => s.addObjectCallback env ref ttl callback

/-- `Request::getEndpoints` on the request of a well-known object. -/
def State.waitObject (env : Environment) (s : State) (ref : WellKnownReference) (ttl : Int) :
    Outcome × State :=
  let request := (s.objectRequest (identityOf ref.ref)).withWaiter none
  let after := s.answerObject env (identityOf ref.ref) request
  match env.findObjectById (identityOf ref.ref) with
  | .exception ex => (.setException (getEndpointsException ref.ref ex), after)
  | .response proxy =>
      match Locating.Request.resolved ref.ref proxy with
      | .endpoints found => (.setEndpoints found false, after)
      | .indirect r => after.getAdapterEndpointsSync env r (some ref.ref) ttl

/-- `getEndpoints` without a callback, for a well-known object. -/
def State.getObjectEndpointsSync (env : Environment) (s : State) (ref : WellKnownReference)
    (ttl : Int) : Outcome × State :=
  let found := s.table.getObjectReference (identityOf ref.ref) ttl (env.now s.readings)
  let s := { s with readings := s.readings + 1 }
  match found with
  | (true, some r) => s.followSync env ref ttl r
  | (_, some r) =>
      if env.background then
        (s.addObjectCallback env ref ttl .nobody).followSync env ref ttl r
      else s.waitObject env ref ttl
  | (_, none) => s.waitObject env ref ttl

def State.getEndpointsAsync (env : Environment) (s : State) (ref : IndirectReference)
    (ttl : Int) : State :=
  match ref with
  | .adapter ref => s.getAdapterEndpointsAsync env ref none ttl .watched
  | .wellKnown ref => s.getObjectEndpointsAsync env ref ttl .watched

def State.getEndpointsSync (env : Environment) (s : State) (ref : IndirectReference)
    (ttl : Int) : Outcome × State :=
  match ref with
  | .adapter ref => s.getAdapterEndpointsSync env ref none ttl
  | .wellKnown ref => s.getObjectEndpointsSync env ref ttl

theorem answer_adapter_last (env : Environment) (s : State) (ref : AdapterReference)
    (wellKnownRef : Option Reference) (ttl : Int) :
    s.addAdapterCallback env ref wellKnownRef ttl .watched =
      RequestCallback.deliver (fun _ _ s => s) (env.findAdapterById ref.ref.adapterId)
        (s.answerAdapter env ref.ref.adapterId
          ((s.adapterRequest ref.ref.adapterId).withWaiter wellKnownRef))
        ⟨ref.ref, ttl, .watched⟩ := by
  simp [State.addAdapterCallback, Request.answered, State.answerAdapter, Request.withCallback,
    Request.withWaiter, List.foldl_append]

theorem answer_object_last (env : Environment) (s : State) (ref : WellKnownReference)
    (ttl : Int) :
    s.addObjectCallback env ref ttl .watched =
      RequestCallback.deliver (resolveOn env) (env.findObjectById (identityOf ref.ref))
        (s.answerObject env (identityOf ref.ref)
          ((s.objectRequest (identityOf ref.ref)).withWaiter none))
        ⟨ref.ref, ttl, .watched⟩ := by
  simp [State.addObjectCallback, Request.answered, State.answerObject, Request.withCallback,
    Request.withWaiter, List.foldl_append]

theorem adapter_paths_agree (env : Environment) (s : State) (ref : AdapterReference)
    (wellKnownRef : Option Reference) (ttl : Int) :
    s.getAdapterEndpointsAsync env ref wellKnownRef ttl .watched =
      (s.getAdapterEndpointsSync env ref wellKnownRef ttl).2.tell .watched
        (s.getAdapterEndpointsSync env ref wellKnownRef ttl).1 := by
  unfold State.getAdapterEndpointsAsync State.getAdapterEndpointsSync
  cases s.table.getAdapterEndpoints ref.ref.adapterId ttl (env.now s.readings) with
  | mk valid endpoints =>
      cases valid with
      | true => rfl
      | false =>
          by_cases refreshed : env.background ∧ endpoints ≠ []
          · simp only [Bool.false_eq_true, if_false, if_pos refreshed]
          · simp only [Bool.false_eq_true, if_false, if_neg refreshed]
            rw [answer_adapter_last]
            unfold RequestCallback.deliver
            cases env.findAdapterById ref.ref.adapterId with
            | exception ex => rfl
            | response proxy =>
                obtain ⟨found, ends⟩ := request_resolved_adapter ref proxy
                simp only [callback_resolved_adapter, ends]

/-- What the table has for the object, when both paths go by it. When it is none they wait for
the answer of the locator. -/
def State.cached (env : Environment) (s : State) (ref : WellKnownReference) (ttl : Int) :
    Option Reference :=
  match s.table.getObjectReference (identityOf ref.ref) ttl (env.now s.readings) with
  | (true, found) => found
  | (false, found) => if env.background then found else none

/-- The reference that the resolution goes by, which was cached or is the answer to the
request. -/
def State.consulted (env : Environment) (s : State) (ref : WellKnownReference) (ttl : Int) :
    Option Reference :=
  match s.cached env ref ttl with
  | some r => some r
  | none => (env.findObjectById (identityOf ref.ref)).finished.1

/-- The locator's answer for the object is not one that the reference cannot use. -/
def Usable (env : Environment) (ref : WellKnownReference) : Prop :=
  ∀ r, env.findObjectById (identityOf ref.ref) = .response (some r) →
    ¬Unusable ref.ref.encoding r

variable {env : Environment} {s : State} {ref : WellKnownReference} {ttl : Int}

theorem object_async_cached {r : Reference} (cached : s.cached env ref ttl = some r) :
    ∃ before : State, s.getObjectEndpointsAsync env ref ttl .watched =
        before.followAsync env ref ttl .watched r ∧
      s.getObjectEndpointsSync env ref ttl = before.followSync env ref ttl r := by
  unfold State.cached at cached
  unfold State.getObjectEndpointsAsync State.getObjectEndpointsSync
  cases looked : s.table.getObjectReference (identityOf ref.ref) ttl (env.now s.readings) with
  | mk valid found =>
      simp only [looked] at cached
      cases valid with
      | true =>
          cases cached
          exact ⟨_, rfl, rfl⟩
      | false =>
          by_cases refreshed : env.background = true
          · simp only [if_pos refreshed] at cached
            subst cached
            simp only [if_pos refreshed]
            exact ⟨_, rfl, rfl⟩
          · simp only [if_neg refreshed] at cached
            cases cached

theorem object_async_asked (asked : s.cached env ref ttl = none) :
    ∃ before : State, s.getObjectEndpointsAsync env ref ttl .watched =
        before.addObjectCallback env ref ttl .watched ∧
      s.getObjectEndpointsSync env ref ttl = before.waitObject env ref ttl := by
  unfold State.cached at asked
  unfold State.getObjectEndpointsAsync State.getObjectEndpointsSync
  cases looked : s.table.getObjectReference (identityOf ref.ref) ttl (env.now s.readings) with
  | mk valid found =>
      simp only [looked] at asked
      cases found with
      | none => cases valid <;> exact ⟨_, rfl, rfl⟩
      | some r =>
          cases valid with
          | true => cases asked
          | false =>
              by_cases refreshed : env.background = true
              · simp only [if_pos refreshed] at asked
                cases asked
              · simp only [if_neg refreshed]
                exact ⟨_, rfl, rfl⟩

theorem following_paths_agree (env : Environment) (s : State) (ref : WellKnownReference)
    (ttl : Int) (r : Reference) :
    s.followAsync env ref ttl .watched r =
      (s.followSync env ref ttl r).2.tell .watched (s.followSync env ref ttl r).1 := by
  unfold State.followAsync State.followSync
  cases LocatorInfo.resolved r with
  | endpoints found => rfl
  | indirect target => exact adapter_paths_agree env s target (some ref.ref) ttl

theorem waiting_paths_agree (usable : Usable env ref) (s : State) (ttl : Int) :
    s.addObjectCallback env ref ttl .watched =
      (s.waitObject env ref ttl).2.tell .watched (s.waitObject env ref ttl).1 := by
  rw [answer_object_last]
  unfold RequestCallback.deliver State.waitObject
  cases answer : env.findObjectById (identityOf ref.ref) with
  | exception ex => rfl
  | response proxy =>
      have same : Locating.RequestCallback.resolved ref.ref proxy =
          Locating.Request.resolved ref.ref proxy := by
        cases proxy with
        | none => rfl
        | some r => exact (callback_resolved_well_known ref r).mpr (usable r answer)
      simp only [same]
      cases Locating.Request.resolved ref.ref proxy with
      | endpoints found => rfl
      | indirect r => exact adapter_paths_agree env _ r (some ref.ref) ttl

@[simp] theorem tell_readings (s : State) (callback : Sink) (outcome : Outcome) :
    (s.tell callback outcome).readings = s.readings := by
  cases callback <;> rfl

theorem deliver_adapter_readings (answer : Answer) (s : State) (callback : RequestCallback) :
    (RequestCallback.deliver (fun _ _ s => s) answer s callback).readings = s.readings := by
  unfold RequestCallback.deliver
  cases answer with
  | exception ex => exact tell_readings _ _ _
  | response proxy =>
      simp only
      split
      · exact tell_readings _ _ _
      · rfl

theorem answer_adapter_readings (env : Environment) (s : State) (adapter : Str)
    (request : Request) :
    (s.answerAdapter env adapter request).readings = s.readings + 1 := by
  have delivered : ∀ (callbacks : List RequestCallback) (s : State),
      (callbacks.foldl (RequestCallback.deliver (fun _ _ s => s) (env.findAdapterById adapter))
        s).readings = s.readings := by
    intro callbacks
    induction callbacks with
    | nil => intro s; rfl
    | cons callback callbacks ih =>
        intro s
        rw [List.foldl_cons, ih, deliver_adapter_readings]
  exact delivered _ _

theorem adapter_sync_readings (env : Environment) (s : State) (ref : AdapterReference)
    (wellKnownRef : Option Reference) (ttl : Int) :
    s.readings < (s.getAdapterEndpointsSync env ref wellKnownRef ttl).2.readings := by
  unfold State.getAdapterEndpointsSync
  cases s.table.getAdapterEndpoints ref.ref.adapterId ttl (env.now s.readings) with
  | mk valid endpoints =>
      cases valid with
      | true => exact Nat.lt_succ_self _
      | false =>
          by_cases refreshed : env.background ∧ endpoints ≠ []
          · simp only [Bool.false_eq_true, if_false, if_pos refreshed, State.addAdapterCallback]
            split
            · rw [answer_adapter_readings]
              simp only
              omega
            · exact Nat.lt_succ_self _
          · simp only [Bool.false_eq_true, if_false, if_neg refreshed]
            split
            · simp only [answer_adapter_readings]
              omega
            · split <;> simp only [answer_adapter_readings] <;> omega

/-- An answer that the reference cannot use ends the resolution with a callback, and the one
without goes on with it. -/
theorem waiting_paths_differ {r : Reference}
    (answer : env.findObjectById (identityOf ref.ref) = .response (some r))
    (unusable : Unusable ref.ref.encoding r) (s : State) (ttl : Int) :
    s.addObjectCallback env ref ttl .watched ≠
      (s.waitObject env ref ttl).2.tell .watched (s.waitObject env ref ttl).1 := by
  have refused : Locating.RequestCallback.resolved ref.ref (some r) = .endpoints [] := by
    simp [Locating.RequestCallback.resolved, ref.wellKnown, unusable.1]
  have taken : Locating.Request.resolved ref.ref (some r) = resolved true r := by
    simp [Locating.Request.resolved, ref.wellKnown]
  rw [answer_object_last]
  simp only [RequestCallback.deliver, State.waitObject, answer, refused, taken]
  intro same
  cases leads : resolved true r with
  | endpoints found =>
      rw [leads] at same
      have results := congrArg State.result same
      simp only [State.tell, Option.some.injEq, Outcome.setEndpoints.injEq] at results
      exact unusable.2 (by rw [leads, ← results.1])
  | indirect target =>
      rw [leads] at same
      have readings := congrArg State.readings same
      simp only [tell_readings] at readings
      have consulted := adapter_sync_readings env
        (s.answerObject env (identityOf ref.ref)
          ((s.objectRequest (identityOf ref.ref)).withWaiter none)) target (some ref.ref) ttl
      omega

/-- The two paths end alike: the callback is told what the call without one returns or throws,
and the table, the pending requests and what the other callers are told are the same. -/
def SameEnd (env : Environment) (s : State) (ref : IndirectReference) (ttl : Int) : Prop :=
  s.getEndpointsAsync env ref ttl =
    (s.getEndpointsSync env ref ttl).2.tell .watched (s.getEndpointsSync env ref ttl).1

theorem object_paths_agree :
    SameEnd env s (.wellKnown ref) ttl ↔ (s.cached env ref ttl = none → Usable env ref) := by
  unfold SameEnd State.getEndpointsAsync State.getEndpointsSync
  cases cached : s.cached env ref ttl with
  | some r =>
      obtain ⟨before, async, sync⟩ := object_async_cached cached
      simp only [async, sync, following_paths_agree, reduceCtorEq, false_implies]
  | none =>
      obtain ⟨before, async, sync⟩ := object_async_asked cached
      simp only [async, sync, forall_const]
      constructor
      · intro same r answer unusable
        exact waiting_paths_differ answer unusable before ttl same
      · exact fun usable => waiting_paths_agree usable before ttl

/-- Besides, the reference that a resolution goes by counts for the same on both paths and on
the path that finds it in the table. -/
structure PathsAgree (env : Environment) (s : State) (ref : IndirectReference) (ttl : Int) :
    Prop where
  sameEnd : SameEnd env s ref ttl
  sameTreatment : ∀ target r, ref = .wellKnown target → s.consulted env target ttl = some r →
    Locating.RequestCallback.resolved target.ref (some r) =
        Locating.Request.resolved target.ref (some r) ∧
      Locating.Request.resolved target.ref (some r) = LocatorInfo.resolved r

/-- The ends are alike exactly when no request is needed or its answer can be used, and the
treatment is the same exactly when what was cached or answered can be used. -/
theorem locator_paths_agree (env : Environment) (s : State) (ref : IndirectReference)
    (ttl : Int) :
    (SameEnd env s ref ttl ↔
        ∀ target, ref = .wellKnown target → s.cached env target ttl = none → Usable env target) ∧
      (PathsAgree env s ref ttl ↔
        ∀ target r, ref = .wellKnown target → s.consulted env target ttl = some r →
          ¬Unusable target.ref.encoding r) := by
  have ends : SameEnd env s ref ttl ↔
      ∀ target, ref = .wellKnown target → s.cached env target ttl = none → Usable env target := by
    cases ref with
    | adapter target =>
        constructor
        · intro _ other absurdity
          cases absurdity
        · exact fun _ => adapter_paths_agree env s target none ttl
    | wellKnown target =>
        rw [object_paths_agree]
        constructor
        · intro usable other same
          cases same
          exact usable
        · exact fun usable => usable target rfl
  refine ⟨ends, ?_, ?_⟩
  · intro agree target r isTarget consulted
    exact (callback_resolved_well_known target r).mp
      (agree.sameTreatment target r isTarget consulted).1
  · intro usable
    refine ⟨ends.mpr ?_, ?_⟩
    · intro target isTarget asked r answer
      apply usable target r isTarget
      simp [State.consulted, asked, answer, Answer.finished]
    · intro target r isTarget consulted
      refine ⟨(callback_resolved_well_known target r).mpr (usable target r isTarget consulted), ?_⟩
      simp [Locating.Request.resolved, LocatorInfo.resolved, target.wellKnown]

theorem example_identified : ¬(([111] : Str) = [] ∧ ([] : Str) = []) := by
  decide

def exampleReference (encoding : Version) (endpoints : List Endpoint) : Reference where
  name := [111]
  category := []
  facet := []
  mode := .twoway
  secure := false
  protocol := ⟨1, 0⟩
  encoding := encoding
  endpoints := endpoints
  adapterId := []
  identified := example_identified
  direct := fun _ => rfl

def exampleEnvironment : Environment where
  findAdapterById := fun _ => .exception .adapterNotFound
  findObjectById := fun _ =>
    .response (some (exampleReference ⟨1, 0⟩ [.tcp [] 4061 60000 false]))
  now := fun _ => 0
  background := false
  promptAdapter := fun _ => false
  promptObject := fun _ => false

def exampleState : State where
  table := .empty
  adapterRequests := fun _ => none
  objectRequests := fun _ => none
  told := []
  result := none
  readings := 0

def exampleTarget : WellKnownReference := ⟨exampleReference ⟨1, 1⟩ [], rfl⟩

/-- A well-known proxy of encoding 1.1, resolved with an infinite cache timeout: the callback
is told that there are no endpoints, the call without a callback returns one. -/
theorem encoding_not_checked_without_callback :
    (exampleState.getEndpointsAsync exampleEnvironment (.wellKnown exampleTarget) (-1)).result =
        some (.setEndpoints [] false) ∧
      (exampleState.getEndpointsSync exampleEnvironment (.wellKnown exampleTarget) (-1)).1 =
        .setEndpoints [.tcp [] 4061 60000 false] false ∧
      ¬PathsAgree exampleEnvironment exampleState (.wellKnown exampleTarget) (-1) := by
  refine ⟨rfl, rfl, fun agree => ?_⟩
  have same := congrArg State.result agree.sameEnd
  exact absurd same (by decide)

end IceTouch.Locating.Resolution

import IceTouch.Strings.Identities

/-!
# What a locator answers and what is kept of it

`LocatorTable`, and the parts of `LocatorInfo` that look only at a reference and an answer:
`finishRequest` on the table, and what each of the three paths of a resolution makes of a
reference. Every proxy that a locator answers with was unmarshalled, so its reference is a
routable one: a fixed proxy cannot be marshalled, and both operations are `amd`, which a
collocated call never gets an answer from. Times are in microseconds.
-/

namespace IceTouch.Locating

open Bytes WireTypes Escape Identities

def identityOf (ref : Reference) : Identity := ⟨ref.name, ref.category⟩

def isIndirect (ref : Reference) : Bool := ref.endpoints.isEmpty

def isWellKnown (ref : Reference) : Bool := ref.endpoints.isEmpty && ref.adapterId.isEmpty

def isSupported (version supported : Version) : Bool :=
  version.major = supported.major ∧ version.minor ≤ supported.minor

structure AdapterReference where
  ref : Reference
  indirect : isIndirect ref = true
  named : isWellKnown ref = false
deriving DecidableEq

structure WellKnownReference where
  ref : Reference
  wellKnown : isWellKnown ref = true
deriving DecidableEq

/-- A reference that passes `assert(ref->isIndirect())`. -/
inductive IndirectReference where
  | adapter (ref : AdapterReference)
  | wellKnown (ref : WellKnownReference)
deriving DecidableEq

def IndirectReference.ref : IndirectReference → Reference
  | .adapter target => target.ref
  | .wellKnown target => target.ref

inductive Resolved where
  | endpoints (found : List Endpoint)
  /-- The endpoints of the adapter are to be resolved. -/
  | indirect (r : AdapterReference)
deriving DecidableEq

/-- The branches on `isIndirect` and `isWellKnown`, which all paths share. Only the
resolution of a well-known object goes on with an indirect reference. -/
def resolved (wellKnown : Bool) (r : Reference) : Resolved :=
  if indirect : isIndirect r = true then
    if onwards : wellKnown = true ∧ isWellKnown r = false then
      .indirect ⟨r, indirect, onwards.2⟩
    else .endpoints []
  else .endpoints r.endpoints

/-- `RequestCallback::response` up to the calls it makes. -/
def RequestCallback.resolved (ref : Reference) : Option Reference → Resolved
  | none => .endpoints []
  | some r =>
      if isWellKnown ref ∧ ¬isSupported ref.encoding r.encoding then .endpoints []
      else Locating.resolved (isWellKnown ref) r

/-- `Request::getEndpoints` once the answer is there. -/
def Request.resolved (ref : Reference) : Option Reference → Resolved
  | none => .endpoints []
  | some r => Locating.resolved (isWellKnown ref) r

/-- `LocatorInfo::getEndpoints` with the reference that was in the table. -/
def LocatorInfo.resolved (r : Reference) : Resolved := Locating.resolved true r

inductive Failure where
  | notRegistered (kindOfObject id : Str)
  | local (reason : Nat)
deriving DecidableEq, Repr

inductive LocatorException where
  | adapterNotFound
  | objectNotFound
  | failed (failure : Failure)
deriving DecidableEq, Repr

/-- The cast to `UserException` in `Request::exception`. -/
def LocatorException.notRegistered : LocatorException → Bool
  | .adapterNotFound | .objectNotFound => true
  | .failed _ => false

/-- `Instance::identityToString`, which does not fail on its own separator. -/
def identityText (ident : Identity) : Str :=
  match identityToString ident with
  | .ok s => s
  | .error _ => []

/-- `LocatorInfo::getEndpointsException`. -/
def getEndpointsException (ref : Reference) : LocatorException → Failure
  | .adapterNotFound => .notRegistered (text "object adapter") ref.adapterId
  | .objectNotFound => .notRegistered (text "object") (identityText (identityOf ref))
  | .failed failure => failure

inductive Answer where
  | response (proxy : Option Reference)
  | exception (ex : LocatorException)
deriving DecidableEq

structure LocatorTable where
  adapterEndpointsMap : Str → Option (Int × List Endpoint)
  objectMap : Identity → Option (Int × Reference)

def LocatorTable.empty : LocatorTable where
  adapterEndpointsMap := fun _ => none
  objectMap := fun _ => none

def checkTTL (now time ttl : Int) : Bool :=
  ttl < 0 || now - time ≤ 1000000 * ttl

/-- Whether the entry is there and not too old, and the endpoints, also those of an old one. -/
def LocatorTable.getAdapterEndpoints (table : LocatorTable) (adapter : Str) (ttl now : Int) :
    Bool × List Endpoint :=
  if ttl = 0 then (false, [])
  else
    match table.adapterEndpointsMap adapter with
    | none => (false, [])
    | some (time, endpoints) => (checkTTL now time ttl, endpoints)

def LocatorTable.getObjectReference (table : LocatorTable) (id : Identity) (ttl now : Int) :
    Bool × Option Reference :=
  if ttl = 0 then (false, none)
  else
    match table.objectMap id with
    | none => (false, none)
    | some (time, ref) => (checkTTL now time ttl, some ref)

def LocatorTable.addAdapterEndpoints (table : LocatorTable) (adapter : Str)
    (endpoints : List Endpoint) (now : Int) : LocatorTable :=
  { table with
    adapterEndpointsMap := Function.update table.adapterEndpointsMap adapter
      (some (now, endpoints)) }

def LocatorTable.removeAdapterEndpoints (table : LocatorTable) (adapter : Str) : LocatorTable :=
  { table with
    adapterEndpointsMap := Function.update table.adapterEndpointsMap adapter none }

def LocatorTable.addObjectReference (table : LocatorTable) (id : Identity) (ref : Reference)
    (now : Int) : LocatorTable :=
  { table with objectMap := Function.update table.objectMap id (some (now, ref)) }

def LocatorTable.removeObjectReference (table : LocatorTable) (id : Identity) : LocatorTable :=
  { table with objectMap := Function.update table.objectMap id none }

/-- The loop of `finishRequest` over the references of well-known objects. -/
def LocatorTable.forget (table : LocatorTable) (wellKnownRefs : List Reference) : LocatorTable :=
  wellKnownRefs.foldl (fun table ref => table.removeObjectReference (identityOf ref)) table

/-- The test on the answer before that loop. -/
def leavesUnresolved : Option Reference → Bool
  | none => true
  | some r => isIndirect r

def LocatorTable.finishAdapter (table : LocatorTable) (adapter : Str)
    (proxy : Option Reference) (notRegistered : Bool) (now : Int) : LocatorTable :=
  match proxy with
  | some r =>
      if isIndirect r then table else table.addAdapterEndpoints adapter r.endpoints now
  | none => if notRegistered then table.removeAdapterEndpoints adapter else table

def LocatorTable.finishObject (table : LocatorTable) (id : Identity)
    (proxy : Option Reference) (notRegistered : Bool) (now : Int) : LocatorTable :=
  match proxy with
  | some r => if isWellKnown r then table else table.addObjectReference id r now
  | none => if notRegistered then table.removeObjectReference id else table

/-- The proxy and the flag that `Request::response` and `Request::exception` hand on to
`finishRequest`. -/
def Answer.finished : Answer → Option Reference × Bool
  | .response proxy => (proxy, false)
  | .exception ex => (none, ex.notRegistered)

/-- The last step of `finishRequest` on the table. -/
def LocatorTable.store (table : LocatorTable) (ref : IndirectReference) (answer : Answer)
    (now : Int) : LocatorTable :=
  match ref with
  | .adapter target =>
      table.finishAdapter target.ref.adapterId answer.finished.1 answer.finished.2 now
  | .wellKnown target =>
      table.finishObject (identityOf target.ref) answer.finished.1 answer.finished.2 now

theorem resolved_indirect {wellKnown : Bool} {r : Reference} {target : AdapterReference}
    (leads : resolved wellKnown r = .indirect target) : wellKnown = true ∧ r = target.ref := by
  unfold resolved at leads
  split at leads
  · split at leads
    · next onwards =>
        cases leads
        exact ⟨onwards.1, rfl⟩
    · cases leads
  · cases leads

theorem request_resolved_adapter (ref : AdapterReference) (proxy : Option Reference) :
    ∃ found, Request.resolved ref.ref proxy = .endpoints found := by
  cases proxy with
  | none => exact ⟨[], rfl⟩
  | some r =>
      cases led : Request.resolved ref.ref (some r) with
      | endpoints found => exact ⟨found, rfl⟩
      | indirect target =>
          have wellKnown := (resolved_indirect led).1
          rw [ref.named] at wellKnown
          cases wellKnown

theorem callback_resolved_adapter (ref : AdapterReference) (proxy : Option Reference) :
    RequestCallback.resolved ref.ref proxy = Request.resolved ref.ref proxy := by
  cases proxy with
  | none => rfl
  | some r => simp [RequestCallback.resolved, Request.resolved, ref.named]

/-- An answer that a reference of this encoding cannot use, although there is something in it
to use. -/
def Unusable (encoding : Version) (r : Reference) : Prop :=
  isSupported encoding r.encoding = false ∧ resolved true r ≠ .endpoints []

instance (encoding : Version) (r : Reference) : Decidable (Unusable encoding r) := by
  unfold Unusable
  infer_instance

theorem callback_resolved_well_known (ref : WellKnownReference) (r : Reference) :
    RequestCallback.resolved ref.ref (some r) = Request.resolved ref.ref (some r) ↔
      ¬Unusable ref.ref.encoding r := by
  unfold RequestCallback.resolved Request.resolved Unusable
  rw [ref.wellKnown]
  by_cases supported : isSupported ref.ref.encoding r.encoding = true
  · simp [supported]
  · have unsupported : isSupported ref.ref.encoding r.encoding = false := by
      simpa using supported
    simp only [unsupported, Bool.false_eq_true, not_false_eq_true, and_self, if_true, true_and,
      not_not]
    exact eq_comm

end IceTouch.Locating

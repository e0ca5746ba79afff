import IceTouch.Connection.Wire
import IceTouch.References.Reference

/-!
# Creating a connection for a reference

`RoutableReference::createConnection` with and without a callback. The endpoints are of any
class; the factory is a parameter that answers a list of endpoints with a connection or with an
exception. Both variants are given the same random numbers, that is, the same shuffle. What is
compared are the calls of the factory's `create` and what becomes of them.
-/

namespace IceTouch.References.CreateConnection

open Connection WireTypes References

/-- What `filterEndpoints` asks of an endpoint. -/
structure EndpointI (ε : Type) where
  isOpaque : ε → Bool
  datagram : ε → Bool
  secure : ε → Bool

structure DefaultsAndOverrides where
  overrideSecure : Bool
  overrideSecureValue : Bool

/-- What both variants share: the reference, the overrides of its instance, the adapter of its
router, the random shuffle, the answers of the factory, and the exception for a reference
without endpoints. Connections come with their compress flag. -/
structure Setting (ε κ χ α : Type) where
  endpointI : EndpointI ε
  reference : RoutableReference Reference
  overrides : DefaultsAndOverrides
  routerAdapter : Option α
  shuffle : List ε → List ε
  create : List ε → Except χ κ
  noEndpoint : χ

structure Call (ε : Type) where
  endpoints : List ε
  hasMore : Bool
  selType : EndpointSelectionType
deriving DecidableEq

inductive Outcome (κ χ α : Type) where
  /-- The connection, with the adapter that was set. -/
  | connection (connection : κ) (adapter : Option α)
  | exception (ex : χ)
  | assertionFailed
deriving DecidableEq

structure Creation (ε κ χ α : Type) where
  calls : List (Call ε)
  outcome : Outcome κ χ α
deriving DecidableEq

variable {ε κ χ α : Type}

/-- `stable_partition`. -/
def stablePartition (pred : ε → Bool) (endpoints : List ε) : List ε :=
  endpoints.filter pred ++ endpoints.filter fun endpoint => !pred endpoint

def filterEndpoints (setting : Setting ε κ χ α) (allEndpoints : List ε) : List ε :=
  let known := allEndpoints.filter fun endpoint => !setting.endpointI.isOpaque endpoint
  let ofMode :=
    match setting.reference.base.mode with
    | .twoway | .oneway | .batchOneway =>
        known.filter fun endpoint => !setting.endpointI.datagram endpoint
    | .datagram | .batchDatagram => known.filter setting.endpointI.datagram
  let sorted :=
    match setting.reference.endpointSelection with
    | .random => setting.shuffle ofMode
    | .ordered => ofMode
  if (if setting.overrides.overrideSecure then setting.overrides.overrideSecureValue
      else setting.reference.base.secure) then
    sorted.filter setting.endpointI.secure
  else if setting.reference.preferSecure then
    stablePartition setting.endpointI.secure sorted
  else stablePartition (fun endpoint => !setting.endpointI.secure endpoint) sorted

/-- The answer to a call whose exception is not caught. -/
def answered (setting : Setting ε κ χ α) : Except χ κ → Outcome κ χ α
  | .ok connection => .connection connection setting.routerAdapter
  | .error ex => .exception ex

/-- The loop over the endpoints that are left, with the exception that is remembered. -/
def tryEndpoints (setting : Setting ε κ χ α) : Option χ → List ε → Creation ε κ χ α
  | none, [] => ⟨[], .assertionFailed⟩
  | some exception, [] => ⟨[], .exception exception⟩
  | _, endpoint :: rest =>
      -- `p + 1 == endpoints.end()`
      let call := ⟨[endpoint], rest.isEmpty, setting.reference.endpointSelection⟩
      match setting.create [endpoint] with
      | .ok connection => ⟨[call], .connection connection setting.routerAdapter⟩
      | .error ex =>
          let later := tryEndpoints setting (some ex) rest
          ⟨call :: later.calls, later.outcome⟩

def createConnection (setting : Setting ε κ χ α) (allEndpoints : List ε) : Creation ε κ χ α :=
  let endpoints := filterEndpoints setting allEndpoints
  if endpoints = [] then ⟨[], .exception setting.noEndpoint⟩
  else if setting.reference.cacheConnection ∨ endpoints.length = 1 then
    ⟨[⟨endpoints, false, setting.reference.endpointSelection⟩],
      answered setting (setting.create endpoints)⟩
  else tryEndpoints setting none endpoints

/-- `CB2` is told the answer of the factory for the endpoint with the index `_i`. -/
def told (setting : Setting ε κ χ α) (endpoints : List ε) (i : Nat) (exception : Option χ) :
    Except χ κ → Creation ε κ χ α
  | .ok connection => ⟨[], .connection connection setting.routerAdapter⟩
  | .error ex =>
      let first := exception.getD ex
      -- `++_i == _endpoints.size()`
      if inside : i + 1 < endpoints.length then
        let more := i + 1 != endpoints.length - 1
        let endpoint := endpoints[i + 1]
        let later := told setting endpoints (i + 1) (some first) (setting.create [endpoint])
        ⟨⟨[endpoint], more, setting.reference.endpointSelection⟩ :: later.calls, later.outcome⟩
      else ⟨[], .exception first⟩
termination_by endpoints.length - i

def createConnectionAsync (setting : Setting ε κ χ α) (allEndpoints : List ε) :
    Creation ε κ χ α :=
  match filterEndpoints setting allEndpoints with
  | [] => ⟨[], .exception setting.noEndpoint⟩
  | endpoint :: rest =>
      let endpoints := endpoint :: rest
      if setting.reference.cacheConnection ∨ endpoints.length = 1 then
        ⟨[⟨endpoints, false, setting.reference.endpointSelection⟩],
          answered setting (setting.create endpoints)⟩
      else
        let later := told setting endpoints 0 none (setting.create [endpoint])
        ⟨⟨[endpoint], true, setting.reference.endpointSelection⟩ :: later.calls, later.outcome⟩

def tried (create : List ε → Except χ κ) : List ε → List ε
  | [] => []
  | endpoint :: rest =>
      match create [endpoint] with
      | .ok _ => [endpoint]
      | .error _ => endpoint :: tried create rest

def winner (create : List ε → Except χ κ) : List ε → Option κ
  | [] => none
  | endpoint :: rest =>
      match create [endpoint] with
      | .ok connection => some connection
      | .error _ => winner create rest

def Outcome.connection? : Outcome κ χ α → Option κ
  | .connection made _ => some made
  | _ => none

structure Creation.Follows (creation : Creation ε κ χ α) (endpoints : List ε)
    (connection : Option κ) : Prop where
  endpoints : creation.calls.map Call.endpoints = endpoints.map fun endpoint => [endpoint]
  connection : creation.outcome.connection? = connection

theorem try_endpoints_follows (setting : Setting ε κ χ α) (exception : Option χ)
    (endpoints : List ε) :
    (tryEndpoints setting exception endpoints).Follows (tried setting.create endpoints)
      (winner setting.create endpoints) := by
  induction endpoints generalizing exception with
  | nil => cases exception <;> exact ⟨rfl, rfl⟩
  | cons endpoint rest ih =>
      rw [tryEndpoints, tried, winner]
      cases setting.create [endpoint] with
      | ok connection => exact ⟨rfl, rfl⟩
      | error ex =>
          have later := ih (some ex)
          refine ⟨?_, later.connection⟩
          rw [List.map_cons, List.map_cons, later.endpoints]

theorem told_follows (setting : Setting ε κ χ α) (endpoints rest : List ε) (endpoint : ε) (i : Nat)
    (exception : Option χ) (here : endpoints.drop i = endpoint :: rest) :
    (⟨⟨[endpoint], true, setting.reference.endpointSelection⟩ ::
        (told setting endpoints i exception (setting.create [endpoint])).calls,
      (told setting endpoints i exception (setting.create [endpoint])).outcome⟩ :
        Creation ε κ χ α).Follows (tried setting.create (endpoint :: rest))
      (winner setting.create (endpoint :: rest)) := by
  induction rest generalizing endpoint i exception with
  | nil =>
      rw [tried, winner, tried, winner]
      cases setting.create [endpoint] with
      | ok connection =>
          rw [told]
          exact ⟨rfl, rfl⟩
      | error ex =>
          have outside : ¬i + 1 < endpoints.length := by
            have length := congrArg List.length here
            simp at length
            omega
          rw [told, dif_neg outside]
          exact ⟨rfl, rfl⟩
  | cons next rest ih =>
      rw [tried, winner]
      cases setting.create [endpoint] with
      | ok connection =>
          rw [told]
          exact ⟨rfl, rfl⟩
      | error ex =>
          have inside : i + 1 < endpoints.length := by
            have length := congrArg List.length here
            simp at length
            omega
          have behind : endpoints.drop (i + 1) = next :: rest := by
            rw [← List.drop_drop, here, List.drop_succ_cons, List.drop_zero]
          have element : endpoints[i + 1] = next := by
            have head := List.drop_eq_getElem_cons inside
            rw [behind] at head
            exact (List.cons.inj head).1.symm
          have later := ih next (i + 1) (some (exception.getD ex)) behind
          rw [told, dif_pos inside, element]
          refine ⟨?_, later.connection⟩
          have calls := later.endpoints
          rw [List.map_cons] at calls ⊢
          rw [List.map_cons, List.map_cons, ← calls]

/-- In the same order both variants try the same endpoints, and they succeed on the same one. -/
theorem same_endpoints_tried (setting : Setting ε κ χ α) (allEndpoints : List ε) :
    (createConnection setting allEndpoints).calls.map Call.endpoints =
        (createConnectionAsync setting allEndpoints).calls.map Call.endpoints ∧
      (createConnection setting allEndpoints).outcome.connection? =
        (createConnectionAsync setting allEndpoints).outcome.connection? := by
  rw [createConnection, createConnectionAsync]
  cases filterEndpoints setting allEndpoints with
  | nil => exact ⟨rfl, rfl⟩
  | cons endpoint rest =>
      rw [if_neg (List.cons_ne_nil endpoint rest)]
      dsimp only
      by_cases shared : setting.reference.cacheConnection = true ∨ (endpoint :: rest).length = 1
      · rw [if_pos shared, if_pos shared]
        exact ⟨rfl, rfl⟩
      · rw [if_neg shared, if_neg shared]
        have loop := try_endpoints_follows setting none (endpoint :: rest)
        have chain := told_follows setting (endpoint :: rest) rest endpoint 0 none rfl
        exact ⟨loop.endpoints.trans chain.endpoints.symm,
          loop.connection.trans chain.connection.symm⟩

/-- The two variants make the same calls with the same arguments and have the same outcome
exactly when connections are cached or at most one endpoint is left to try: otherwise only the
one with a callback tells the factory that there are more endpoints. -/
theorem variants_agree_iff (setting : Setting ε κ χ α) (allEndpoints : List ε) :
    createConnection setting allEndpoints = createConnectionAsync setting allEndpoints ↔
      setting.reference.cacheConnection = true ∨
        (filterEndpoints setting allEndpoints).length ≤ 1 := by
  rw [createConnection, createConnectionAsync]
  cases filterEndpoints setting allEndpoints with
  | nil => exact ⟨fun _ => .inr (Nat.zero_le 1), fun _ => rfl⟩
  | cons endpoint rest =>
      rw [if_neg (List.cons_ne_nil endpoint rest)]
      dsimp only
      by_cases shared : setting.reference.cacheConnection = true ∨ (endpoint :: rest).length = 1
      · rw [if_pos shared, if_pos shared]
        exact ⟨fun _ => shared.imp_right le_of_eq, fun _ => rfl⟩
      · rw [if_neg shared, if_neg shared]
        obtain ⟨uncached, several⟩ := not_or.mp shared
        cases rest with
        | nil => exact absurd rfl several
        | cons next rest =>
            constructor
            · intro same
              -- The first call: the loop says that there are no more endpoints.
              have calls := congrArg (fun creation => creation.calls.map Call.hasMore) same
              rw [tryEndpoints] at calls
              cases answer : setting.create [endpoint] with
              | ok connection => simp [answer] at calls
              | error ex => simp [answer] at calls
            · intro agree
              cases agree with
              | inl cached => exact absurd cached uncached
              | inr few => simp at few

/-- The classes of endpoints, as `filterEndpoints` sees them. -/
def endpointClasses : EndpointI Endpoint := ⟨Endpoint.isOpaque, Endpoint.datagram, Endpoint.secure⟩

/-- `tcp -h h -p port` -/
def tcpAt (port : BitVec 32) : Endpoint := .tcp ⟨[104], port, -1, [], false⟩

def refuse : List Endpoint → Except LocalException Unit
  | .tcp endpoint :: _ => .error (.socket endpoint.port.toNat)
  | _ => .ok ()

/-- A proxy that does not cache connections. -/
def refusing : Setting Endpoint Unit LocalException Unit where
  endpointI := endpointClasses
  reference :=
    { base :=
        { mode := .twoway, secure := false, identity := ⟨[105], []⟩, context := [], facet := []
          protocol := ⟨1, 0⟩, encoding := ⟨1, 1⟩, overrideCompress := false, compress := false }
      endpoints := [tcpAt 1, tcpAt 2]
      adapterId := []
      locatorInfo := none
      routerInfo := none
      collocationOptimized := true
      cacheConnection := false
      preferSecure := false
      endpointSelection := .ordered
      locatorCacheTimeout := -1
      overrideTimeout := false
      timeout := -1
      connectionId := [] }
  overrides := ⟨false, false⟩
  routerAdapter := none
  shuffle := id
  create := refuse
  noEndpoint := .other 0

theorem refusing_sync :
    createConnection refusing refusing.reference.endpoints =
      ⟨[⟨[tcpAt 1], false, .ordered⟩, ⟨[tcpAt 2], true, .ordered⟩], .exception (.socket 2)⟩ := by
  decide

theorem refusing_async :
    createConnectionAsync refusing refusing.reference.endpoints =
      ⟨[⟨[tcpAt 1], true, .ordered⟩, ⟨[tcpAt 2], false, .ordered⟩], .exception (.socket 1)⟩ := by
  have filtered : filterEndpoints refusing refusing.reference.endpoints = [tcpAt 1, tcpAt 2] := by
    decide
  rw [createConnectionAsync, filtered]
  simp [refusing, told, refuse, tcpAt]

/-- The loop says that there are more endpoints where it is at the last one, and reports the
exception of the last one; the callback says so before the last one, and reports the first. -/
theorem variants_differ :
    ¬∀ (setting : Setting Endpoint Unit LocalException Unit) (allEndpoints : List Endpoint),
      createConnection setting allEndpoints = createConnectionAsync setting allEndpoints := by
  intro claimed
  have same := claimed refusing refusing.reference.endpoints
  rw [refusing_sync, refusing_async] at same
  revert same
  decide

end IceTouch.References.CreateConnection

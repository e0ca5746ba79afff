import IceTouch.Library.Machine
import IceTouch.Library.Multimap
import IceTouch.Transports.Identification

/-!
# The connections that an outgoing connection factory has

`OutgoingConnectionFactory` files every connection under its connector and under its endpoint,
with and without compression. Which connection it finds depends on the operators of the keys,
and they do not tell a connector from the one of the other protocol. The hash of an accessory
and the comparison of protocol names are parameters.
-/

namespace IceTouch.Transports

open Bytes WireTypes Escape Comparison
open Machine Multimap
open References (stringLess intLess)

/-- `hash` of an accessory object and `compare:` of a string object. -/
structure Foundation where
  hash : Accessory → Nat
  compare : Str → Str → Ordering

def AccessoryConnector.less (foundation : Foundation) (connector other : AccessoryConnector) :
    Bool :=
  decided (intLess connector.timeout other.timeout) (intLess other.timeout connector.timeout) <|
  decided (stringLess connector.connectionId other.connectionId)
    (stringLess other.connectionId connector.connectionId) <|
  decided (foundation.hash connector.accessory < foundation.hash other.accessory)
    (foundation.hash other.accessory < foundation.hash connector.accessory) <|
  foundation.compare connector.protocol other.protocol == .lt

def Connector.type (connector : Connector) : BitVec 16 :=
  if connector.secure then sslEndpointType else tcpEndpointType

def AnyConnector.type : AnyConnector → BitVec 16
  | .objc connector => connector.type
  | .accessory _ => accessoryEndpointType

/-- `operator<`, which compares the types of connectors of different classes. -/
def AnyConnector.less (foundation : Foundation) : AnyConnector → AnyConnector → Bool
  | .objc connector, .objc other => connector.less other
  | .accessory connector, .accessory other => connector.less foundation other
  | connector, other => intLess connector.type other.type

def Endpoint.compress : Endpoint → Bool
  | .objc endpoint => endpoint.compress
  | .accessory endpoint => endpoint.compress

/-- `compress`, which makes an endpoint with this flag. -/
def Endpoint.withCompress (compress : Bool) : Endpoint → Endpoint
  | .objc endpoint => .objc { endpoint with compress }
  | .accessory endpoint => .accessory { endpoint with compress }

structure ConnectorInfo where
  connector : AnyConnector
  endpoint : Endpoint
deriving DecidableEq

structure Connection where
  id : Nat
  connector : AnyConnector
  endpoint : Endpoint
deriving DecidableEq

structure OutgoingConnectionFactory where
  destroyed : Bool
  connections : List (AnyConnector × Connection)
  connectionsByEndpoint : List (Endpoint × Connection)
  /-- The keys of `_pending`. -/
  pending : List AnyConnector
  /-- How many connections were made. -/
  made : Nat

/-- What `findConnection` returns for a key. -/
structure Found (κ : Type) where
  key : κ
  connection : Connection
  compress : Bool
deriving DecidableEq

section factory

variable (foundation : Foundation)

def OutgoingConnectionFactory.isPending (factory : OutgoingConnectionFactory)
    (connector : AnyConnector) : Bool :=
  factory.pending.any (incomparable (AnyConnector.less foundation) connector)

/-- `findConnection` with endpoints. `isActiveOrHolding` is what the connections answer. -/
def OutgoingConnectionFactory.findByEndpoint (factory : OutgoingConnectionFactory)
    (overrideCompress : Option Bool) (isActiveOrHolding : Connection → Bool) :
    List Endpoint → Option (Found Endpoint)
  | [] => none
  | endpoint :: endpoints =>
      match find Endpoint.less isActiveOrHolding endpoint factory.connectionsByEndpoint with
      | some connection => some ⟨endpoint, connection, overrideCompress.getD endpoint.compress⟩
      | none => factory.findByEndpoint overrideCompress isActiveOrHolding endpoints

/-- `findConnection` with connectors. -/
def OutgoingConnectionFactory.findConnection (factory : OutgoingConnectionFactory)
    (overrideCompress : Option Bool) (isActiveOrHolding : Connection → Bool) :
    List ConnectorInfo → Option (Found AnyConnector)
  | [] => none
  | info :: infos =>
      if factory.isPending foundation info.connector then
        factory.findConnection overrideCompress isActiveOrHolding infos
      else
        match find (AnyConnector.less foundation) isActiveOrHolding info.connector
            factory.connections with
        | some connection =>
            some ⟨info.connector, connection, overrideCompress.getD info.endpoint.compress⟩
        | none => factory.findConnection overrideCompress isActiveOrHolding infos

def OutgoingConnectionFactory.reap (factory : OutgoingConnectionFactory) :
    List Connection → Option OutgoingConnectionFactory
  | [] => some factory
  | connection :: closed => do
      let connections ← remove (AnyConnector.less foundation) connection.connector connection
        factory.connections
      let byEndpoint ← remove Endpoint.less connection.endpoint connection
        factory.connectionsByEndpoint
      let byEndpoint ← remove Endpoint.less (connection.endpoint.withCompress true) connection
        byEndpoint
      OutgoingConnectionFactory.reap
        { factory with connections, connectionsByEndpoint := byEndpoint } closed

def OutgoingConnectionFactory.addToPending (factory : OutgoingConnectionFactory)
    (infos : List ConnectorInfo) : OutgoingConnectionFactory :=
  if infos.any fun info => factory.isPending foundation info.connector then factory
  else
    infos.foldl
      (fun factory info =>
        if factory.isPending foundation info.connector then factory
        else { factory with pending := factory.pending ++ [info.connector] })
      factory

/-- `createConnection`, where a destroyed factory throws. -/
def OutgoingConnectionFactory.createConnection (factory : OutgoingConnectionFactory)
    (info : ConnectorInfo) : OutgoingConnectionFactory :=
  if factory.destroyed then factory
  else
    let endpoint := info.endpoint.withCompress false
    let connection := ⟨factory.made, info.connector, endpoint⟩
    { factory with
      connections := insert info.connector connection factory.connections
      connectionsByEndpoint :=
        insert (endpoint.withCompress true) connection
          (insert endpoint connection factory.connectionsByEndpoint)
      made := factory.made + 1 }

/-- `finishGetConnection`. -/
def OutgoingConnectionFactory.finishGetConnection (factory : OutgoingConnectionFactory)
    (infos : List ConnectorInfo) : OutgoingConnectionFactory :=
  { factory with
    pending := factory.pending.filter fun connector =>
      !infos.any fun info => incomparable (AnyConnector.less foundation) info.connector connector }

inductive Event where
  | reap (closed : List Connection)
  | addToPending (infos : List ConnectorInfo)
  /-- `createConnection`, for a connector of the endpoint while these accessories are there. -/
  | createConnection (accessories : List Accessory) (info : ConnectorInfo)
  | finishGetConnection (infos : List ConnectorInfo)
  | destroy
  /-- The end of `waitUntilFinished`. -/
  | clear

def OutgoingConnectionFactory.step :
    Event → OutgoingConnectionFactory → Option OutgoingConnectionFactory
  | .reap closed, factory => if factory.destroyed then none else factory.reap foundation closed
  | .addToPending infos, factory =>
      if factory.destroyed then none else some (factory.addToPending foundation infos)
  | .createConnection accessories info, factory =>
      if factory.isPending foundation info.connector ∧
          info.connector ∈ (info.endpoint.connectors accessories).getD [] then
        some (factory.createConnection info)
      else none
  | .finishGetConnection infos, factory => some (factory.finishGetConnection foundation infos)
  | .destroy, factory => some { factory with destroyed := true }
  | .clear, factory =>
      if factory.destroyed then
        some { factory with connections := [], connectionsByEndpoint := [] }
      else none

end factory

def OutgoingConnectionFactory.start : OutgoingConnectionFactory :=
  { destroyed := false, connections := [], connectionsByEndpoint := [], pending := [], made := 0 }

variable {foundation : Foundation} {factory : OutgoingConnectionFactory}

theorem EndpointI.connector_type (endpoint : EndpointI) :
    endpoint.connector.type = endpoint.type := rfl

variable {accessories : List Accessory} {after : OutgoingConnectionFactory}
  {overrideCompress : Option Bool} {isActiveOrHolding : Connection → Bool}

theorem Endpoint.connectors_type {endpoint : Endpoint} {connector : AnyConnector}
    (inside : connector ∈ (endpoint.connectors accessories).getD []) :
    connector.type = endpoint.type := by
  cases endpoint with
  | objc endpoint =>
      simp only [Endpoint.connectors, Option.getD_some, List.mem_singleton] at inside
      rw [inside]
      exact endpoint.connector_type
  | accessory endpoint =>
      simp only [Endpoint.connectors] at inside
      split at inside
      · cases inside
      · simp only [Option.getD_some, List.mem_map] at inside
        obtain ⟨accessory, -, same⟩ := inside
        rw [← same]
        rfl

theorem Endpoint.with_compress_type (compress : Bool) (endpoint : Endpoint) :
    (endpoint.withCompress compress).type = endpoint.type := by
  cases endpoint <;> rfl

structure Filed (factory : OutgoingConnectionFactory) : Prop where
  connector : ∀ key connection, (key, connection) ∈ factory.connections →
    key = connection.connector
  endpoint : ∀ key connection, (key, connection) ∈ factory.connectionsByEndpoint →
    connection.connector.type = key.type

theorem Filed.reap {closed : List Connection} (filed : Filed factory)
    (reaped : factory.reap foundation closed = some after) : Filed after := by
  induction closed generalizing factory with
  | nil =>
      cases reaped
      exact filed
  | cons connection closed ih =>
      simp only [OutgoingConnectionFactory.reap, Option.bind_eq_bind,
        Option.bind_eq_some_iff] at reaped
      obtain ⟨connections, first, byEndpoint, second, rest, third, reaped⟩ := reaped
      apply ih _ reaped
      constructor
      · intro key other inside
        exact filed.connector key other (mem_of_remove first inside)
      · intro key other inside
        exact filed.endpoint key other (mem_of_remove second (mem_of_remove third inside))

theorem add_to_pending_maps (infos : List ConnectorInfo) :
    (factory.addToPending foundation infos).connections = factory.connections ∧
      (factory.addToPending foundation infos).connectionsByEndpoint =
        factory.connectionsByEndpoint := by
  unfold OutgoingConnectionFactory.addToPending
  split
  · exact ⟨rfl, rfl⟩
  · -- Every turn of the loop changes `_pending` alone.
    clear * -
    induction infos generalizing factory with
    | nil => exact ⟨rfl, rfl⟩
    | cons info infos ih =>
        rw [List.foldl_cons]
        split
        · exact ih
        · exact ih

theorem Filed.createConnection {info : ConnectorInfo} (filed : Filed factory)
    (inside : info.connector ∈ (info.endpoint.connectors accessories).getD []) :
    Filed (factory.createConnection info) := by
  unfold OutgoingConnectionFactory.createConnection
  split
  · exact filed
  · constructor
    · intro key connection stored
      obtain old | new := mem_insert.mp stored
      · exact filed.connector key connection old
      · cases new
        rfl
    · intro key connection stored
      obtain old | new := mem_insert.mp stored
      · obtain older | new := mem_insert.mp old
        · exact filed.endpoint key connection older
        · cases new
          rw [Endpoint.with_compress_type]
          exact Endpoint.connectors_type inside
      · cases new
        rw [Endpoint.with_compress_type, Endpoint.with_compress_type]
        exact Endpoint.connectors_type inside

theorem Filed.step {event : Event} (filed : Filed factory)
    (stepped : OutgoingConnectionFactory.step foundation event factory = some after) :
    Filed after := by
  cases event with
  | reap closed =>
      simp only [OutgoingConnectionFactory.step] at stepped
      split at stepped
      · cases stepped
      · exact filed.reap stepped
  | addToPending infos =>
      simp only [OutgoingConnectionFactory.step] at stepped
      split at stepped
      · cases stepped
      · cases stepped
        have same := @add_to_pending_maps foundation factory infos
        constructor
        · rw [same.1]
          exact filed.connector
        · rw [same.2]
          exact filed.endpoint
  | createConnection accessories info =>
      simp only [OutgoingConnectionFactory.step] at stepped
      split at stepped
      · next possible =>
          cases stepped
          exact filed.createConnection possible.2
      · cases stepped
  | finishGetConnection infos =>
      cases stepped
      exact ⟨filed.connector, filed.endpoint⟩
  | destroy =>
      cases stepped
      exact ⟨filed.connector, filed.endpoint⟩
  | clear =>
      simp only [OutgoingConnectionFactory.step] at stepped
      split at stepped
      · cases stepped
        constructor
        · intro key connection inside
          cases inside
        · intro key connection inside
          cases inside
      · cases stepped

theorem filed_of_reach
    (reached : Reach (OutgoingConnectionFactory.step foundation) (fun _ _ => True) .start
      factory) : Filed factory := by
  have start : Filed .start := by
    constructor
    · intro key connection inside
      cases inside
    · intro key connection inside
      cases inside
  exact reached.invariant start fun _ _ _ filed _ stepped => filed.step stepped

theorem mem_of_find_connection {infos : List ConnectorInfo} {found : Found AnyConnector}
    (here : factory.findConnection foundation overrideCompress isActiveOrHolding infos =
      some found) :
    factory.isPending foundation found.key = false ∧
      ∃ other, (other, found.connection) ∈ factory.connections ∧
        incomparable (AnyConnector.less foundation) found.key other = true := by
  induction infos with
  | nil => cases here
  | cons info infos ih =>
      simp only [OutgoingConnectionFactory.findConnection] at here
      split at here
      · exact ih here
      · next free =>
          split at here
          · next connection first =>
              cases here
              exact ⟨by simpa using free, mem_of_find first⟩
          · exact ih here

theorem mem_of_find_by_endpoint {endpoints : List Endpoint} {found : Found Endpoint}
    (here : factory.findByEndpoint overrideCompress isActiveOrHolding endpoints = some found) :
    ∃ other, (other, found.connection) ∈ factory.connectionsByEndpoint ∧
      incomparable Endpoint.less found.key other = true := by
  induction endpoints with
  | nil => cases here
  | cons endpoint endpoints ih =>
      simp only [OutgoingConnectionFactory.findByEndpoint] at here
      split at here
      · next connection first =>
          cases here
          exact mem_of_find first
      · exact ih here

theorem incomparable_connector {connector : Connector} {other : AnyConnector} :
    incomparable (AnyConnector.less foundation) (.objc connector) other = true ↔
      other = .objc connector ∨ other = .objc connector.counterpart := by
  rw [incomparable_iff]
  cases other with
  | objc other =>
      change (connector.less other = false ∧ other.less connector = false) ↔ _
      rw [connectors_ordered.incomparable, Connector.equal_iff, AnyConnector.objc.injEq,
        AnyConnector.objc.injEq, eq_comm]
  | accessory other =>
      have differ : intLess connector.type accessoryEndpointType = true := by
        unfold Connector.type
        split <;> decide
      simp [AnyConnector.less, AnyConnector.type, differ]

theorem incomparable_endpoint {endpoint other : Endpoint} :
    incomparable Endpoint.less endpoint other = true ↔ endpoint = other ∨ endpoint.Alike other := by
  rw [incomparable_iff, endpoints_ordered.incomparable, Endpoint.equal_iff]

theorem Connector.counterpart_type (connector : Connector) :
    connector.counterpart.type ≠ connector.type := by
  have differ : tcpEndpointType ≠ sslEndpointType := by decide
  unfold Connector.type Connector.counterpart
  cases connector.secure with
  | false => exact differ.symm
  | true => exact differ

theorem EndpointI.other_type (endpoint : EndpointI) :
    EndpointI.type { endpoint with secure := !endpoint.secure } ≠ endpoint.type := by
  have differ : tcpEndpointType ≠ sslEndpointType := by decide
  unfold EndpointI.type
  cases endpoint.secure with
  | false => exact differ.symm
  | true => exact differ

/-- A connector that nobody is connecting finds connections of its own protocol only, unless
one was made by the connector of the other protocol with the same attributes. -/
theorem Filed.connector_iff (filed : Filed factory) (key : Connector) :
    (∀ overrideCompress isActiveOrHolding infos found,
      factory.findConnection foundation overrideCompress isActiveOrHolding infos = some found →
      found.key = .objc key → found.connection.connector.type = key.type) ↔
    factory.isPending foundation (.objc key) = true ∨
      ∀ entry ∈ factory.connections, entry.2.connector ≠ .objc key.counterpart := by
  constructor
  · intro right
    by_contra wrong
    simp only [not_or, not_forall, not_not] at wrong
    obtain ⟨free, ⟨connector, connection⟩, inside, made⟩ := wrong
    have here := filed.connector connector connection inside
    have same : incomparable (AnyConnector.less foundation) (.objc key) connector = true :=
      incomparable_connector.mpr (.inr (here.trans made))
    let info : ConnectorInfo := ⟨.objc key, connection.endpoint⟩
    have found : factory.findConnection foundation none (fun other => decide (other = connection))
        [info] = some ⟨.objc key, connection, connection.endpoint.compress⟩ := by
      simp only [OutgoingConnectionFactory.findConnection, info]
      rw [if_neg free, find_only inside same]
      rfl
    have type := right none _ _ _ found rfl
    change connection.connector.type = key.type at type
    rw [made] at type
    exact key.counterpart_type type
  · intro condition overrideCompress isActiveOrHolding infos found here same
    obtain ⟨free, other, inside, incomparable⟩ := mem_of_find_connection here
    rw [same] at free incomparable
    have own := filed.connector other found.connection inside
    cases condition with
    | inl busy =>
        rw [busy] at free
        cases free
    | inr apart =>
        obtain equal | alike := incomparable_connector.mp incomparable
        · rw [← own, equal]
          rfl
        · exact absurd (own.symm.trans alike) (apart _ inside)

theorem Filed.endpoint_iff (filed : Filed factory) (key : EndpointI) :
    (∀ overrideCompress isActiveOrHolding endpoints found,
      factory.findByEndpoint overrideCompress isActiveOrHolding endpoints = some found →
      found.key = .objc key → found.connection.connector.type = key.type) ↔
    ∀ entry ∈ factory.connectionsByEndpoint,
      entry.1 ≠ .objc { key with secure := !key.secure } := by
  constructor
  · intro right ⟨endpoint, connection⟩ inside stored
    change endpoint = _ at stored
    have same : incomparable Endpoint.less (.objc key) endpoint = true := by
      rw [incomparable_endpoint, stored]
      exact .inr rfl
    have found : factory.findByEndpoint none (fun other => decide (other = connection))
        [.objc key] = some ⟨.objc key, connection, key.compress⟩ := by
      simp only [OutgoingConnectionFactory.findByEndpoint]
      rw [find_only inside same]
      rfl
    have type := right none _ _ _ found rfl
    have other := filed.endpoint endpoint connection inside
    rw [stored] at other
    exact key.other_type (other.symm.trans type)
  · intro apart overrideCompress isActiveOrHolding endpoints found here same
    obtain ⟨other, inside, incomparable⟩ := mem_of_find_by_endpoint here
    rw [same] at incomparable
    rw [filed.endpoint other found.connection inside]
    obtain equal | alike := incomparable_endpoint.mp incomparable
    · rw [← equal]
      rfl
    · cases other with
      | objc other =>
          rw [Endpoint.Alike] at alike
          exact absurd (congrArg Endpoint.objc alike) (apart _ inside)
      | accessory other => exact absurd alike id

/-- Endpoints and connectors are identified by their attributes, and connections found for
those of their own protocol, exactly where none is met that differs in the protocol alone. -/
theorem endpoints_identified_iff (foundation : Foundation) :
    (∀ endpoint other : Endpoint,
      ((endpoint.equal other = true ↔ endpoint = other) ↔ ¬ endpoint.Alike other) ∧
      ((endpoint.less other = false ∧ other.less endpoint = false ↔ endpoint = other) ↔
        ¬ endpoint.Alike other) ∧
      (endpoint.equal other = true → endpoint.hashInit = other.hashInit)) ∧
    (∀ connector other : Connector,
      ((connector.equal other = true ↔ connector = other) ↔ other ≠ connector.counterpart) ∧
      ((connector.less other = false ∧ other.less connector = false ↔ connector = other) ↔
        other ≠ connector.counterpart)) ∧
    StrictWeakOrder Endpoint.less Endpoint.equal ∧
    StrictWeakOrder Connector.less Connector.equal ∧
    (∀ (σ δ : Type) (stream : OutStream.BasicStream σ) (fresh : δ)
      (skipRef : InStream.Reader δ Unit) (encoding : Encoding) (endpoint : Endpoint),
      endpoint.streamWrite encoding stream = stream.writeBlob (endpoint.bytes encoding) ∧
      Transfer.Takes (endpoint.bytes encoding) (readEndpoint fresh skipRef)
        (some endpoint.readBack) ∧
      ((endpoint.readBack.equal endpoint = true ∧
        ∀ accessories,
          endpoint.readBack.connectors accessories = endpoint.connectors accessories) ↔
        endpoint.Portable)) ∧
    ∀ factory : OutgoingConnectionFactory,
      Reach (OutgoingConnectionFactory.step foundation) (fun _ _ => True) .start factory →
      (∀ key : Connector,
        (∀ overrideCompress isActiveOrHolding infos found,
          factory.findConnection foundation overrideCompress isActiveOrHolding infos =
            some found →
          found.key = .objc key → found.connection.connector.type = key.type) ↔
        factory.isPending foundation (.objc key) = true ∨
          ∀ entry ∈ factory.connections, entry.2.connector ≠ .objc key.counterpart) ∧
      ∀ key : EndpointI,
        (∀ overrideCompress isActiveOrHolding endpoints found,
          factory.findByEndpoint overrideCompress isActiveOrHolding endpoints = some found →
          found.key = .objc key → found.connection.connector.type = key.type) ↔
        ∀ entry ∈ factory.connectionsByEndpoint,
          entry.1 ≠ .objc { key with secure := !key.secure } := by
  refine ⟨?_, ?_, endpoints_ordered, connectors_ordered, ?_, ?_⟩
  · intro endpoint other
    rw [endpoints_ordered.incomparable]
    exact ⟨endpoint.identified_iff other, endpoint.identified_iff other, Endpoint.hash_eq⟩
  · intro connector other
    rw [connectors_ordered.incomparable]
    exact ⟨connector.identified_iff other, connector.identified_iff other⟩
  · intro σ δ stream fresh skipRef encoding endpoint
    exact ⟨endpoint.stream_write_eq_blob encoding stream,
      takes_endpoint fresh skipRef encoding endpoint, endpoint.read_back_iff⟩
  · intro factory reached
    have filed := filed_of_reach reached
    exact ⟨filed.connector_iff, filed.endpoint_iff⟩

def plainEndpoint : EndpointI := ⟨false, [104], 4061, -1, [], false⟩

def secureEndpoint : EndpointI := { plainEndpoint with secure := true }

def simpleFoundation : Foundation where
  hash accessory := accessory.name.length
  compare name other := cmp name.length other.length

/-- The endpoints are equal, and a connection over TCP is found for the SSL connector. -/
theorem plain_connection_found :
    (Endpoint.objc plainEndpoint).equal (.objc secureEndpoint) = true ∧
      plainEndpoint ≠ secureEndpoint ∧
      plainEndpoint.connector.equal secureEndpoint.connector = true ∧
      plainEndpoint.connector ≠ secureEndpoint.connector ∧
      ∃ factory found,
        Reach (OutgoingConnectionFactory.step simpleFoundation) (fun _ _ => True) .start factory ∧
        factory.findConnection simpleFoundation none (fun _ => true)
          [⟨.objc secureEndpoint.connector, .objc secureEndpoint⟩] = some found ∧
        found.connection.connector = .objc plainEndpoint.connector := by
  let info : ConnectorInfo := ⟨.objc plainEndpoint.connector, .objc plainEndpoint⟩
  let connection : Connection := ⟨0, .objc plainEndpoint.connector, .objc plainEndpoint⟩
  let events : List Event :=
    [.addToPending [info], .createConnection [] info, .finishGetConnection [info]]
  let factory : OutgoingConnectionFactory :=
    { destroyed := false
      connections := [(.objc plainEndpoint.connector, connection)]
      connectionsByEndpoint := [(.objc plainEndpoint, connection),
        (.objc { plainEndpoint with compress := true }, connection)]
      pending := []
      made := 1 }
  have ran : runAll (OutgoingConnectionFactory.step simpleFoundation) events .start =
      some factory := by
    rfl
  refine ⟨by decide, by decide, by decide, by decide, factory,
    ⟨.objc secureEndpoint.connector, connection, false⟩, ?_, by decide, rfl⟩
  exact reach_of_run ran fun _ _ _ => trivial

end IceTouch.Transports

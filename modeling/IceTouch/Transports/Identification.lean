import IceTouch.Transports.Endpoints

/-!
# What identifies an endpoint on iOS

The operators of endpoints and of connectors decide an ordering of the attributes they compare,
hence they are strict weak orders with `operator==` for the equivalence. Which of TCP and SSL
an endpoint is for is not among these attributes, nor is the protocol of an accessory. What is
read from the bytes of an endpoint is the endpoint without its connection id and without the
protocol of its accessory.
-/

namespace IceTouch.Transports

open Bytes WireTypes Escape Comparison
open OutStream StreamHelpers InStream Transfer
open ValueTransfer
open References (intLess stringOrder intOrder boolOrder decides_string decides_int
  decides_bool lawful_string lawful_int lawful_bool)

def objcOrder (endpoint other : EndpointI) : Ordering :=
  (stringOrder endpoint.host other.host).then <|
  (intOrder endpoint.port other.port).then <|
  (intOrder endpoint.timeout other.timeout).then <|
  (stringOrder endpoint.connectionId other.connectionId).then <|
  (boolOrder endpoint.compress other.compress).then .eq

def accessoryOrder (endpoint other : AccessoryEndpointI) : Ordering :=
  (stringOrder endpoint.manufacturer other.manufacturer).then <|
  (stringOrder endpoint.modelNumber other.modelNumber).then <|
  (stringOrder endpoint.name other.name).then <|
  (intOrder endpoint.timeout other.timeout).then <|
  (stringOrder endpoint.connectionId other.connectionId).then <|
  (boolOrder endpoint.compress other.compress).then .eq

/-- Both types of an `EndpointI` are less than the type of an `AccessoryEndpointI`. -/
def endpointOrder : Endpoint → Endpoint → Ordering
  | .objc endpoint, .objc other => objcOrder endpoint other
  | .accessory endpoint, .accessory other => accessoryOrder endpoint other
  | .objc _, .accessory _ => .lt
  | .accessory _, .objc _ => .gt

def connectorOrder (connector other : Connector) : Ordering :=
  (intOrder connector.timeout other.timeout).then <|
  (stringOrder connector.connectionId other.connectionId).then <|
  (stringOrder connector.host other.host).then <|
  intOrder connector.port other.port

theorem decides_objc (endpoint other : EndpointI) :
    Decides (endpoint.less other) (other.less endpoint) (endpoint.equal other)
      (objcOrder endpoint other) := by
  have chained := (decides_string endpoint.host other.host).chain <|
    (decides_int endpoint.port other.port).chain <|
    (decides_int endpoint.timeout other.timeout).chain <|
    (decides_string endpoint.connectionId other.connectionId).chain <|
    (decides_bool endpoint.compress other.compress).chain decides_eq
  exact chained.rewrite (by simp [EndpointI.equal, and_assoc])

theorem decides_accessory (endpoint other : AccessoryEndpointI) :
    Decides (endpoint.less other) (other.less endpoint) (endpoint.equal other)
      (accessoryOrder endpoint other) := by
  have chained := (decides_string endpoint.manufacturer other.manufacturer).chain <|
    (decides_string endpoint.modelNumber other.modelNumber).chain <|
    (decides_string endpoint.name other.name).chain <|
    (decides_int endpoint.timeout other.timeout).chain <|
    (decides_string endpoint.connectionId other.connectionId).chain <|
    (decides_bool endpoint.compress other.compress).chain decides_eq
  exact chained.rewrite (by simp [AccessoryEndpointI.equal, and_assoc])

theorem type_less (endpoint : EndpointI) :
    intLess endpoint.type accessoryEndpointType = true ∧
      intLess accessoryEndpointType endpoint.type = false := by
  unfold EndpointI.type
  split <;> decide

theorem decides_endpoint (endpoint other : Endpoint) :
    Decides (endpoint.less other) (other.less endpoint) (endpoint.equal other)
      (endpointOrder endpoint other) := by
  cases endpoint with
  | objc endpoint =>
      cases other with
      | objc other => exact decides_objc endpoint other
      | accessory other =>
          simp only [Endpoint.less, Endpoint.type, Endpoint.equal, endpointOrder,
            (type_less endpoint).1, (type_less endpoint).2]
          exact decides_lt
  | accessory endpoint =>
      cases other with
      | objc other =>
          simp only [Endpoint.less, Endpoint.type, Endpoint.equal, endpointOrder,
            (type_less other).1, (type_less other).2]
          exact decides_gt
      | accessory other => exact decides_accessory endpoint other

theorem decides_connector (connector other : Connector) :
    Decides (connector.less other) (other.less connector) (connector.equal other)
      (connectorOrder connector other) := by
  have chained := (decides_int connector.timeout other.timeout).chain <|
    (decides_string connector.connectionId other.connectionId).chain <|
    (decides_string connector.host other.host).chain <|
    decides_int connector.port other.port
  exact chained.rewrite (by simp [Connector.equal, and_assoc])

theorem lawful_objc : Lawful objcOrder :=
  (lawful_string.comap EndpointI.host).chain <|
  (lawful_int.comap EndpointI.port).chain <|
  (lawful_int.comap EndpointI.timeout).chain <|
  (lawful_string.comap EndpointI.connectionId).chain <|
  (lawful_bool.comap EndpointI.compress).chain lawful_eq

theorem lawful_accessory : Lawful accessoryOrder :=
  (lawful_string.comap AccessoryEndpointI.manufacturer).chain <|
  (lawful_string.comap AccessoryEndpointI.modelNumber).chain <|
  (lawful_string.comap AccessoryEndpointI.name).chain <|
  (lawful_int.comap AccessoryEndpointI.timeout).chain <|
  (lawful_string.comap AccessoryEndpointI.connectionId).chain <|
  (lawful_bool.comap AccessoryEndpointI.compress).chain lawful_eq

theorem lawful_connector : Lawful connectorOrder :=
  (lawful_int.comap Connector.timeout).chain <|
  (lawful_string.comap Connector.connectionId).chain <|
  (lawful_string.comap Connector.host).chain <|
  lawful_int.comap Connector.port

theorem follows_endpoint (first second third : Endpoint) :
    Follows (endpointOrder first second) (endpointOrder second third)
      (endpointOrder first third) := by
  cases first with
  | objc first =>
      cases second with
      | objc second =>
          cases third with
          | objc third => exact lawful_objc.follows first second third
          | accessory third => constructor <;> simp [endpointOrder, eq_comm]
      | accessory second => cases third <;> constructor <;> simp [endpointOrder]
  | accessory first =>
      cases second with
      | objc second => cases third <;> constructor <;> simp [endpointOrder]
      | accessory second =>
          cases third with
          | objc third => constructor <;> simp [endpointOrder, eq_comm]
          | accessory third => exact lawful_accessory.follows first second third

theorem lawful_endpoint : Lawful endpointOrder :=
  lawful_of_decides decides_endpoint follows_endpoint

theorem endpoints_ordered : StrictWeakOrder Endpoint.less Endpoint.equal :=
  strict_weak_order lawful_endpoint decides_endpoint

theorem connectors_ordered : StrictWeakOrder Connector.less Connector.equal :=
  strict_weak_order lawful_connector decides_connector

/-- The connector of the other protocol with the same attributes. -/
def Connector.counterpart (connector : Connector) : Connector :=
  { connector with secure := !connector.secure }

/-- Two endpoints that differ only in the type of an `EndpointI`, or only in the protocol of
an `AccessoryEndpointI`. -/
def Endpoint.Alike : Endpoint → Endpoint → Prop
  | .objc endpoint, .objc other => other = { endpoint with secure := !endpoint.secure }
  | .accessory endpoint, .accessory other =>
      other ≠ endpoint ∧ other = { endpoint with protocol := other.protocol }
  | _, _ => False

theorem Connector.equal_iff (connector other : Connector) :
    connector.equal other = true ↔ connector = other ∨ other = connector.counterpart := by
  obtain ⟨secure, timeout, connectionId, host, port⟩ := connector
  obtain ⟨secure', timeout', connectionId', host', port'⟩ := other
  simp only [Connector.equal, Connector.counterpart, Bool.and_eq_true, decide_eq_true_eq,
    Connector.mk.injEq]
  cases secure <;> cases secure' <;> simp [eq_comm, and_assoc]

theorem Connector.counterpart_ne (connector : Connector) : connector ≠ connector.counterpart := by
  intro same
  have secure := congrArg Connector.secure same
  simp [Connector.counterpart] at secure

theorem Connector.identified_iff (connector other : Connector) :
    (connector.equal other = true ↔ connector = other) ↔ other ≠ connector.counterpart := by
  rw [Connector.equal_iff]
  constructor
  · intro identified alike
    exact connector.counterpart_ne ((identified.mp (.inr alike)).trans alike)
  · intro apart
    simp [apart]

theorem EndpointI.equal_iff (endpoint other : EndpointI) :
    endpoint.equal other = true ↔
      endpoint = other ∨ other = { endpoint with secure := !endpoint.secure } := by
  obtain ⟨secure, host, port, timeout, connectionId, compress⟩ := endpoint
  obtain ⟨secure', host', port', timeout', connectionId', compress'⟩ := other
  simp only [EndpointI.equal, Bool.and_eq_true, decide_eq_true_eq, EndpointI.mk.injEq]
  cases secure <;> cases secure' <;> simp [eq_comm, and_assoc]

theorem AccessoryEndpointI.equal_iff (endpoint other : AccessoryEndpointI) :
    endpoint.equal other = true ↔ other = { endpoint with protocol := other.protocol } := by
  obtain ⟨manufacturer, modelNumber, name, protocol, timeout, connectionId, compress⟩ := endpoint
  obtain ⟨manufacturer', modelNumber', name', protocol', timeout', connectionId', compress'⟩ :=
    other
  simp only [AccessoryEndpointI.equal, Bool.and_eq_true, decide_eq_true_eq,
    AccessoryEndpointI.mk.injEq, true_and, and_assoc]
  constructor
  · intro ⟨one, two, three, four, five, six⟩
    exact ⟨one.symm, two.symm, three.symm, four.symm, five.symm, six.symm⟩
  · intro ⟨one, two, three, four, five, six⟩
    exact ⟨one.symm, two.symm, three.symm, four.symm, five.symm, six.symm⟩

theorem Endpoint.equal_iff (endpoint other : Endpoint) :
    endpoint.equal other = true ↔ endpoint = other ∨ endpoint.Alike other := by
  cases endpoint with
  | objc endpoint =>
      cases other with
      | objc other =>
          rw [Endpoint.equal, EndpointI.equal_iff, Endpoint.Alike, Endpoint.objc.injEq]
      | accessory other => simp [Endpoint.equal, Endpoint.Alike]
  | accessory endpoint =>
      cases other with
      | objc other => simp [Endpoint.equal, Endpoint.Alike]
      | accessory other =>
          rw [Endpoint.equal, AccessoryEndpointI.equal_iff, Endpoint.Alike,
            Endpoint.accessory.injEq]
          constructor
          · intro same
            by_cases here : endpoint = other
            · exact .inl here
            · exact .inr ⟨fun there => here there.symm, same⟩
          · intro either
            cases either with
            | inl same => rw [same]
            | inr alike => exact alike.2

theorem Endpoint.alike_ne {endpoint other : Endpoint} (alike : endpoint.Alike other) :
    endpoint ≠ other := by
  intro same
  subst same
  cases endpoint with
  | objc endpoint =>
      have secure := congrArg EndpointI.secure alike
      simp at secure
  | accessory endpoint => exact alike.1 rfl

theorem Endpoint.identified_iff (endpoint other : Endpoint) :
    (endpoint.equal other = true ↔ endpoint = other) ↔ ¬ endpoint.Alike other := by
  rw [Endpoint.equal_iff]
  constructor
  · intro identified alike
    exact Endpoint.alike_ne alike (identified.mp (.inr alike))
  · intro apart
    simp [apart]

theorem Endpoint.hash_eq {endpoint other : Endpoint} (equal : endpoint.equal other = true) :
    endpoint.hashInit = other.hashInit := by
  obtain same | alike := (Endpoint.equal_iff endpoint other).mp equal
  · rw [same]
  · cases endpoint with
    | objc endpoint =>
        cases other with
        | objc other =>
            rw [Endpoint.Alike] at alike
            rw [alike]
            rfl
        | accessory other => exact absurd alike id
    | accessory endpoint =>
        cases other with
        | objc other => exact absurd alike id
        | accessory other =>
            rw [alike.2]
            rfl

section marshalling

variable {δ σ : Type}

/-- What `streamWrite` appends. -/
def Endpoint.bytes (encoding : Encoding) : Endpoint → List Byte
  | .objc endpoint =>
      wordBytes endpoint.type ++ encapsBytes encoding.version
        (stringBytes endpoint.host ++ (wordBytes endpoint.port ++
          (wordBytes endpoint.timeout ++ boolBytes endpoint.compress)))
  | .accessory endpoint =>
      wordBytes accessoryEndpointType ++ encapsBytes encoding.version
        (stringBytes endpoint.manufacturer ++ (stringBytes endpoint.modelNumber ++
          (stringBytes endpoint.name ++
            (wordBytes endpoint.timeout ++ boolBytes endpoint.compress))))

theorem Endpoint.stream_write_eq_blob (encoding : Encoding) (endpoint : Endpoint)
    (stream : BasicStream σ) :
    endpoint.streamWrite encoding stream = stream.writeBlob (endpoint.bytes encoding) := by
  cases endpoint with
  | objc endpoint =>
      rw [Endpoint.streamWrite, EndpointI.streamWrite, write_encaps_eq_blob _ _ _
        (stringBytes endpoint.host ++ (wordBytes endpoint.port ++
          (wordBytes endpoint.timeout ++ boolBytes endpoint.compress)))]
      · rw [write_word_eq_blob, write_blob_write_blob, Endpoint.bytes]
      · intro inner
        simp [write_string_eq_blob, write_word_eq_blob, write_bool_eq_blob]
  | accessory endpoint =>
      rw [Endpoint.streamWrite, AccessoryEndpointI.streamWrite, write_encaps_eq_blob _ _ _
        (stringBytes endpoint.manufacturer ++ (stringBytes endpoint.modelNumber ++
          (stringBytes endpoint.name ++
            (wordBytes endpoint.timeout ++ boolBytes endpoint.compress))))]
      · rw [write_word_eq_blob, write_blob_write_blob, Endpoint.bytes]
      · intro inner
        simp [write_string_eq_blob, write_word_eq_blob, write_bool_eq_blob]

/-- The endpoint that is read from the bytes of `endpoint`. -/
def Endpoint.readBack : Endpoint → Endpoint
  | .objc endpoint => .objc { endpoint with connectionId := [] }
  | .accessory endpoint => .accessory { endpoint with protocol := [], connectionId := [] }

theorem takes_objc (endpoint : EndpointI) :
    Takes (δ := δ)
      (stringBytes endpoint.host ++ (wordBytes endpoint.port ++
        (wordBytes endpoint.timeout ++ boolBytes endpoint.compress)))
      (some <$> readEndpointI endpoint.secure) (some (Endpoint.readBack (.objc endpoint))) := by
  have read : Takes (δ := δ)
      (stringBytes endpoint.host ++ (wordBytes endpoint.port ++
        (wordBytes endpoint.timeout ++ boolBytes endpoint.compress)))
      (readEndpointI endpoint.secure) (Endpoint.readBack (.objc endpoint)) :=
    (takes_string endpoint.host).bind ((takes_word endpoint.port (by decide)).bind
      ((takes_word endpoint.timeout (by decide)).bind ((takes_bool endpoint.compress).map _)))
  exact read.map some

theorem takes_accessory (endpoint : AccessoryEndpointI) :
    Takes (δ := δ)
      (stringBytes endpoint.manufacturer ++ (stringBytes endpoint.modelNumber ++
        (stringBytes endpoint.name ++ (wordBytes endpoint.timeout ++ boolBytes endpoint.compress))))
      (some <$> readAccessory) (some (Endpoint.readBack (.accessory endpoint))) := by
  have read : Takes (δ := δ)
      (stringBytes endpoint.manufacturer ++ (stringBytes endpoint.modelNumber ++
        (stringBytes endpoint.name ++ (wordBytes endpoint.timeout ++ boolBytes endpoint.compress))))
      readAccessory (Endpoint.readBack (.accessory endpoint)) :=
    (takes_string endpoint.manufacturer).bind ((takes_string endpoint.modelNumber).bind
      ((takes_string endpoint.name).bind ((takes_word endpoint.timeout (by decide)).bind
        ((takes_bool endpoint.compress).map _))))
  exact read.map some

theorem takes_endpoint (fresh : δ) (skipRef : Reader δ Unit) (encoding : Encoding)
    (endpoint : Endpoint) :
    Takes (endpoint.bytes encoding) (readEndpoint fresh skipRef) (some endpoint.readBack) := by
  cases endpoint with
  | objc endpoint =>
      refine (takes_word endpoint.type (by decide)).bind ?_
      have read := takes_encaps fresh skipRef encoding _ (fun _ _ =>
        some <$> readEndpointI endpoint.secure) _ (takes_objc endpoint)
      cases secure : endpoint.secure with
      | false =>
          rw [secure] at read
          rw [if_pos (by rw [EndpointI.type, secure]; rfl)]
          exact read
      | true =>
          rw [secure] at read
          rw [if_neg (by rw [EndpointI.type, secure]; decide),
            if_pos (by rw [EndpointI.type, secure]; rfl)]
          exact read
  | accessory endpoint =>
      refine (takes_word accessoryEndpointType (by decide)).bind ?_
      rw [if_neg (by decide), if_neg (by decide), if_pos rfl]
      exact takes_encaps fresh skipRef encoding _ (fun _ _ => some <$> readAccessory) _
        (takes_accessory endpoint)

end marshalling

/-- Nothing that selects a connector is missing in the bytes of the endpoint. -/
def Endpoint.Portable : Endpoint → Prop
  | .objc endpoint => endpoint.connectionId = []
  | .accessory endpoint =>
      endpoint.connectionId = [] ∧ endpoint.effectiveProtocol = text "com.zeroc.ice"

def AccessoryEndpointI.sought (endpoint : AccessoryEndpointI) : Accessory where
  connected := true
  manufacturer := endpoint.manufacturer
  modelNumber := endpoint.modelNumber
  name := endpoint.name
  protocolStrings := [endpoint.effectiveProtocol]

theorem AccessoryEndpointI.accepts_sought (endpoint : AccessoryEndpointI) :
    endpoint.accepts endpoint.sought = true := by
  simp [AccessoryEndpointI.accepts, AccessoryEndpointI.sought]

theorem AccessoryEndpointI.connectors_without_protocol {endpoint : AccessoryEndpointI}
    (unnamed : endpoint.connectionId = [])
    (usual : endpoint.effectiveProtocol = text "com.zeroc.ice") (accessories : List Accessory) :
    AccessoryEndpointI.connectors { endpoint with protocol := [], connectionId := [] }
      accessories = endpoint.connectors accessories := by
  have same : AccessoryEndpointI.effectiveProtocol
      { endpoint with protocol := [], connectionId := [] } = endpoint.effectiveProtocol := by
    rw [usual]
    rfl
  have accepted : AccessoryEndpointI.accepts { endpoint with protocol := [], connectionId := [] } =
      endpoint.accepts := by
    funext accessory
    rw [AccessoryEndpointI.accepts, AccessoryEndpointI.accepts, same]
  rw [AccessoryEndpointI.connectors, AccessoryEndpointI.connectors, accepted, same, unnamed]

theorem Endpoint.read_back_iff (endpoint : Endpoint) :
    (endpoint.readBack.equal endpoint = true ∧
      ∀ accessories, endpoint.readBack.connectors accessories = endpoint.connectors accessories) ↔
    endpoint.Portable := by
  cases endpoint with
  | objc endpoint =>
      constructor
      · rintro ⟨equal, _⟩
        simp only [Endpoint.readBack, Endpoint.equal, EndpointI.equal, Bool.and_eq_true,
          decide_eq_true_eq] at equal
        exact equal.1.2.symm
      · intro unnamed
        have same : Endpoint.readBack (.objc endpoint) = .objc endpoint := by
          obtain ⟨secure, host, port, timeout, connectionId, compress⟩ := endpoint
          cases unnamed
          rfl
        rw [same]
        refine ⟨?_, fun _ => rfl⟩
        exact (Endpoint.equal_iff _ _).mpr (.inl rfl)
  | accessory endpoint =>
      constructor
      · rintro ⟨equal, selected⟩
        simp only [Endpoint.readBack, Endpoint.equal, AccessoryEndpointI.equal, Bool.and_eq_true,
          decide_eq_true_eq] at equal
        have unnamed : endpoint.connectionId = [] := equal.1.2.symm
        refine ⟨unnamed, ?_⟩
        -- The accessory that `endpoint` seeks supports no other protocol.
        have found := selected [endpoint.sought]
        have here : endpoint.connectors [endpoint.sought] =
            [⟨endpoint.timeout, endpoint.connectionId, endpoint.effectiveProtocol,
              endpoint.sought⟩] := by
          simp [AccessoryEndpointI.connectors, endpoint.accepts_sought]
        by_cases accepted : AccessoryEndpointI.accepts
            { endpoint with protocol := [], connectionId := [] } endpoint.sought = true
        · simp only [Endpoint.readBack, Endpoint.connectors, here] at found
          simp only [AccessoryEndpointI.connectors, List.filter_cons_of_pos accepted] at found
          simp only [List.filter_nil, List.map_cons, List.map_nil, List.isEmpty_cons,
            Bool.false_eq_true, if_false, Option.some.injEq, List.cons.injEq, and_true,
            AnyConnector.accessory.injEq, AccessoryConnector.mk.injEq] at found
          exact found.2.2.symm
        · simp only [Endpoint.readBack, Endpoint.connectors, here] at found
          simp only [AccessoryEndpointI.connectors, List.filter_cons_of_neg accepted] at found
          simp at found
      · rintro ⟨unnamed, usual⟩
        refine ⟨?_, ?_⟩
        · simp [Endpoint.readBack, Endpoint.equal, AccessoryEndpointI.equal, unnamed]
        · intro accessories
          simp only [Endpoint.readBack, Endpoint.connectors,
            AccessoryEndpointI.connectors_without_protocol unnamed usual]

end IceTouch.Transports

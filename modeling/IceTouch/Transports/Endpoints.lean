import IceTouch.References.Ordering
import IceTouch.ValueTransfer

/-!
# Endpoints and connectors on iOS

`IceObjC::EndpointI`, which is the endpoint of both TCP and SSL, `IceObjC::AccessoryEndpointI`
and their connectors. The connected accessories are a parameter. What an operator does not
compare is left out of it here too.
-/

namespace IceTouch.Transports

open Bytes WireTypes Escape Comparison
open OutStream StreamHelpers InStream Transfer
open References (stringLess intLess boolLess hashString hashInt hashBool)

def sslEndpointType : BitVec 16 := 2

def accessoryEndpointType : BitVec 16 := 4

/-- `IceObjC::EndpointI`; `secure` tells the two instances apart. -/
structure EndpointI where
  secure : Bool
  host : Str
  port : BitVec 32
  timeout : BitVec 32
  connectionId : Str
  compress : Bool
deriving DecidableEq

structure AccessoryEndpointI where
  manufacturer : Str
  modelNumber : Str
  name : Str
  protocol : Str
  timeout : BitVec 32
  connectionId : Str
  compress : Bool
deriving DecidableEq

inductive Endpoint where
  | objc (endpoint : EndpointI)
  | accessory (endpoint : AccessoryEndpointI)
deriving DecidableEq

/-- `IceObjC::Connector`. -/
structure Connector where
  secure : Bool
  timeout : BitVec 32
  connectionId : Str
  host : Str
  port : BitVec 32
deriving DecidableEq

structure Accessory where
  connected : Bool
  manufacturer : Str
  modelNumber : Str
  name : Str
  protocolStrings : List Str
deriving DecidableEq

structure AccessoryConnector where
  timeout : BitVec 32
  connectionId : Str
  protocol : Str
  accessory : Accessory
deriving DecidableEq

inductive AnyConnector where
  | objc (connector : Connector)
  | accessory (connector : AccessoryConnector)
deriving DecidableEq

def EndpointI.type (endpoint : EndpointI) : BitVec 16 :=
  if endpoint.secure then sslEndpointType else tcpEndpointType

def Endpoint.type : Endpoint → BitVec 16
  | .objc endpoint => endpoint.type
  | .accessory _ => accessoryEndpointType

def EndpointI.connector (endpoint : EndpointI) : Connector where
  secure := endpoint.secure
  timeout := endpoint.timeout
  connectionId := endpoint.connectionId
  host := if endpoint.host.isEmpty then text "127.0.0.1" else endpoint.host
  port := endpoint.port

def AccessoryEndpointI.effectiveProtocol (endpoint : AccessoryEndpointI) : Str :=
  if endpoint.protocol.isEmpty then text "com.zeroc.ice" else endpoint.protocol

/-- An empty attribute accepts any accessory. -/
def AccessoryEndpointI.accepts (endpoint : AccessoryEndpointI) (accessory : Accessory) : Bool :=
  accessory.connected &&
    (endpoint.manufacturer.isEmpty || endpoint.manufacturer = accessory.manufacturer) &&
    (endpoint.modelNumber.isEmpty || endpoint.modelNumber = accessory.modelNumber) &&
    (endpoint.name.isEmpty || endpoint.name = accessory.name) &&
    accessory.protocolStrings.contains endpoint.effectiveProtocol

def AccessoryEndpointI.connectors (endpoint : AccessoryEndpointI) (accessories : List Accessory) :
    List AccessoryConnector :=
  (accessories.filter endpoint.accepts).map fun accessory =>
    { timeout := endpoint.timeout
      connectionId := endpoint.connectionId
      protocol := endpoint.effectiveProtocol
      accessory }

/-- `connectors`, or `none` where a `ConnectFailedException` is thrown. -/
def Endpoint.connectors (accessories : List Accessory) : Endpoint → Option (List AnyConnector)
  | .objc endpoint => some [.objc endpoint.connector]
  | .accessory endpoint =>
      let found := endpoint.connectors accessories
      if found.isEmpty then none else some (found.map AnyConnector.accessory)

def EndpointI.equal (endpoint other : EndpointI) : Bool :=
  endpoint.host = other.host && endpoint.port = other.port && endpoint.timeout = other.timeout &&
    endpoint.connectionId = other.connectionId && endpoint.compress = other.compress

def EndpointI.less (endpoint other : EndpointI) : Bool :=
  decided (stringLess endpoint.host other.host) (stringLess other.host endpoint.host) <|
  decided (intLess endpoint.port other.port) (intLess other.port endpoint.port) <|
  decided (intLess endpoint.timeout other.timeout) (intLess other.timeout endpoint.timeout) <|
  decided (stringLess endpoint.connectionId other.connectionId)
    (stringLess other.connectionId endpoint.connectionId) <|
  decided (boolLess endpoint.compress other.compress) (boolLess other.compress endpoint.compress)
    false

def AccessoryEndpointI.equal (endpoint other : AccessoryEndpointI) : Bool :=
  endpoint.manufacturer = other.manufacturer && endpoint.modelNumber = other.modelNumber &&
    endpoint.name = other.name && endpoint.timeout = other.timeout &&
    endpoint.connectionId = other.connectionId && endpoint.compress = other.compress

def AccessoryEndpointI.less (endpoint other : AccessoryEndpointI) : Bool :=
  decided (stringLess endpoint.manufacturer other.manufacturer)
    (stringLess other.manufacturer endpoint.manufacturer) <|
  decided (stringLess endpoint.modelNumber other.modelNumber)
    (stringLess other.modelNumber endpoint.modelNumber) <|
  decided (stringLess endpoint.name other.name) (stringLess other.name endpoint.name) <|
  decided (intLess endpoint.timeout other.timeout) (intLess other.timeout endpoint.timeout) <|
  decided (stringLess endpoint.connectionId other.connectionId)
    (stringLess other.connectionId endpoint.connectionId) <|
  decided (boolLess endpoint.compress other.compress) (boolLess other.compress endpoint.compress)
    false

/-- `operator==`: endpoints of two classes are not equal. -/
def Endpoint.equal : Endpoint → Endpoint → Bool
  | .objc endpoint, .objc other => endpoint.equal other
  | .accessory endpoint, .accessory other => endpoint.equal other
  | _, _ => false

/-- `operator<`, which compares the types of endpoints of different classes. -/
def Endpoint.less : Endpoint → Endpoint → Bool
  | .objc endpoint, .objc other => endpoint.less other
  | .accessory endpoint, .accessory other => endpoint.less other
  | endpoint, other => intLess endpoint.type other.type

def Connector.equal (connector other : Connector) : Bool :=
  connector.timeout = other.timeout && connector.connectionId = other.connectionId &&
    connector.host = other.host && connector.port = other.port

def Connector.less (connector other : Connector) : Bool :=
  decided (intLess connector.timeout other.timeout) (intLess other.timeout connector.timeout) <|
  decided (stringLess connector.connectionId other.connectionId)
    (stringLess other.connectionId connector.connectionId) <|
  decided (stringLess connector.host other.host) (stringLess other.host connector.host) <|
  intLess connector.port other.port

/-- `hashInit` of the two classes. -/
def Endpoint.hashInit : Endpoint → BitVec 32
  | .objc endpoint =>
      (0 : BitVec 32) |> hashString endpoint.host |> hashInt endpoint.port
        |> hashInt endpoint.timeout |> hashString endpoint.connectionId |> hashBool endpoint.compress
  | .accessory endpoint =>
      (0 : BitVec 32) |> hashString endpoint.manufacturer |> hashString endpoint.modelNumber
        |> hashString endpoint.name |> hashInt endpoint.timeout |> hashString endpoint.connectionId

section marshalling

variable {δ σ : Type}

def EndpointI.streamWrite (encoding : Encoding) (endpoint : EndpointI) (stream : BasicStream σ) :
    BasicStream σ :=
  (stream.writeWord endpoint.type).writeEncaps encoding.version fun inner =>
    (((inner.writeString endpoint.host).writeWord endpoint.port).writeWord
      endpoint.timeout).writeBool endpoint.compress

def AccessoryEndpointI.streamWrite (encoding : Encoding) (endpoint : AccessoryEndpointI)
    (stream : BasicStream σ) : BasicStream σ :=
  (stream.writeWord accessoryEndpointType).writeEncaps encoding.version fun inner =>
    ((((inner.writeString endpoint.manufacturer).writeString endpoint.modelNumber).writeString
      endpoint.name).writeWord endpoint.timeout).writeBool endpoint.compress

def Endpoint.streamWrite (encoding : Encoding) : Endpoint → BasicStream σ → BasicStream σ
  | .objc endpoint => endpoint.streamWrite encoding
  | .accessory endpoint => endpoint.streamWrite encoding

/-- The constructor of an `EndpointI` that reads. -/
def readEndpointI (secure : Bool) : Reader δ Endpoint := do
  let host ← readString
  let port ← readWord 32
  let timeout ← readWord 32
  let compress ← readBool
  pure (.objc { secure, host, port, timeout, connectionId := [], compress })

def readAccessory : Reader δ Endpoint := do
  let manufacturer ← readString
  let modelNumber ← readString
  let name ← readString
  let timeout ← readWord 32
  let compress ← readBool
  pure (.accessory
    { manufacturer, modelNumber, name, protocol := [], timeout, connectionId := [], compress })

/-- `EndpointFactoryManager::read` with the three factories of the platform. There is `none`
for an endpoint that another class reads. -/
def readEndpoint (fresh : δ) (skipRef : Reader δ Unit) : Reader δ (Option Endpoint) := do
  let type ← readWord 16
  if type = tcpEndpointType then
    withEncaps fresh skipRef fun _ _ => some <$> readEndpointI false
  else if type = sslEndpointType then
    withEncaps fresh skipRef fun _ _ => some <$> readEndpointI true
  else if type = accessoryEndpointType then
    withEncaps fresh skipRef fun _ _ => some <$> readAccessory
  else
    withEncaps fresh skipRef fun _ size => do
      let _ ← readBlob (size - 6)
      pure none

end marshalling

end IceTouch.Transports

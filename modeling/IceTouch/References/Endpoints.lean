import IceTouch.Library.Comparison
import IceTouch.Strings.ProxyStrings

/-!
# Endpoints

`TcpEndpointI`, `UdpEndpointI` and `OpaqueEndpointI` as values, with their attributes, the
endpoints that differ from them in one attribute, their comparison operators and their hash.
-/

namespace IceTouch.References

open Bytes WireTypes Escape Comparison
open Proxies (TcpEndpoint)

structure UdpEndpoint where
  host : Str
  port : BitVec 32
  mcastInterface : Str
  mcastTtl : BitVec 32
  connect : Bool
  connectionId : Str
  compress : Bool
deriving DecidableEq

/-- An endpoint whose type has no factory. Its connection id is always empty. -/
structure OpaqueEndpoint where
  type : BitVec 16
  rawEncoding : Version
  rawBytes : List Byte
  foreign : type ≠ tcpEndpointType ∧ type ≠ udpEndpointType

instance : DecidableEq OpaqueEndpoint := fun endpoint other =>
  decidable_of_iff
    (endpoint.type = other.type ∧ endpoint.rawEncoding = other.rawEncoding ∧
      endpoint.rawBytes = other.rawBytes)
    (by
      cases endpoint
      cases other
      simp)

inductive Endpoint where
  | tcp (endpoint : TcpEndpoint)
  | udp (endpoint : UdpEndpoint)
  | opaque_ (endpoint : OpaqueEndpoint)
deriving DecidableEq

namespace Endpoint

def type : Endpoint → BitVec 16
  | .tcp _ => tcpEndpointType
  | .udp _ => udpEndpointType
  | .opaque_ endpoint => endpoint.type

def timeout : Endpoint → BitVec 32
  | .tcp endpoint => endpoint.timeout
  | .udp _ => -1
  | .opaque_ _ => -1

def connectionId : Endpoint → Str
  | .tcp endpoint => endpoint.connectionId
  | .udp endpoint => endpoint.connectionId
  | .opaque_ _ => []

def compress : Endpoint → Bool
  | .tcp endpoint => endpoint.compress
  | .udp endpoint => endpoint.compress
  | .opaque_ _ => false

def datagram : Endpoint → Bool
  | .udp _ => true
  | _ => false

/-- None of the three classes is secure. -/
def secure (_ : Endpoint) : Bool := false

def isOpaque : Endpoint → Bool
  | .opaque_ _ => true
  | _ => false

/-- `timeout(Int)`: only a TCP endpoint has one. -/
def setTimeout (timeout : BitVec 32) : Endpoint → Endpoint
  | .tcp endpoint =>
      if timeout = endpoint.timeout then .tcp endpoint
      else .tcp { endpoint with timeout := timeout }
  | endpoint => endpoint

/-- `connectionId(const string&)`. -/
def setConnectionId (connectionId : Str) : Endpoint → Endpoint
  | .tcp endpoint =>
      if connectionId = endpoint.connectionId then .tcp endpoint
      else .tcp { endpoint with connectionId := connectionId }
  | .udp endpoint =>
      if connectionId = endpoint.connectionId then .udp endpoint
      else .udp { endpoint with connectionId := connectionId }
  | endpoint => endpoint

/-- `compress(bool)`. -/
def setCompress (compress : Bool) : Endpoint → Endpoint
  | .tcp endpoint =>
      if compress = endpoint.compress then .tcp endpoint
      else .tcp { endpoint with compress := compress }
  | .udp endpoint =>
      if compress = endpoint.compress then .udp endpoint
      else .udp { endpoint with compress := compress }
  | endpoint => endpoint

end Endpoint

/-- `operator<` of `std::string`, which compares the bytes as unsigned numbers. -/
def stringLess : Str → Str → Bool := lexicographical fun first second => first < second

def intLess {width : Nat} (first second : BitVec width) : Bool := first.toInt < second.toInt

def boolLess (first second : Bool) : Bool := !first && second

/-- `operator<` of `ProtocolVersion` and `EncodingVersion`. -/
def versionLess (first second : Version) : Bool :=
  decided (first.major < second.major) (second.major < first.major)
    (first.minor < second.minor)

def tcpLess (endpoint other : TcpEndpoint) : Bool :=
  decided (stringLess endpoint.host other.host) (stringLess other.host endpoint.host) <|
  decided (intLess endpoint.port other.port) (intLess other.port endpoint.port) <|
  decided (intLess endpoint.timeout other.timeout) (intLess other.timeout endpoint.timeout) <|
  decided (stringLess endpoint.connectionId other.connectionId)
    (stringLess other.connectionId endpoint.connectionId) <|
  decided (boolLess endpoint.compress other.compress) (boolLess other.compress endpoint.compress)
    false

def udpLess (endpoint other : UdpEndpoint) : Bool :=
  decided (stringLess endpoint.host other.host) (stringLess other.host endpoint.host) <|
  decided (intLess endpoint.port other.port) (intLess other.port endpoint.port) <|
  decided (stringLess endpoint.connectionId other.connectionId)
    (stringLess other.connectionId endpoint.connectionId) <|
  decided (boolLess endpoint.compress other.compress)
    (boolLess other.compress endpoint.compress) <|
  decided (boolLess endpoint.connect other.connect) (boolLess other.connect endpoint.connect) <|
  decided (intLess endpoint.mcastTtl other.mcastTtl) (intLess other.mcastTtl endpoint.mcastTtl) <|
  decided (stringLess endpoint.mcastInterface other.mcastInterface)
    (stringLess other.mcastInterface endpoint.mcastInterface) false

def opaqueLess (endpoint other : OpaqueEndpoint) : Bool :=
  decided (intLess endpoint.type other.type) (intLess other.type endpoint.type) <|
  decided (versionLess endpoint.rawEncoding other.rawEncoding)
    (versionLess other.rawEncoding endpoint.rawEncoding) <|
  decided (stringLess endpoint.rawBytes other.rawBytes)
    (stringLess other.rawBytes endpoint.rawBytes) false

/-- `operator<`, which compares the types of endpoints of different classes. -/
def Endpoint.less : Endpoint → Endpoint → Bool
  | .tcp endpoint, .tcp other => tcpLess endpoint other
  | .udp endpoint, .udp other => udpLess endpoint other
  | .opaque_ endpoint, .opaque_ other => opaqueLess endpoint other
  | endpoint, other => intLess endpoint.type other.type

/-- `operator==`. -/
def Endpoint.equal : Endpoint → Endpoint → Bool
  | .tcp endpoint, .tcp other =>
      endpoint.host = other.host && endpoint.port = other.port &&
        endpoint.timeout = other.timeout && endpoint.connectionId = other.connectionId &&
        endpoint.compress = other.compress
  | .udp endpoint, .udp other =>
      endpoint.host = other.host && endpoint.port = other.port &&
        endpoint.compress = other.compress && endpoint.connectionId = other.connectionId &&
        endpoint.connect = other.connect && endpoint.mcastTtl = other.mcastTtl &&
        endpoint.mcastInterface = other.mcastInterface
  | .opaque_ endpoint, .opaque_ other =>
      endpoint.type = other.type && endpoint.rawEncoding = other.rawEncoding &&
        endpoint.rawBytes = other.rawBytes
  | _, _ => false

theorem endpoint_equal_iff (endpoint other : Endpoint) :
    endpoint.equal other = true ↔ endpoint = other := by
  cases endpoint with
  | tcp first =>
      cases other with
      | tcp second =>
          cases first
          cases second
          simp [Endpoint.equal, and_assoc]
      | udp second => simp [Endpoint.equal]
      | opaque_ second => simp [Endpoint.equal]
  | udp first =>
      cases other with
      | tcp second => simp [Endpoint.equal]
      | udp second =>
          cases first
          cases second
          simp only [Endpoint.equal, Bool.and_eq_true, decide_eq_true_eq, Endpoint.udp.injEq,
            UdpEndpoint.mk.injEq]
          tauto
      | opaque_ second => simp [Endpoint.equal]
  | opaque_ first =>
      cases other with
      | tcp second => simp [Endpoint.equal]
      | udp second => simp [Endpoint.equal]
      | opaque_ second =>
          cases first
          cases second
          simp [Endpoint.equal, and_assoc]

/-- `hashAdd` for a number. -/
def hashInt (value hashCode : BitVec 32) : BitVec 32 :=
  ((hashCode <<< 5) + hashCode) ^^^ (2654435761 * value)

def hashBool (value : Bool) (hashCode : BitVec 32) : BitVec 32 :=
  ((hashCode <<< 5) + hashCode) ^^^ (if value then 1 else 0)

/-- `hashAdd` for a string, whose characters are signed. -/
def hashString (value : Str) (hashCode : BitVec 32) : BitVec 32 :=
  value.foldl (fun code char => ((code <<< 5) + code) ^^^ char.toBitVec.signExtend 32) hashCode

def hashByte (value : Byte) (hashCode : BitVec 32) : BitVec 32 :=
  hashInt (value.toBitVec.setWidth 32) hashCode

def hashBytes (value : List Byte) (hashCode : BitVec 32) : BitVec 32 :=
  value.foldl (fun code byte => hashByte byte code) hashCode

/-- `hashInit` of the three classes. -/
def Endpoint.hash : Endpoint → BitVec 32
  | .tcp endpoint =>
      (5381 : BitVec 32) |> hashInt (tcpEndpointType.signExtend 32) |> hashString endpoint.host
        |> hashInt endpoint.port |> hashInt endpoint.timeout
        |> hashString endpoint.connectionId |> hashBool endpoint.compress
  | .udp endpoint =>
      (5381 : BitVec 32) |> hashInt (udpEndpointType.signExtend 32) |> hashString endpoint.host
        |> hashInt endpoint.port |> hashString endpoint.mcastInterface
        |> hashInt endpoint.mcastTtl |> hashBool endpoint.connect
        |> hashString endpoint.connectionId |> hashBool endpoint.compress
  | .opaque_ endpoint =>
      (5381 : BitVec 32) |> hashInt (endpoint.type.signExtend 32)
        |> hashByte endpoint.rawEncoding.major |> hashByte endpoint.rawEncoding.minor
        |> hashBytes endpoint.rawBytes

end IceTouch.References

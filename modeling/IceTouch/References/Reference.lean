import IceTouch.References.Endpoints

/-!
# References

`FixedReference` and `RoutableReference` as values, with their comparison operators and their
hash. A router or locator is itself a reference, and a fixed connection is known by its
address. What is cached of a reference, and what it shares with its communicator, is left out.
-/

namespace IceTouch.References

open Bytes WireTypes Identities Comparison

/-- The attributes of a `Reference`. The context is a map, in the order of its keys. -/
structure ReferenceBase where
  mode : ProxyMode
  secure : Bool
  identity : Identity
  context : List (Str × Str)
  facet : Str
  protocol : Version
  encoding : Version
  overrideCompress : Bool
  compress : Bool
deriving DecidableEq

inductive EndpointSelectionType where
  | random
  | ordered
deriving DecidableEq

/-- A `RoutableReference`, with `ρ` for the routers and locators. The connection id of the
endpoints is their own. -/
structure RoutableReference (ρ : Type) where
  base : ReferenceBase
  endpoints : List Endpoint
  adapterId : Str
  locatorInfo : Option ρ
  routerInfo : Option ρ
  collocationOptimized : Bool
  cacheConnection : Bool
  preferSecure : Bool
  endpointSelection : EndpointSelectionType
  locatorCacheTimeout : BitVec 32
  overrideTimeout : Bool
  timeout : BitVec 32
  connectionId : Str

inductive Reference where
  | fixed (base : ReferenceBase) (fixedConnection : Nat)
  | routable (reference : RoutableReference Reference)

/-- `operator<` of `Identity`. -/
def identityLess (first second : Identity) : Bool :=
  decided (stringLess first.name second.name) (stringLess second.name first.name)
    (stringLess first.category second.category)

def contextLess : List (Str × Str) → List (Str × Str) → Bool :=
  lexicographical fun first second =>
    decided (stringLess first.1 second.1) (stringLess second.1 first.1)
      (stringLess first.2 second.2)

/-- The value of `Reference::Mode`. -/
def modeValue : ProxyMode → Nat
  | .twoway => 0
  | .oneway => 1
  | .batchOneway => 2
  | .datagram => 3
  | .batchDatagram => 4

def selectionValue : EndpointSelectionType → Nat
  | .random => 0
  | .ordered => 1

namespace ReferenceBase

/-- `Reference::operator==`. -/
def equal (base other : ReferenceBase) : Bool :=
  base.mode = other.mode && base.secure = other.secure && base.identity = other.identity &&
    base.context = other.context && base.facet = other.facet &&
    (base.overrideCompress = other.overrideCompress &&
      (!base.overrideCompress || base.compress = other.compress)) &&
    base.protocol = other.protocol && base.encoding = other.encoding

/-- `Reference::operator<`. -/
def less (base other : ReferenceBase) : Bool :=
  decided (modeValue base.mode < modeValue other.mode) (modeValue other.mode < modeValue base.mode) <|
  decided (identityLess base.identity other.identity)
    (identityLess other.identity base.identity) <|
  decided (contextLess base.context other.context) (contextLess other.context base.context) <|
  decided (stringLess base.facet other.facet) (stringLess other.facet base.facet) <|
  decided (!base.overrideCompress && other.overrideCompress)
    (boolLess other.overrideCompress base.overrideCompress) <|
  let rest :=
    decided (!base.secure && other.secure) (boolLess other.secure base.secure) <|
    decided (versionLess base.protocol other.protocol)
      (versionLess other.protocol base.protocol) <|
    decided (versionLess base.encoding other.encoding)
      (versionLess other.encoding base.encoding) false
  if base.overrideCompress then
    decided (!base.compress && other.compress) (boolLess other.compress base.compress) rest
  else rest

/-- `Reference::hashInit`. -/
def hash (base : ReferenceBase) : BitVec 32 :=
  let start := (5381 : BitVec 32) |> hashInt (BitVec.ofNat 32 (modeValue base.mode))
    |> hashBool base.secure |> hashString base.identity.name |> hashString base.identity.category
  let context := base.context.foldl (fun code entry =>
    code |> hashString entry.1 |> hashString entry.2) start
  let flag := context |> hashString base.facet |> hashBool base.overrideCompress
  let compressed := if base.overrideCompress then hashBool base.compress flag else flag
  compressed |> hashByte base.protocol.major |> hashByte base.protocol.minor
    |> hashByte base.encoding.major |> hashByte base.encoding.minor

end ReferenceBase

mutual

/-- `operator==` of the two classes. -/
def Reference.equal : Reference → Reference → Bool
  | .fixed base connection, .fixed other connection' =>
      base.equal other && connection = connection'
  | .routable reference, .routable other => routableEqual reference other
  | _, _ => false

/-- `RoutableReference::operator==`. -/
def routableEqual : RoutableReference Reference → RoutableReference Reference → Bool
  | ⟨base, endpoints, adapterId, locatorInfo, routerInfo, collocationOptimized, cacheConnection,
      preferSecure, endpointSelection, locatorCacheTimeout, overrideTimeout, timeout,
      connectionId⟩,
    ⟨base', endpoints', adapterId', locatorInfo', routerInfo', collocationOptimized',
      cacheConnection', preferSecure', endpointSelection', locatorCacheTimeout', overrideTimeout',
      timeout', connectionId'⟩ =>
      base.equal base' && preferSecure = preferSecure' &&
        collocationOptimized = collocationOptimized' && cacheConnection = cacheConnection' &&
        endpointSelection = endpointSelection' && connectionId = connectionId' &&
        (overrideTimeout = overrideTimeout' && (!overrideTimeout || timeout = timeout')) &&
        infoEqual routerInfo routerInfo' && infoEqual locatorInfo locatorInfo' &&
        allEqual Endpoint.equal endpoints endpoints' && adapterId = adapterId' &&
        locatorCacheTimeout = locatorCacheTimeout'

/-- `operator==` of the handles of a `RouterInfo` or a `LocatorInfo`. -/
def infoEqual : Option Reference → Option Reference → Bool
  | some reference, some other => reference.equal other
  | none, none => true
  | _, _ => false

end

mutual

/-- `operator<` of the two classes: routable references come before fixed ones. -/
def Reference.less : Reference → Reference → Bool
  | .fixed base connection, .fixed other connection' =>
      decided (base.less other) (!base.equal other) (connection < connection')
  | .fixed base _, .routable other => decided (base.less other.base) (!base.equal other.base) false
  | .routable reference, .fixed other _ =>
      decided (reference.base.less other) (!reference.base.equal other) true
  | .routable reference, .routable other =>
      decided (reference.base.less other.base) (!reference.base.equal other.base)
        (routableLess reference other)
termination_by reference other => sizeOf reference + sizeOf other

/-- What `RoutableReference::operator<` compares after the base class. -/
def routableLess : RoutableReference Reference → RoutableReference Reference → Bool
  | ⟨_, endpoints, adapterId, locatorInfo, routerInfo, collocationOptimized, cacheConnection,
      preferSecure, endpointSelection, locatorCacheTimeout, overrideTimeout, timeout,
      connectionId⟩,
    ⟨_, endpoints', adapterId', locatorInfo', routerInfo', collocationOptimized',
      cacheConnection', preferSecure', endpointSelection', locatorCacheTimeout', overrideTimeout',
      timeout', connectionId'⟩ =>
      decided (!preferSecure && preferSecure') (boolLess preferSecure' preferSecure) <|
      decided (!collocationOptimized && collocationOptimized')
        (boolLess collocationOptimized' collocationOptimized) <|
      decided (!cacheConnection && cacheConnection') (boolLess cacheConnection' cacheConnection) <|
      decided (selectionValue endpointSelection < selectionValue endpointSelection')
        (selectionValue endpointSelection' < selectionValue endpointSelection) <|
      decided (stringLess connectionId connectionId') (stringLess connectionId' connectionId) <|
      decided (!overrideTimeout && overrideTimeout') (boolLess overrideTimeout' overrideTimeout) <|
      let rest :=
        decided (infoLess routerInfo routerInfo') (infoLess routerInfo' routerInfo) <|
        decided (infoLess locatorInfo locatorInfo') (infoLess locatorInfo' locatorInfo) <|
        decided (stringLess adapterId adapterId') (stringLess adapterId' adapterId) <|
        decided (lexicographical Endpoint.less endpoints endpoints')
          (lexicographical Endpoint.less endpoints' endpoints) <|
        decided (intLess locatorCacheTimeout locatorCacheTimeout')
          (intLess locatorCacheTimeout' locatorCacheTimeout) false
      if overrideTimeout then decided (intLess timeout timeout') (intLess timeout' timeout) rest
      else rest
termination_by reference other => sizeOf reference + sizeOf other

/-- `operator<` of the handles of a `RouterInfo` or a `LocatorInfo`. -/
def infoLess : Option Reference → Option Reference → Bool
  | some reference, some other => reference.less other
  | none, some _ => true
  | _, none => false
termination_by info other => sizeOf info + sizeOf other

end

/-- `hashInit` of the two classes. -/
def Reference.hash : Reference → BitVec 32
  | .fixed base _ => base.hash
  | .routable reference => hashString reference.adapterId reference.base.hash

end IceTouch.References

import IceTouch.References.Reference

/-!
# References with another attribute

The operations `change…` of `RoutableReference`. They give the same reference where the value
is the old one, and a copy otherwise. `ReferenceFactory::copy` clones the reference; it would
give a null handle for a reference without identity, but the factory makes none, and
`ice_identity` throws before it changes to an identity without name. Where an operation throws
`FixedProxyException`, there is no new reference.
-/

namespace IceTouch.References

open Bytes WireTypes Identities

abbrev Routable := RoutableReference Reference

namespace Reference

def base : Reference → ReferenceBase
  | .fixed base _ => base
  | .routable reference => reference.base

end Reference

/-- `LocatorManager::get`: the locator can't be located. A fixed proxy refuses `ice_locator`. A
`LocatorInfo` that is found in the table has an equal locator. -/
def locatorManagerGet : Option Reference → Option (Option Reference)
  | none => some none
  | some (.fixed _ _) => none
  | some (.routable locator) => some (some (.routable { locator with locatorInfo := none }))

/-- `RouterManager::get`: the router cannot be routed. -/
def routerManagerGet : Option Reference → Option (Option Reference)
  | none => some none
  | some (.fixed _ _) => none
  | some (.routable router) => some (some (.routable { router with routerInfo := none }))

namespace RoutableReference

def changeContext (newContext : List (Str × Str)) (reference : Routable) : Routable :=
  { reference with base := { reference.base with context := newContext } }

def changeMode (newMode : ProxyMode) (reference : Routable) : Routable :=
  if newMode = reference.base.mode then reference
  else { reference with base := { reference.base with mode := newMode } }

def changeSecure (newSecure : Bool) (reference : Routable) : Routable :=
  if newSecure = reference.base.secure then reference
  else { reference with base := { reference.base with secure := newSecure } }

def changeIdentity (newIdentity : Identity) (reference : Routable) : Routable :=
  if newIdentity = reference.base.identity then reference
  else { reference with base := { reference.base with identity := newIdentity } }

def changeFacet (newFacet : Str) (reference : Routable) : Routable :=
  if newFacet = reference.base.facet then reference
  else { reference with base := { reference.base with facet := newFacet } }

def changeCompress (newCompress : Bool) (reference : Routable) : Routable :=
  if reference.base.overrideCompress = true ∧ newCompress = reference.base.compress then reference
  else
    { reference with
      base := { reference.base with compress := newCompress, overrideCompress := true }
      endpoints :=
        if reference.endpoints = [] then reference.endpoints
        else reference.endpoints.map (Endpoint.setCompress newCompress) }

/-- `applyOverrides`, for one endpoint. -/
def applyOverride (reference : Routable) (endpoint : Endpoint) : Endpoint :=
  let connected := endpoint.setConnectionId reference.connectionId
  let compressed :=
    if reference.base.overrideCompress then connected.setCompress reference.base.compress
    else connected
  if reference.overrideTimeout then compressed.setTimeout reference.timeout else compressed

def applyOverrides (reference : Routable) (endpoints : List Endpoint) : List Endpoint :=
  endpoints.map reference.applyOverride

def changeEndpoints (newEndpoints : List Endpoint) (reference : Routable) : Routable :=
  if newEndpoints = reference.endpoints then reference
  else { reference with endpoints := reference.applyOverrides newEndpoints, adapterId := [] }

def changeAdapterId (newAdapterId : Str) (reference : Routable) : Routable :=
  if newAdapterId = reference.adapterId then reference
  else { reference with adapterId := newAdapterId, endpoints := [] }

def changeTimeout (newTimeout : BitVec 32) (reference : Routable) : Routable :=
  if reference.overrideTimeout = true ∧ newTimeout = reference.timeout then reference
  else
    { reference with
      timeout := newTimeout
      overrideTimeout := true
      endpoints :=
        if reference.endpoints = [] then reference.endpoints
        else reference.endpoints.map (Endpoint.setTimeout newTimeout) }

def changeConnectionId (id : Str) (reference : Routable) : Routable :=
  if id = reference.connectionId then reference
  else
    { reference with
      connectionId := id
      endpoints :=
        if reference.endpoints = [] then reference.endpoints
        else reference.endpoints.map (Endpoint.setConnectionId id) }

def changeLocator (newLocator : Option Reference) (reference : Routable) : Option Routable := do
  let newLocatorInfo ← locatorManagerGet newLocator
  if infoEqual newLocatorInfo reference.locatorInfo then reference
  else some { reference with locatorInfo := newLocatorInfo }

def changeRouter (newRouter : Option Reference) (reference : Routable) : Option Routable := do
  let newRouterInfo ← routerManagerGet newRouter
  if infoEqual newRouterInfo reference.routerInfo then reference
  else some { reference with routerInfo := newRouterInfo }

def changeCollocationOptimized (newCollocationOptimized : Bool) (reference : Routable) :
    Routable :=
  if newCollocationOptimized = reference.collocationOptimized then reference
  else { reference with collocationOptimized := newCollocationOptimized }

def changeCacheConnection (newCache : Bool) (reference : Routable) : Routable :=
  if newCache = reference.cacheConnection then reference
  else { reference with cacheConnection := newCache }

def changePreferSecure (newPreferSecure : Bool) (reference : Routable) : Routable :=
  if newPreferSecure = reference.preferSecure then reference
  else { reference with preferSecure := newPreferSecure }

def changeEndpointSelection (newType : EndpointSelectionType) (reference : Routable) : Routable :=
  if newType = reference.endpointSelection then reference
  else { reference with endpointSelection := newType }

def changeLocatorCacheTimeout (timeout : BitVec 32) (reference : Routable) : Routable :=
  if timeout = reference.locatorCacheTimeout then reference
  else { reference with locatorCacheTimeout := timeout }

end RoutableReference

mutual

/-- `changeEncoding` of the two classes. -/
def Reference.changeEncoding (encoding : Version) : Reference → Option Reference
  | .fixed base connection => some (.fixed { base with encoding := encoding } connection)
  | .routable reference => (routableChangeEncoding encoding reference).map .routable

/-- `RoutableReference::changeEncoding`. -/
def routableChangeEncoding (encoding : Version) : Routable → Option Routable
  | ⟨base, endpoints, adapterId, locatorInfo, routerInfo, collocationOptimized, cacheConnection,
      preferSecure, endpointSelection, locatorCacheTimeout, overrideTimeout, timeout,
      connectionId⟩ =>
      if base.encoding = encoding then
        some ⟨base, endpoints, adapterId, locatorInfo, routerInfo, collocationOptimized,
          cacheConnection, preferSecure, endpointSelection, locatorCacheTimeout, overrideTimeout,
          timeout, connectionId⟩
      else do
        let newLocatorInfo ← infoChangeEncoding encoding locatorInfo
        some ⟨{ base with encoding := encoding }, endpoints, adapterId, newLocatorInfo, routerInfo,
          collocationOptimized, cacheConnection, preferSecure, endpointSelection,
          locatorCacheTimeout, overrideTimeout, timeout, connectionId⟩

def infoChangeEncoding (encoding : Version) : Option Reference → Option (Option Reference)
  | none => some none
  | some locator =>
      if locator.base.encoding = encoding then some (some locator)
      else do
        let encoded ← locator.changeEncoding encoding
        locatorManagerGet (some encoded)

end

namespace RoutableReference

def changeEncoding (encoding : Version) (reference : Routable) : Option Routable :=
  routableChangeEncoding encoding reference

end RoutableReference

inductive Change where
  | context (newContext : List (Str × Str))
  | mode (newMode : ProxyMode)
  | secure (newSecure : Bool)
  | identity (newIdentity : Identity) (named : newIdentity.name ≠ [])
  | facet (newFacet : Str)
  | encoding (newEncoding : Version)
  | compress (newCompress : Bool)
  | endpoints (newEndpoints : List Endpoint)
  | adapterId (newAdapterId : Str)
  | locator (newLocator : Option Reference)
  | router (newRouter : Option Reference)
  | collocationOptimized (newCollocationOptimized : Bool)
  | cacheConnection (newCache : Bool)
  | preferSecure (newPreferSecure : Bool)
  | endpointSelection (newType : EndpointSelectionType)
  | locatorCacheTimeout (newTimeout : BitVec 32)
  | timeout (newTimeout : BitVec 32)
  | connectionId (id : Str)

inductive Attribute where
  | context | mode | secure | identity | facet | encoding | compress | endpoints | adapterId
  | locator | router | collocationOptimized | cacheConnection | preferSecure
  | endpointSelection | locatorCacheTimeout | timeout | connectionId
deriving DecidableEq

namespace Change

def field : Change → Attribute
  | .context _ => .context
  | .mode _ => .mode
  | .secure _ => .secure
  | .identity _ _ => .identity
  | .facet _ => .facet
  | .encoding _ => .encoding
  | .compress _ => .compress
  | .endpoints _ => .endpoints
  | .adapterId _ => .adapterId
  | .locator _ => .locator
  | .router _ => .router
  | .collocationOptimized _ => .collocationOptimized
  | .cacheConnection _ => .cacheConnection
  | .preferSecure _ => .preferSecure
  | .endpointSelection _ => .endpointSelection
  | .locatorCacheTimeout _ => .locatorCacheTimeout
  | .timeout _ => .timeout
  | .connectionId _ => .connectionId

def apply : Change → Routable → Option Routable
  | .context newContext, reference => some (reference.changeContext newContext)
  | .mode newMode, reference => some (reference.changeMode newMode)
  | .secure newSecure, reference => some (reference.changeSecure newSecure)
  | .identity newIdentity _, reference => some (reference.changeIdentity newIdentity)
  | .facet newFacet, reference => some (reference.changeFacet newFacet)
  | .encoding newEncoding, reference => reference.changeEncoding newEncoding
  | .compress newCompress, reference => some (reference.changeCompress newCompress)
  | .endpoints newEndpoints, reference => some (reference.changeEndpoints newEndpoints)
  | .adapterId newAdapterId, reference => some (reference.changeAdapterId newAdapterId)
  | .locator newLocator, reference => reference.changeLocator newLocator
  | .router newRouter, reference => reference.changeRouter newRouter
  | .collocationOptimized newOptimized, reference =>
      some (reference.changeCollocationOptimized newOptimized)
  | .cacheConnection newCache, reference => some (reference.changeCacheConnection newCache)
  | .preferSecure newPreferSecure, reference => some (reference.changePreferSecure newPreferSecure)
  | .endpointSelection newType, reference => some (reference.changeEndpointSelection newType)
  | .locatorCacheTimeout newTimeout, reference =>
      some (reference.changeLocatorCacheTimeout newTimeout)
  | .timeout newTimeout, reference => some (reference.changeTimeout newTimeout)
  | .connectionId id, reference => some (reference.changeConnectionId id)

def applyAll : List Change → Routable → Option Routable
  | [], reference => some reference
  | change :: changes, reference => (change.apply reference).bind (applyAll changes)

end Change

/-- What the factory makes: no override, and no connection id, neither in the reference nor in
its endpoints. The constructor asserts that the adapter id or the endpoints are empty. -/
structure Created (reference : Routable) : Prop where
  direct : reference.adapterId = [] ∨ reference.endpoints = []
  compress : reference.base.overrideCompress = false
  timeout : reference.overrideTimeout = false
  connectionId : reference.connectionId = []
  endpoints : ∀ endpoint ∈ reference.endpoints, endpoint.connectionId = []

end IceTouch.References

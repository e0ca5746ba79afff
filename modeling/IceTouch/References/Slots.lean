import IceTouch.Library.Parts
import IceTouch.References.Changes

/-!
# What an operation touches

The parts of a routable reference that an operation reads and writes. The encoding and the
locator are one part; so is all that concerns the endpoints.
-/

namespace IceTouch.References

open Bytes WireTypes Identities Parts

structure Target where
  endpoints : List Endpoint
  adapterId : Str
  overrideCompress : Bool
  compress : Bool
  overrideTimeout : Bool
  timeout : BitVec 32
  connectionId : Str

inductive Slot where
  | context | mode | secure | identity | facet | locating | target | router
  | collocationOptimized | cacheConnection | preferSecure | endpointSelection
  | locatorCacheTimeout
deriving DecidableEq

/-- `applyOverrides` reads nothing else of the reference. -/
def Target.applyOverride (target : Target) (endpoint : Endpoint) : Endpoint :=
  let connected := endpoint.setConnectionId target.connectionId
  let compressed :=
    if target.overrideCompress then connected.setCompress target.compress else connected
  if target.overrideTimeout then compressed.setTimeout target.timeout else compressed

namespace Slot

@[reducible] def Value : Slot → Type
  | .context => List (Str × Str)
  | .mode => ProxyMode
  | .secure => Bool
  | .identity => Identity
  | .facet => Str
  | .locating => Version × Option Reference
  | .target => Target
  | .router => Option Reference
  | .collocationOptimized => Bool
  | .cacheConnection => Bool
  | .preferSecure => Bool
  | .endpointSelection => EndpointSelectionType
  | .locatorCacheTimeout => BitVec 32

def part : (slot : Slot) → Part Routable slot.Value
  | .context =>
      ⟨fun reference => reference.base.context, fun value reference =>
        { reference with base := { reference.base with context := value } }⟩
  | .mode =>
      ⟨fun reference => reference.base.mode, fun value reference =>
        { reference with base := { reference.base with mode := value } }⟩
  | .secure =>
      ⟨fun reference => reference.base.secure, fun value reference =>
        { reference with base := { reference.base with secure := value } }⟩
  | .identity =>
      ⟨fun reference => reference.base.identity, fun value reference =>
        { reference with base := { reference.base with identity := value } }⟩
  | .facet =>
      ⟨fun reference => reference.base.facet, fun value reference =>
        { reference with base := { reference.base with facet := value } }⟩
  | .locating =>
      ⟨fun reference => (reference.base.encoding, reference.locatorInfo), fun value reference =>
        { reference with
          base := { reference.base with encoding := value.1 }
          locatorInfo := value.2 }⟩
  | .target =>
      ⟨fun reference =>
        { endpoints := reference.endpoints
          adapterId := reference.adapterId
          overrideCompress := reference.base.overrideCompress
          compress := reference.base.compress
          overrideTimeout := reference.overrideTimeout
          timeout := reference.timeout
          connectionId := reference.connectionId },
        fun value reference =>
          { reference with
            base := { reference.base with
              overrideCompress := value.overrideCompress
              compress := value.compress }
            endpoints := value.endpoints
            adapterId := value.adapterId
            overrideTimeout := value.overrideTimeout
            timeout := value.timeout
            connectionId := value.connectionId }⟩
  | .router =>
      ⟨fun reference => reference.routerInfo, fun value reference =>
        { reference with routerInfo := value }⟩
  | .collocationOptimized =>
      ⟨fun reference => reference.collocationOptimized, fun value reference =>
        { reference with collocationOptimized := value }⟩
  | .cacheConnection =>
      ⟨fun reference => reference.cacheConnection, fun value reference =>
        { reference with cacheConnection := value }⟩
  | .preferSecure =>
      ⟨fun reference => reference.preferSecure, fun value reference =>
        { reference with preferSecure := value }⟩
  | .endpointSelection =>
      ⟨fun reference => reference.endpointSelection, fun value reference =>
        { reference with endpointSelection := value }⟩
  | .locatorCacheTimeout =>
      ⟨fun reference => reference.locatorCacheTimeout, fun value reference =>
        { reference with locatorCacheTimeout := value }⟩

theorem independent {slot other : Slot} (differ : slot ≠ other) :
    Part.Independent slot.part other.part := by
  cases slot <;> cases other <;>
    first
    | exact absurd rfl differ
    | exact ⟨fun _ _ => rfl, fun _ _ => rfl, fun _ _ _ => rfl⟩

end Slot

namespace Change

def slot : Change → Slot
  | .context _ => .context
  | .mode _ => .mode
  | .secure _ => .secure
  | .identity _ _ => .identity
  | .facet _ => .facet
  | .encoding _ => .locating
  | .compress _ => .target
  | .endpoints _ => .target
  | .adapterId _ => .target
  | .locator _ => .locating
  | .router _ => .router
  | .collocationOptimized _ => .collocationOptimized
  | .cacheConnection _ => .cacheConnection
  | .preferSecure _ => .preferSecure
  | .endpointSelection _ => .endpointSelection
  | .locatorCacheTimeout _ => .locatorCacheTimeout
  | .timeout _ => .target
  | .connectionId _ => .target

theorem set_get (slot : Slot) (reference : Routable) :
    slot.part.set (slot.part.get reference) reference = reference := by
  cases slot <;> rfl

theorem carries_guarded (slot : Slot) {change : Routable → Option Routable}
    (guard : slot.Value → Prop) [DecidablePred guard] (revised : slot.Value → slot.Value)
    (acts : ∀ reference, change reference =
      some (if guard (slot.part.get reference) then reference
        else slot.part.set (revised (slot.part.get reference)) reference)) :
    slot.part.Carries change := by
  refine ⟨fun value => some (if guard value then value else revised value), ?_⟩
  intro reference
  rw [acts, Part.revise, Option.map_some]
  by_cases kept : guard (slot.part.get reference)
  · rw [if_pos kept, if_pos kept, set_get]
  · rw [if_neg kept, if_neg kept]

theorem locator_carries (newLocator : Option Reference) :
    Slot.locating.part.Carries fun reference => reference.changeLocator newLocator := by
  refine ⟨fun value => (locatorManagerGet newLocator).map fun newLocatorInfo =>
    if infoEqual newLocatorInfo value.2 then value else (value.1, newLocatorInfo), ?_⟩
  intro reference
  simp only [RoutableReference.changeLocator, Part.revise]
  cases locatorManagerGet newLocator with
  | none => rfl
  | some newLocatorInfo =>
      simp only [Option.bind_eq_bind, Option.bind_some, Option.map_some]
      by_cases kept : infoEqual newLocatorInfo reference.locatorInfo = true
      · simp [Slot.part, kept]
      · simp [Slot.part, kept]

theorem router_carries (newRouter : Option Reference) :
    Slot.router.part.Carries fun reference => reference.changeRouter newRouter := by
  refine ⟨fun value => (routerManagerGet newRouter).map fun newRouterInfo =>
    if infoEqual newRouterInfo value then value else newRouterInfo, ?_⟩
  intro reference
  simp only [RoutableReference.changeRouter, Part.revise]
  cases routerManagerGet newRouter with
  | none => rfl
  | some newRouterInfo =>
      simp only [Option.bind_eq_bind, Option.bind_some, Option.map_some]
      by_cases kept : infoEqual newRouterInfo reference.routerInfo = true
      · simp [Slot.part, kept]
      · simp [Slot.part, kept]

theorem encoding_carries (encoding : Version) :
    Slot.locating.part.Carries fun reference => reference.changeEncoding encoding := by
  refine ⟨fun value =>
    if value.1 = encoding then some value
    else (infoChangeEncoding encoding value.2).map fun newLocatorInfo =>
      (encoding, newLocatorInfo), ?_⟩
  intro reference
  cases reference with
  | mk base =>
      simp only [RoutableReference.changeEncoding, Part.revise, routableChangeEncoding]
      by_cases kept : base.encoding = encoding
      · subst kept
        simp only [Slot.part, if_true, Option.map_some]
      · simp only [Slot.part, kept, if_false]
        cases infoChangeEncoding encoding _ <;> rfl

theorem carries (change : Change) : change.slot.part.Carries change.apply := by
  cases change with
  | context newContext =>
      exact carries_guarded .context (fun _ => False) (fun _ => newContext) fun _ => rfl
  | mode newMode =>
      exact carries_guarded .mode (fun mode => newMode = mode) (fun _ => newMode) fun _ => rfl
  | secure newSecure =>
      exact carries_guarded .secure (fun secure => newSecure = secure) (fun _ => newSecure)
        fun _ => rfl
  | identity newIdentity named =>
      exact carries_guarded .identity (fun identity => newIdentity = identity)
        (fun _ => newIdentity) fun _ => rfl
  | facet newFacet =>
      exact carries_guarded .facet (fun facet => newFacet = facet) (fun _ => newFacet)
        fun _ => rfl
  | encoding newEncoding => exact encoding_carries newEncoding
  | compress newCompress =>
      exact carries_guarded .target
        (fun target => target.overrideCompress = true ∧ newCompress = target.compress)
        (fun target =>
          { target with
            compress := newCompress
            overrideCompress := true
            endpoints :=
              if target.endpoints = [] then target.endpoints
              else target.endpoints.map (Endpoint.setCompress newCompress) })
        fun _ => rfl
  | endpoints newEndpoints =>
      exact carries_guarded .target (fun target => newEndpoints = target.endpoints)
        (fun target =>
          { target with endpoints := newEndpoints.map target.applyOverride, adapterId := [] })
        fun _ => rfl
  | adapterId newAdapterId =>
      exact carries_guarded .target (fun target => newAdapterId = target.adapterId)
        (fun target => { target with adapterId := newAdapterId, endpoints := [] }) fun _ => rfl
  | locator newLocator => exact locator_carries newLocator
  | router newRouter => exact router_carries newRouter
  | collocationOptimized newOptimized =>
      exact carries_guarded .collocationOptimized (fun optimized => newOptimized = optimized)
        (fun _ => newOptimized) fun _ => rfl
  | cacheConnection newCache =>
      exact carries_guarded .cacheConnection (fun cache => newCache = cache) (fun _ => newCache)
        fun _ => rfl
  | preferSecure newPreferSecure =>
      exact carries_guarded .preferSecure (fun preferSecure => newPreferSecure = preferSecure)
        (fun _ => newPreferSecure) fun _ => rfl
  | endpointSelection newType =>
      exact carries_guarded .endpointSelection (fun type => newType = type) (fun _ => newType)
        fun _ => rfl
  | locatorCacheTimeout newTimeout =>
      exact carries_guarded .locatorCacheTimeout (fun timeout => newTimeout = timeout)
        (fun _ => newTimeout) fun _ => rfl
  | timeout newTimeout =>
      exact carries_guarded .target
        (fun target => target.overrideTimeout = true ∧ newTimeout = target.timeout)
        (fun target =>
          { target with
            timeout := newTimeout
            overrideTimeout := true
            endpoints :=
              if target.endpoints = [] then target.endpoints
              else target.endpoints.map (Endpoint.setTimeout newTimeout) })
        fun _ => rfl
  | connectionId id =>
      exact carries_guarded .target (fun target => id = target.connectionId)
        (fun target =>
          { target with
            connectionId := id
            endpoints :=
              if target.endpoints = [] then target.endpoints
              else target.endpoints.map (Endpoint.setConnectionId id) })
        fun _ => rfl

theorem slots_commute {first second : Change} (differ : first.slot ≠ second.slot)
    (reference : Routable) :
    (first.apply reference).bind second.apply = (second.apply reference).bind first.apply :=
  Part.carries_commute (Slot.independent differ) (carries first) (carries second) reference

end Change

end IceTouch.References

import IceTouch.References.Reference
import IceTouch.Sequences.Completeness

/-!
# Marshalled proxies

`ProxyFactory::proxyToStream` and `ProxyFactory::streamToProxy` for the references of a
communicator. A stream carries only some of the attributes of a reference and of its endpoints;
`ReferenceFactory::create` gives the others the defaults of the receiver.
-/

namespace IceTouch.References

open Bytes WireTypes Identities OutStream StreamHelpers
open InStream Transfer Sequences Run

variable {δ σ : Type}

/-- The encodings that `checkSupportedEncoding` lets pass. -/
def supported (version : Version) : Option Encoding :=
  if version.major = 1 ∧ version.minor = 0 then some .v10
  else if version.major = 1 ∧ version.minor = 1 then some .v11
  else none

namespace Endpoint

/-- What `streamWrite` sends of an endpoint. The encapsulation of an opaque endpoint is begun with
its own encoding, and `none` is where `startWriteEncaps` throws. -/
def sent : Endpoint → Option WireTypes.Endpoint
  | .tcp endpoint => some (.tcp endpoint.host endpoint.port endpoint.timeout endpoint.compress)
  | .udp endpoint => some (.udp endpoint.host endpoint.port endpoint.compress)
  | .opaque_ endpoint =>
      (supported endpoint.rawEncoding).map fun encoding =>
        .raw endpoint.type endpoint.foreign encoding endpoint.rawBytes

def received : WireTypes.Endpoint → Endpoint
  | .tcp host port timeout compress =>
      .tcp { host, port, timeout, connectionId := [], compress }
  | .udp host port compress =>
      .udp { host, port, mcastInterface := [], mcastTtl := -1, connect := false,
             connectionId := [], compress }
  | .raw type foreign rawEncoding rawBytes =>
      .opaque_ { type, rawEncoding := rawEncoding.version, rawBytes, foreign }

/-- What is not sent of an endpoint is as a constructor that reads leaves it. -/
def Sendable : Endpoint → Prop
  | .tcp endpoint => endpoint.connectionId = []
  | .udp endpoint =>
      endpoint.mcastInterface = [] ∧ endpoint.mcastTtl = -1 ∧ endpoint.connect = false ∧
        endpoint.connectionId = []
  | .opaque_ endpoint => (supported endpoint.rawEncoding).isSome = true

end Endpoint

/-- The defaults of a communicator. The locator is the one that the locator manager has for the
default locator in an encoding. -/
structure ReferenceFactory where
  defaultLocator : Version → Option Reference
  defaultRouter : Option Reference
  defaultCollocationOptimization : Bool
  defaultPreferSecure : Bool
  defaultEndpointSelection : EndpointSelectionType
  defaultLocatorCacheTimeout : BitVec 32

namespace ReferenceFactory

/-- `create` without a property prefix. -/
def create (factory : ReferenceFactory) (reference : WireTypes.Reference) :
    RoutableReference Reference where
  base :=
    { mode := reference.mode
      secure := reference.secure
      identity := ⟨reference.name, reference.category⟩
      context := []
      facet := reference.facet
      protocol := reference.protocol
      encoding := reference.encoding
      overrideCompress := false
      compress := false }
  endpoints := reference.endpoints.map Endpoint.received
  adapterId := reference.adapterId
  locatorInfo := factory.defaultLocator reference.encoding
  routerInfo := factory.defaultRouter
  collocationOptimized := factory.defaultCollocationOptimization
  cacheConnection := true
  preferSecure := factory.defaultPreferSecure
  endpointSelection := factory.defaultEndpointSelection
  locatorCacheTimeout := factory.defaultLocatorCacheTimeout
  overrideTimeout := false
  timeout := -1
  connectionId := []

end ReferenceFactory

/-- A reference that can be written, and what is written of it. `RoutableReference::streamWrite`
asserts that endpoints exclude an adapter id, and no reference is without an identity. -/
def RoutableReference.sent (reference : RoutableReference Reference) : Option WireTypes.Reference :=
  if fits : ¬(reference.base.identity.name = [] ∧ reference.base.identity.category = []) ∧
      (reference.endpoints ≠ [] → reference.adapterId = []) then
    match same : reference.endpoints.mapM Endpoint.sent with
    | some endpoints =>
        some
          { name := reference.base.identity.name
            category := reference.base.identity.category
            facet := reference.base.facet
            mode := reference.base.mode
            secure := reference.base.secure
            protocol := reference.base.protocol
            encoding := reference.base.encoding
            endpoints := endpoints
            adapterId := reference.adapterId
            identified := fits.1
            direct := fun some => fits.2 fun none => by
              rw [none] at same
              exact some (Option.some.inj same).symm }
    | none => none
  else none

/-- `proxyToStream`, or `none` for an exception or a failed assertion. -/
def proxyToStream (encoding : Encoding) (proxy : Option (RoutableReference Reference))
    (stream : BasicStream σ) : Option (BasicStream σ) :=
  match proxy with
  | some reference =>
      reference.sent.map fun sent => stream.writeProxy encoding (some sent)
  | none => some (stream.writeProxy encoding none)

def streamToProxy (factory : ReferenceFactory) (encoding : Encoding) (fresh : δ)
    (skipRef : Reader δ Unit) : Reader δ (Option (RoutableReference Reference)) := do
  let proxy ← readProxy encoding fresh skipRef
  pure (proxy.map factory.create)

/-- What a stream carries of a reference: encoding 1.0 has no room for its protocol and encoding,
and the locator follows the encoding. -/
def ReferenceFactory.carriedBy (factory : ReferenceFactory) (encoding : Encoding)
    (reference : RoutableReference Reference) : RoutableReference Reference :=
  match encoding with
  | .v10 =>
      { reference with
        base := { reference.base with protocol := ⟨1, 0⟩, encoding := ⟨1, 0⟩ }
        locatorInfo := factory.defaultLocator ⟨1, 0⟩ }
  | .v11 => reference

/-- What is not sent of a reference is as `create` leaves it. -/
structure ReferenceFactory.Sendable (factory : ReferenceFactory)
    (reference : RoutableReference Reference) : Prop where
  named : reference.base.identity.name ≠ []
  direct : reference.endpoints ≠ [] → reference.adapterId = []
  endpoints : ∀ endpoint ∈ reference.endpoints, endpoint.Sendable
  context : reference.base.context = []
  compress : reference.base.overrideCompress = false ∧ reference.base.compress = false
  timeout : reference.overrideTimeout = false ∧ reference.timeout = -1
  connectionId : reference.connectionId = []
  cacheConnection : reference.cacheConnection = true
  locatorInfo : reference.locatorInfo = factory.defaultLocator reference.base.encoding
  routerInfo : reference.routerInfo = factory.defaultRouter
  collocationOptimized : reference.collocationOptimized = factory.defaultCollocationOptimization
  preferSecure : reference.preferSecure = factory.defaultPreferSecure
  endpointSelection : reference.endpointSelection = factory.defaultEndpointSelection
  locatorCacheTimeout : reference.locatorCacheTimeout = factory.defaultLocatorCacheTimeout

theorem supported_version {version : Version} {encoding : Encoding}
    (same : supported version = some encoding) : encoding.version = version := by
  obtain ⟨major, minor⟩ := version
  unfold supported at same
  split at same
  · next is =>
      obtain ⟨rfl, rfl⟩ : major = 1 ∧ minor = 0 := is
      cases same
      rfl
  · split at same
    · next is =>
        obtain ⟨rfl, rfl⟩ : major = 1 ∧ minor = 1 := is
        cases same
        rfl
    · cases same

theorem Endpoint.received_sent {endpoint : Endpoint} (sendable : endpoint.Sendable) :
    ∃ sent, endpoint.sent = some sent ∧ received sent = endpoint := by
  cases endpoint with
  | tcp endpoint =>
      obtain ⟨host, port, timeout, connectionId, compress⟩ := endpoint
      cases sendable
      exact ⟨_, rfl, rfl⟩
  | udp endpoint =>
      obtain ⟨host, port, mcastInterface, mcastTtl, connect, connectionId, compress⟩ := endpoint
      obtain ⟨unbound, hops, unconnected, unnamed⟩ := sendable
      cases unbound
      cases hops
      cases unconnected
      cases unnamed
      exact ⟨_, rfl, rfl⟩
  | opaque_ endpoint =>
      obtain ⟨encoding, same⟩ := Option.isSome_iff_exists.mp sendable
      refine ⟨.raw endpoint.type endpoint.foreign encoding endpoint.rawBytes, ?_, ?_⟩
      · rw [sent, same]
        rfl
      · rw [received, supported_version same]

theorem received_all {endpoints : List Endpoint}
    (sendable : ∀ endpoint ∈ endpoints, endpoint.Sendable) :
    ∃ sent, endpoints.mapM Endpoint.sent = some sent ∧
      sent.map Endpoint.received = endpoints := by
  induction endpoints with
  | nil => exact ⟨[], rfl, rfl⟩
  | cons endpoint rest ih =>
      obtain ⟨here, first⟩ := List.forall_mem_cons.mp sendable
      obtain ⟨one, written, read⟩ := Endpoint.received_sent here
      obtain ⟨others, all, back⟩ := ih first
      refine ⟨one :: others, ?_, ?_⟩
      · rw [List.mapM_cons, written, all]
        rfl
      · rw [List.map_cons, read, back]

theorem ReferenceFactory.create_sent {factory : ReferenceFactory}
    {reference : RoutableReference Reference} (sendable : factory.Sendable reference)
    (encoding : Encoding) :
    ∃ sent, reference.sent = some sent ∧
      factory.create (sent.carriedBy encoding) = factory.carriedBy encoding reference := by
  obtain ⟨sent, written, read⟩ := received_all sendable.endpoints
  obtain ⟨⟨mode, secure, ⟨name, category⟩, context, facet, protocol, target, overrideCompress,
    compress⟩, endpoints, adapterId, locatorInfo, routerInfo, collocationOptimized,
    cacheConnection, preferSecure, endpointSelection, locatorCacheTimeout, overrideTimeout,
    timeout, connectionId⟩ := reference
  obtain ⟨named, direct, -, contextless, ⟨uncompressed, plain⟩, ⟨timeless, endless⟩, unnamed,
    cached, locator, router, collocated, preferred, selection, cacheTimeout⟩ := sendable
  cases contextless
  cases uncompressed
  cases plain
  cases timeless
  cases endless
  cases unnamed
  cases cached
  obtain rfl : locatorInfo = factory.defaultLocator target := locator
  obtain rfl : routerInfo = factory.defaultRouter := router
  obtain rfl : collocationOptimized = factory.defaultCollocationOptimization := collocated
  obtain rfl : preferSecure = factory.defaultPreferSecure := preferred
  obtain rfl : endpointSelection = factory.defaultEndpointSelection := selection
  obtain rfl : locatorCacheTimeout = factory.defaultLocatorCacheTimeout := cacheTimeout
  unfold RoutableReference.sent
  rw [dif_pos ⟨fun none => named none.1, direct⟩]
  split
  · next found same =>
      obtain rfl : sent = found := Option.some.inj (written.symm.trans same)
      refine ⟨_, rfl, ?_⟩
      cases read
      cases encoding <;> rfl
  · next missing =>
      rw [written] at missing
      cases missing

theorem read_proxy_back {stream : ReadStream δ} {encoding : Encoding} {proxy : Proxy}
    {rest : List Byte} (fresh : δ) (skipRef : Reader δ Unit)
    (ahead : Ahead stream (proxyBytes encoding proxy) rest) (unset : stream.startSeq = -1) :
    ∃ after, readProxy encoding fresh skipRef stream =
        .ok (proxy.map (WireTypes.Reference.carriedBy encoding)) after ∧
      after.pos = stream.pos + (proxyBytes encoding proxy).length := by
  have whole := checks_proxy fresh skipRef encoding proxy stream rest ahead
  have estimated : ∃ final, walk stream.buf.length none (announcedProxy proxy stream.pos) =
      some final := by
    have written : Ahead stream (bytesOf encoding .proxy proxy) rest := ahead
    obtain ⟨final, walked, -⟩ := announced_walk written none fun _ found => by cases found
    exact ⟨final, walked⟩
  have passes : (checks stream.buf.length (estimateOf stream)
      (announcedProxy proxy stream.pos)).isSome = true :=
    checks_fresh ahead.bounded unset _ (Option.isSome_iff_exists.mpr estimated)
  obtain ⟨reached, passed⟩ := Option.isSome_iff_exists.mp passes
  rw [passed] at whole
  obtain ⟨value, after, ran, moved, -, same⟩ := whole
  rw [same] at ran
  exact ⟨after, ran, moved.pos⟩

/-- A proxy whose other attributes are those of the receiver is read back as the stream carries
it, over exactly the bytes that were written. -/
theorem marshalled_proxy_round_trip (factory : ReferenceFactory) (encoding : Encoding)
    (fresh : δ) (skipRef : Reader δ Unit) (proxy : Option (RoutableReference Reference))
    (sendable : ∀ reference ∈ proxy, factory.Sendable reference) :
    ∃ bytes, (∀ out : BasicStream σ, proxyToStream encoding proxy out = some (out.writeBlob bytes)) ∧
      ∀ (stream : ReadStream δ) (rest : List Byte), Ahead stream bytes rest →
        stream.startSeq = -1 →
          ∃ after, streamToProxy factory encoding fresh skipRef stream =
              .ok (proxy.map (factory.carriedBy encoding)) after ∧
            after.pos = stream.pos + bytes.length := by
  cases proxy with
  | none =>
      refine ⟨proxyBytes encoding none, fun out => ?_, fun stream rest ahead unset => ?_⟩
      · rw [proxyToStream, write_proxy_eq_blob]
      · obtain ⟨after, ran, pos⟩ := read_proxy_back fresh skipRef ahead unset
        refine ⟨after, ?_, pos⟩
        rw [streamToProxy, bind_of_ok ran]
        rfl
  | some reference =>
      obtain ⟨sent, written, created⟩ := ReferenceFactory.create_sent (sendable _ rfl) encoding
      refine ⟨proxyBytes encoding (some sent), fun out => ?_, fun stream rest ahead unset => ?_⟩
      · rw [proxyToStream, written, Option.map_some, write_proxy_eq_blob]
      · obtain ⟨after, ran, pos⟩ := read_proxy_back fresh skipRef ahead unset
        refine ⟨after, ?_, pos⟩
        rw [streamToProxy, bind_of_ok ran, Option.map_some, Option.map_some, Option.map_some,
          created]
        rfl

def plainFactory : ReferenceFactory where
  defaultLocator := fun _ => none
  defaultRouter := none
  defaultCollocationOptimization := true
  defaultPreferSecure := false
  defaultEndpointSelection := .random
  defaultLocatorCacheTimeout := -1

/-- A datagram proxy with endpoints of all three classes, and with the defaults otherwise. -/
def mixedProxy : RoutableReference Reference :=
  plainFactory.create
    { name := [112]
      category := []
      facet := []
      mode := .datagram
      secure := false
      protocol := ⟨1, 0⟩
      encoding := ⟨1, 1⟩
      endpoints :=
        [.tcp [104] 4061 5000 true, .udp [104] 4062 true,
          .raw 99 ⟨by decide, by decide⟩ .v10 [1, 2, 3]]
      adapterId := []
      identified := by decide
      direct := fun _ => rfl }

theorem mixed_proxy_read_back :
    ∃ bytes, (∀ out : BasicStream Unit,
        proxyToStream .v11 (some mixedProxy) out = some (out.writeBlob bytes)) ∧
      ∀ (stream : ReadStream Unit) (rest : List Byte), Ahead stream bytes rest →
        stream.startSeq = -1 →
          ∃ after, streamToProxy plainFactory .v11 () (pure ()) stream =
              .ok (some mixedProxy) after ∧
            after.pos = stream.pos + bytes.length :=
  marshalled_proxy_round_trip plainFactory .v11 () (pure ()) (some mixedProxy) (by
    rintro reference ⟨⟩
    exact
      { named := by decide
        direct := fun _ => rfl
        endpoints := by
          intro endpoint inside
          obtain rfl | inside := List.mem_cons.mp inside
          · rfl
          · obtain rfl | inside := List.mem_cons.mp inside
            · exact ⟨rfl, rfl, rfl, rfl⟩
            · rw [List.mem_singleton.mp inside]
              rfl
        context := rfl
        compress := ⟨rfl, rfl⟩
        timeout := ⟨rfl, rfl⟩
        connectionId := rfl
        cacheConnection := rfl
        locatorInfo := rfl
        routerInfo := rfl
        collocationOptimized := rfl
        preferSecure := rfl
        endpointSelection := rfl
        locatorCacheTimeout := rfl })

/-- `p -d:udp -h 239.255.1.1 -p 10000 --ttl 2`, with the defaults otherwise. -/
def multicastProxy : RoutableReference Reference :=
  { mixedProxy with
    endpoints :=
      [.udp
        { host := [50, 51, 57, 46, 50, 53, 53, 46, 49, 46, 49]
          port := 10000
          mcastInterface := []
          mcastTtl := 2
          connect := false
          connectionId := []
          compress := false }] }

/-- The number of hops is not marshalled, and the reference that is read differs from the one that
was written. -/
theorem multicast_ttl_lost :
    ∃ (out : BasicStream Unit) (read : RoutableReference Reference) (after : ReadStream Unit),
      proxyToStream .v11 (some multicastProxy) ⟨[], ()⟩ = some out ∧
      streamToProxy plainFactory .v11 () (pure ()) (ReadStream.fresh out.b ()) =
        .ok (some read) after ∧
      routableEqual read multicastProxy = false := by
  refine ⟨_, _, _, rfl, rfl, ?_⟩
  decide

end IceTouch.References

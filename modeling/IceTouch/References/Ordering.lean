import IceTouch.References.Reference

/-!
# The order of references

At any two endpoints, and at any two references, the comparison operators decide one ordering:
the lexicographic one of the attributes, with routable references before fixed ones. Hence
`operator<` is a strict weak order and `operator==` its equivalence; the hash reads only what
`operator==` compares.
-/

namespace IceTouch.References

open Bytes WireTypes Identities Comparison
open Proxies (TcpEndpoint)

def stringOrder : Str → Str → Ordering :=
  listOrder fun first second => cmp first.toNat second.toNat

def intOrder {width : Nat} (first second : BitVec width) : Ordering :=
  cmp first.toInt second.toInt

def boolOrder (first second : Bool) : Ordering := cmp first.toNat second.toNat

def versionOrder (first second : Version) : Ordering :=
  (cmp first.major.toNat second.major.toNat).then (cmp first.minor.toNat second.minor.toNat)

theorem lawful_string : Lawful stringOrder :=
  lawful_list (lawful_cmp.comap UInt8.toNat)

variable {width : Nat} {other : ReferenceBase}

theorem lawful_int : Lawful (@intOrder width) :=
  lawful_cmp.comap BitVec.toInt

theorem lawful_bool : Lawful boolOrder := lawful_cmp.comap Bool.toNat

theorem lawful_version : Lawful versionOrder :=
  (lawful_cmp.comap fun version : Version => version.major.toNat).chain
    (lawful_cmp.comap fun version : Version => version.minor.toNat)

theorem decides_byte (first second : Byte) :
    Decides (decide (first < second)) (decide (second < first)) (decide (first = second))
      (cmp first.toNat second.toNat) :=
  decides_cmp UInt8.toNat (fun _ _ same => UInt8.toNat_inj.mp same) first second

theorem decides_string (first second : Str) :
    Decides (stringLess first second) (stringLess second first) (decide (first = second))
      (stringOrder first second) := by
  rw [← all_equal_decide]
  exact decides_list decides_byte first second

theorem decides_int (first second : BitVec width) :
    Decides (intLess first second) (intLess second first) (decide (first = second))
      (intOrder first second) :=
  decides_cmp BitVec.toInt (fun _ _ same => BitVec.toInt_inj.mp same) first second

theorem decides_bool (first second : Bool) :
    Decides (boolLess first second) (boolLess second first) (decide (first = second))
      (boolOrder first second) := by
  cases first <;> cases second
  · exact decides_eq
  · exact decides_lt
  · exact decides_gt
  · exact decides_eq

theorem decides_version (first second : Version) :
    Decides (versionLess first second) (versionLess second first) (decide (first = second))
      (versionOrder first second) := by
  cases first
  cases second
  refine ((decides_byte _ _).chain (decides_byte _ _)).rewrite ?_
  simp

def tcpOrder (endpoint other : TcpEndpoint) : Ordering :=
  (stringOrder endpoint.host other.host).then <|
  (intOrder endpoint.port other.port).then <|
  (intOrder endpoint.timeout other.timeout).then <|
  (stringOrder endpoint.connectionId other.connectionId).then <|
  (boolOrder endpoint.compress other.compress).then .eq

def udpOrder (endpoint other : UdpEndpoint) : Ordering :=
  (stringOrder endpoint.host other.host).then <|
  (intOrder endpoint.port other.port).then <|
  (stringOrder endpoint.connectionId other.connectionId).then <|
  (boolOrder endpoint.compress other.compress).then <|
  (boolOrder endpoint.connect other.connect).then <|
  (intOrder endpoint.mcastTtl other.mcastTtl).then <|
  (stringOrder endpoint.mcastInterface other.mcastInterface).then .eq

def rawOrder (endpoint other : OpaqueEndpoint) : Ordering :=
  (versionOrder endpoint.rawEncoding other.rawEncoding).then <|
  (stringOrder endpoint.rawBytes other.rawBytes).then .eq

def sameTypeOrder : Endpoint → Endpoint → Ordering
  | .tcp endpoint, .tcp other => tcpOrder endpoint other
  | .udp endpoint, .udp other => udpOrder endpoint other
  | .opaque_ endpoint, .opaque_ other => rawOrder endpoint other
  | _, _ => .eq

def endpointOrder (endpoint other : Endpoint) : Ordering :=
  (intOrder endpoint.type other.type).then (sameTypeOrder endpoint other)

theorem int_order_eq {first second : BitVec width} (same : intOrder first second = .eq) :
    first = second :=
  BitVec.toInt_inj.mp ((cmp_eq_eq_iff _ _).mp same)

theorem decides_types (endpoint other : Endpoint) (differ : endpoint.type ≠ other.type)
    (rest : Ordering) :
    Decides (intLess endpoint.type other.type) (intLess other.type endpoint.type) false
      ((intOrder endpoint.type other.type).then rest) := by
  have decides := decides_int endpoint.type other.type
  rw [decide_eq_false differ] at decides
  obtain ⟨less, greater, _, order⟩ | ⟨less, greater, _, order⟩ | ⟨_, _, equal, _⟩ :=
    decides_cases decides
  · rw [less, greater, order]
    exact decides_lt
  · rw [less, greater, order]
    exact decides_gt
  · cases equal

theorem decides_tcp (endpoint other : TcpEndpoint) :
    Decides (tcpLess endpoint other) (tcpLess other endpoint)
      (Endpoint.equal (.tcp endpoint) (.tcp other)) (tcpOrder endpoint other) := by
  have chained := (decides_string endpoint.host other.host).chain <|
    (decides_int endpoint.port other.port).chain <|
    (decides_int endpoint.timeout other.timeout).chain <|
    (decides_string endpoint.connectionId other.connectionId).chain <|
    (decides_bool endpoint.compress other.compress).chain decides_eq
  exact chained.rewrite (by simp [Endpoint.equal, and_assoc])

theorem decides_udp (endpoint other : UdpEndpoint) :
    Decides (udpLess endpoint other) (udpLess other endpoint)
      (Endpoint.equal (.udp endpoint) (.udp other)) (udpOrder endpoint other) := by
  have chained := (decides_string endpoint.host other.host).chain <|
    (decides_int endpoint.port other.port).chain <|
    (decides_string endpoint.connectionId other.connectionId).chain <|
    (decides_bool endpoint.compress other.compress).chain <|
    (decides_bool endpoint.connect other.connect).chain <|
    (decides_int endpoint.mcastTtl other.mcastTtl).chain <|
    (decides_string endpoint.mcastInterface other.mcastInterface).chain decides_eq
  refine chained.rewrite ?_
  simp only [Endpoint.equal, Bool.and_eq_true, decide_eq_true_eq]
  tauto

theorem decides_raw (endpoint other : OpaqueEndpoint) :
    Decides (opaqueLess endpoint other) (opaqueLess other endpoint)
      (Endpoint.equal (.opaque_ endpoint) (.opaque_ other))
      ((intOrder endpoint.type other.type).then (rawOrder endpoint other)) := by
  have chained := (decides_int endpoint.type other.type).chain <|
    (decides_version endpoint.rawEncoding other.rawEncoding).chain <|
    (decides_string endpoint.rawBytes other.rawBytes).chain decides_eq
  exact chained.rewrite (by simp [Endpoint.equal, and_assoc])

theorem decides_endpoint (endpoint other : Endpoint) :
    Decides (endpoint.less other) (other.less endpoint) (endpoint.equal other)
      (endpointOrder endpoint other) := by
  have tcpUdp : tcpEndpointType ≠ udpEndpointType := by decide
  cases endpoint with
  | tcp first =>
      cases other with
      | tcp second => exact decides_tcp first second
      | udp second => exact decides_types (.tcp first) (.udp second) tcpUdp _
      | opaque_ second => exact decides_types (.tcp first) (.opaque_ second) second.foreign.1.symm _
  | udp first =>
      cases other with
      | tcp second => exact decides_types (.udp first) (.tcp second) tcpUdp.symm _
      | udp second => exact decides_udp first second
      | opaque_ second => exact decides_types (.udp first) (.opaque_ second) second.foreign.2.symm _
  | opaque_ first =>
      cases other with
      | tcp second => exact decides_types (.opaque_ first) (.tcp second) first.foreign.1 _
      | udp second => exact decides_types (.opaque_ first) (.udp second) first.foreign.2 _
      | opaque_ second => exact decides_raw first second

theorem lawful_tcp : Lawful tcpOrder :=
  (lawful_string.comap TcpEndpoint.host).chain <|
  (lawful_int.comap TcpEndpoint.port).chain <|
  (lawful_int.comap TcpEndpoint.timeout).chain <|
  (lawful_string.comap TcpEndpoint.connectionId).chain <|
  (lawful_bool.comap TcpEndpoint.compress).chain lawful_eq

theorem lawful_udp : Lawful udpOrder :=
  (lawful_string.comap UdpEndpoint.host).chain <|
  (lawful_int.comap UdpEndpoint.port).chain <|
  (lawful_string.comap UdpEndpoint.connectionId).chain <|
  (lawful_bool.comap UdpEndpoint.compress).chain <|
  (lawful_bool.comap UdpEndpoint.connect).chain <|
  (lawful_int.comap UdpEndpoint.mcastTtl).chain <|
  (lawful_string.comap UdpEndpoint.mcastInterface).chain lawful_eq

theorem lawful_raw : Lawful rawOrder :=
  (lawful_version.comap OpaqueEndpoint.rawEncoding).chain <|
  (lawful_string.comap OpaqueEndpoint.rawBytes).chain lawful_eq

theorem follows_same_type {first second third : Endpoint} (one : first.type = second.type)
    (two : second.type = third.type) :
    Follows (sameTypeOrder first second) (sameTypeOrder second third)
      (sameTypeOrder first third) := by
  have tcpUdp : tcpEndpointType ≠ udpEndpointType := by decide
  cases first with
  | tcp first =>
      cases second with
      | tcp second =>
          cases third with
          | tcp third => exact lawful_tcp.follows first second third
          | udp third => exact absurd two tcpUdp
          | opaque_ third => exact absurd two.symm third.foreign.1
      | udp second => exact absurd one tcpUdp
      | opaque_ second => exact absurd one.symm second.foreign.1
  | udp first =>
      cases second with
      | tcp second => exact absurd one.symm tcpUdp
      | udp second =>
          cases third with
          | tcp third => exact absurd two.symm tcpUdp
          | udp third => exact lawful_udp.follows first second third
          | opaque_ third => exact absurd two.symm third.foreign.2
      | opaque_ second => exact absurd one.symm second.foreign.2
  | opaque_ first =>
      cases second with
      | tcp second => exact absurd one first.foreign.1
      | udp second => exact absurd one first.foreign.2
      | opaque_ second =>
          cases third with
          | tcp third => exact absurd two second.foreign.1
          | udp third => exact absurd two second.foreign.2
          | opaque_ third => exact lawful_raw.follows first second third

theorem lawful_endpoint : Lawful endpointOrder :=
  lawful_of_decides decides_endpoint fun first second third =>
    (lawful_int.follows first.type second.type third.type).thenSame fun one two =>
      follows_same_type (int_order_eq one) (int_order_eq two)

def identityOrder (first second : Identity) : Ordering :=
  (stringOrder first.name second.name).then (stringOrder first.category second.category)

def contextOrder : List (Str × Str) → List (Str × Str) → Ordering :=
  listOrder fun first second =>
    (stringOrder first.1 second.1).then (stringOrder first.2 second.2)

def baseOrder (base other : ReferenceBase) : Ordering :=
  (cmp (modeValue base.mode) (modeValue other.mode)).then <|
  (identityOrder base.identity other.identity).then <|
  (contextOrder base.context other.context).then <|
  (stringOrder base.facet other.facet).then <|
  (guardedOrder base.overrideCompress other.overrideCompress
    (boolOrder base.compress other.compress)).then <|
  (boolOrder base.secure other.secure).then <|
  (versionOrder base.protocol other.protocol).then <|
  (versionOrder base.encoding other.encoding).then .eq

theorem decides_identity (first second : Identity) :
    Decides (identityLess first second) (identityLess second first) (decide (first = second))
      (identityOrder first second) := by
  cases first
  cases second
  exact ((decides_string _ _).chain (decides_string _ _)).rewrite (by simp)

theorem decides_context (first second : List (Str × Str)) :
    Decides (contextLess first second) (contextLess second first) (decide (first = second))
      (contextOrder first second) := by
  rw [← all_equal_decide]
  apply decides_list
  intro first second
  cases first
  cases second
  exact ((decides_string _ _).chain (decides_string _ _)).rewrite (by simp)

theorem mode_value_injective : Function.Injective modeValue := by
  intro first second same
  cases first <;> cases second <;> first | rfl | cases same

theorem decides_base (base other : ReferenceBase) :
    Decides (base.less other) (other.less base) (base.equal other) (baseOrder base other) := by
  have chained := (decides_cmp modeValue mode_value_injective base.mode other.mode).chain <|
    (decides_identity base.identity other.identity).chain <|
    (decides_context base.context other.context).chain <|
    (decides_string base.facet other.facet).chain <|
    (decides_bool base.compress other.compress).guarded base.overrideCompress
      other.overrideCompress <|
    (decides_bool base.secure other.secure).chain <|
    (decides_version base.protocol other.protocol).chain <|
    (decides_version base.encoding other.encoding).chain decides_eq
  refine chained.rewrite ?_
  simp only [ReferenceBase.equal, Bool.and_eq_true, decide_eq_true_eq, beq_iff_eq]
  tauto

theorem lawful_identity : Lawful identityOrder :=
  (lawful_string.comap Identity.name).chain (lawful_string.comap Identity.category)

theorem lawful_context : Lawful contextOrder :=
  lawful_list ((lawful_string.comap Prod.fst).chain (lawful_string.comap Prod.snd))

theorem lawful_base : Lawful baseOrder :=
  (lawful_cmp.comap fun base : ReferenceBase => modeValue base.mode).chain <|
  (lawful_identity.comap ReferenceBase.identity).chain <|
  (lawful_context.comap ReferenceBase.context).chain <|
  (lawful_string.comap ReferenceBase.facet).chain <|
  ((lawful_bool.comap ReferenceBase.compress).guarded ReferenceBase.overrideCompress).chain <|
  (lawful_bool.comap ReferenceBase.secure).chain <|
  (lawful_version.comap ReferenceBase.protocol).chain <|
  (lawful_version.comap ReferenceBase.encoding).chain lawful_eq

def selectionOrder (first second : EndpointSelectionType) : Ordering :=
  cmp (selectionValue first) (selectionValue second)

def addressOrder (connection other : Nat) : Ordering := cmp connection other

mutual

def referenceOrder : Reference → Reference → Ordering
  | .fixed base connection, .fixed other connection' =>
      (baseOrder base other).then (addressOrder connection connection')
  | .fixed base _, .routable other => (baseOrder base other.base).then .gt
  | .routable reference, .fixed other _ => (baseOrder reference.base other).then .lt
  | .routable reference, .routable other =>
      (baseOrder reference.base other.base).then (routableOrder reference other)

def routableOrder : RoutableReference Reference → RoutableReference Reference → Ordering
  | ⟨_, endpoints, adapterId, locatorInfo, routerInfo, collocationOptimized, cacheConnection,
      preferSecure, endpointSelection, locatorCacheTimeout, overrideTimeout, timeout,
      connectionId⟩,
    ⟨_, endpoints', adapterId', locatorInfo', routerInfo', collocationOptimized',
      cacheConnection', preferSecure', endpointSelection', locatorCacheTimeout', overrideTimeout',
      timeout', connectionId'⟩ =>
      (boolOrder preferSecure preferSecure').then <|
      (boolOrder collocationOptimized collocationOptimized').then <|
      (boolOrder cacheConnection cacheConnection').then <|
      (selectionOrder endpointSelection endpointSelection').then <|
      (stringOrder connectionId connectionId').then <|
      (guardedOrder overrideTimeout overrideTimeout' (intOrder timeout timeout')).then <|
      (infoOrder routerInfo routerInfo').then <|
      (infoOrder locatorInfo locatorInfo').then <|
      (stringOrder adapterId adapterId').then <|
      (listOrder endpointOrder endpoints endpoints').then <|
      (intOrder locatorCacheTimeout locatorCacheTimeout').then .eq

def infoOrder : Option Reference → Option Reference → Ordering
  | some reference, some other => referenceOrder reference other
  | none, some _ => .lt
  | some _, none => .gt
  | none, none => .eq

end

theorem selection_value_injective : Function.Injective selectionValue := by
  intro first second same
  cases first <;> cases second <;> first | rfl | cases same

theorem decides_selection (first second : EndpointSelectionType) :
    Decides (decide (selectionValue first < selectionValue second))
      (decide (selectionValue second < selectionValue first)) (decide (first = second))
      (selectionOrder first second) :=
  decides_cmp selectionValue selection_value_injective first second

theorem base_chain {base : ReferenceBase} {less greater whole : Bool} {order : Ordering}
    (implies : whole = true → base.equal other = true)
    (later : base.equal other = true → Decides less greater whole order) :
    Decides (decided (base.less other) (!base.equal other) less)
      (decided (other.less base) (!other.equal base) greater) whole
      ((baseOrder base other).then order) := by
  have back := decides_base other base
  rw [lawful_base.swap base other] at back
  exact (decides_base base other).chainEqual back implies later

mutual

theorem decides_reference : ∀ reference other : Reference,
    Decides (reference.less other) (other.less reference) (reference.equal other)
      (referenceOrder reference other)
  | .fixed base connection, .fixed other connection' => by
      rw [Reference.less, Reference.less, Reference.equal, referenceOrder]
      apply base_chain
      · exact fun equal => (Bool.and_eq_true_iff.mp equal).1
      · intro equal
        rw [equal, Bool.true_and]
        exact decides_cmp id Function.injective_id connection connection'
  | .fixed base _, .routable other => by
      rw [Reference.less, Reference.less, Reference.equal, referenceOrder]
      · apply base_chain
        · exact fun equal => Bool.noConfusion equal
        · exact fun _ => decides_gt
      · simp
      · simp
  | .routable reference, .fixed other _ => by
      rw [Reference.less, Reference.less, Reference.equal, referenceOrder]
      · apply base_chain
        · exact fun equal => Bool.noConfusion equal
        · exact fun _ => decides_lt
      · simp
      · simp
  | .routable reference, .routable other => by
      rw [Reference.less, Reference.less, Reference.equal, referenceOrder]
      apply base_chain
      · intro equal
        cases reference
        cases other
        simp only [routableEqual, Bool.and_eq_true] at equal
        tauto
      · exact decides_routable reference other

theorem decides_routable : ∀ reference other : RoutableReference Reference,
    reference.base.equal other.base = true →
    Decides (routableLess reference other) (routableLess other reference)
      (routableEqual reference other) (routableOrder reference other)
  | ⟨_, endpoints, adapterId, locatorInfo, routerInfo, collocationOptimized, cacheConnection,
      preferSecure, endpointSelection, locatorCacheTimeout, overrideTimeout, timeout,
      connectionId⟩,
    ⟨_, endpoints', adapterId', locatorInfo', routerInfo', collocationOptimized',
      cacheConnection', preferSecure', endpointSelection', locatorCacheTimeout', overrideTimeout',
      timeout', connectionId'⟩, equal => by
      have chained := (decides_bool preferSecure preferSecure').chain <|
        (decides_bool collocationOptimized collocationOptimized').chain <|
        (decides_bool cacheConnection cacheConnection').chain <|
        (decides_selection endpointSelection endpointSelection').chain <|
        (decides_string connectionId connectionId').chain <|
        (decides_int timeout timeout').guarded overrideTimeout overrideTimeout' <|
        (decides_info routerInfo routerInfo').chain <|
        (decides_info locatorInfo locatorInfo').chain <|
        (decides_string adapterId adapterId').chain <|
        (decides_list decides_endpoint endpoints endpoints').chain <|
        (decides_int locatorCacheTimeout locatorCacheTimeout').chain decides_eq
      rw [routableLess, routableLess, routableEqual, routableOrder]
      refine chained.rewrite ?_
      simp only [Bool.and_eq_true, decide_eq_true_eq, beq_iff_eq]
      tauto

theorem decides_info : ∀ info other : Option Reference,
    Decides (infoLess info other) (infoLess other info) (infoEqual info other)
      (infoOrder info other)
  | some reference, some other => by
      rw [infoLess, infoLess, infoEqual, infoOrder]
      exact decides_reference reference other
  | none, some _ => by
      simp only [infoLess, infoEqual, infoOrder]
      exact decides_lt
  | some _, none => by
      simp only [infoLess, infoEqual, infoOrder]
      exact decides_gt
  | none, none => by
      simp only [infoLess, infoEqual, infoOrder]
      exact decides_eq

end

theorem lawful_selection : Lawful selectionOrder :=
  lawful_cmp.comap selectionValue

theorem lawful_address : Lawful addressOrder := lawful_cmp

mutual

theorem follows_reference : ∀ first second third : Reference,
    Follows (referenceOrder first second) (referenceOrder second third)
      (referenceOrder first third)
  | .fixed base connection, .fixed other connection', .fixed another connection'' => by
      simp only [referenceOrder]
      exact (lawful_base.follows base other another).chain
        (lawful_address.follows connection connection' connection'')
  | .fixed base connection, .fixed other connection', .routable third => by
      simp only [referenceOrder]
      apply (lawful_base.follows base other third.base).chain
      constructor <;> simp [eq_comm]
  | .fixed base connection, .routable second, .fixed another connection'' => by
      simp only [referenceOrder]
      apply (lawful_base.follows base second.base another).chain
      constructor <;> simp
  | .fixed base connection, .routable second, .routable third => by
      simp only [referenceOrder]
      apply (lawful_base.follows base second.base third.base).chain
      constructor <;> simp
  | .routable first, .fixed other connection', .fixed another connection'' => by
      simp only [referenceOrder]
      apply (lawful_base.follows first.base other another).chain
      constructor <;> simp
  | .routable first, .fixed other connection', .routable third => by
      simp only [referenceOrder]
      apply (lawful_base.follows first.base other third.base).chain
      constructor <;> simp
  | .routable first, .routable second, .fixed another connection'' => by
      simp only [referenceOrder]
      apply (lawful_base.follows first.base second.base another).chain
      constructor <;> simp [eq_comm]
  | .routable first, .routable second, .routable third => by
      simp only [referenceOrder]
      exact (lawful_base.follows first.base second.base third.base).chain
        (follows_routable first second third)

theorem follows_routable : ∀ first second third : RoutableReference Reference,
    Follows (routableOrder first second) (routableOrder second third) (routableOrder first third)
  | ⟨_, endpoints, adapterId, locatorInfo, routerInfo, collocationOptimized, cacheConnection,
      preferSecure, endpointSelection, locatorCacheTimeout, overrideTimeout, timeout,
      connectionId⟩,
    ⟨_, endpoints', adapterId', locatorInfo', routerInfo', collocationOptimized',
      cacheConnection', preferSecure', endpointSelection', locatorCacheTimeout', overrideTimeout',
      timeout', connectionId'⟩,
    ⟨_, endpoints'', adapterId'', locatorInfo'', routerInfo'', collocationOptimized'',
      cacheConnection'', preferSecure'', endpointSelection'', locatorCacheTimeout'',
      overrideTimeout'', timeout'', connectionId''⟩ => by
      simp only [routableOrder]
      exact (lawful_bool.follows preferSecure preferSecure' preferSecure'').chain <|
        (lawful_bool.follows collocationOptimized collocationOptimized'
          collocationOptimized'').chain <|
        (lawful_bool.follows cacheConnection cacheConnection' cacheConnection'').chain <|
        (lawful_selection.follows endpointSelection endpointSelection' endpointSelection'').chain <|
        (lawful_string.follows connectionId connectionId' connectionId'').chain <|
        (lawful_int.follows timeout timeout' timeout'').guarded.chain <|
        (follows_info routerInfo routerInfo' routerInfo'').chain <|
        (follows_info locatorInfo locatorInfo' locatorInfo'').chain <|
        (lawful_string.follows adapterId adapterId' adapterId'').chain <|
        ((lawful_list lawful_endpoint).follows endpoints endpoints' endpoints'').chain <|
        (lawful_int.follows locatorCacheTimeout locatorCacheTimeout' locatorCacheTimeout'').chain
          follows_eq

theorem follows_info : ∀ first second third : Option Reference,
    Follows (infoOrder first second) (infoOrder second third) (infoOrder first third)
  | some first, some second, some third => by
      simp only [infoOrder]
      exact follows_reference first second third
  | none, none, third => by
      cases third <;> constructor <;> simp [infoOrder]
  | none, some _, none => by constructor <;> simp [infoOrder]
  | none, some _, some _ => by constructor <;> simp [infoOrder, eq_comm]
  | some _, none, third => by cases third <;> constructor <;> simp [infoOrder]
  | some _, some _, none => by constructor <;> simp [infoOrder, eq_comm]

end

theorem lawful_reference : Lawful referenceOrder :=
  lawful_of_decides decides_reference follows_reference

theorem base_hash_eq {base : ReferenceBase} (equal : base.equal other = true) :
    base.hash = other.hash := by
  cases base
  cases other
  simp only [ReferenceBase.equal, Bool.and_eq_true, Bool.or_eq_true, Bool.not_eq_true',
    decide_eq_true_eq] at equal
  obtain ⟨⟨⟨⟨⟨⟨⟨rfl, rfl⟩, rfl⟩, rfl⟩, rfl⟩, rfl, value⟩, rfl⟩, rfl⟩ := equal
  obtain rfl | rfl := value
  · rfl
  · rfl

theorem reference_hash_eq {reference other : Reference}
    (equal : reference.equal other = true) : reference.hash = other.hash := by
  cases reference with
  | fixed base connection =>
      cases other with
      | fixed base' connection' =>
          rw [Reference.equal, Bool.and_eq_true] at equal
          exact base_hash_eq equal.1
      | routable other =>
          simp [Reference.equal] at equal
  | routable reference =>
      cases other with
      | fixed base' connection' =>
          simp [Reference.equal] at equal
      | routable other =>
          cases reference
          cases other
          simp only [Reference.equal, routableEqual, Bool.and_eq_true, decide_eq_true_eq] at equal
          have bases := base_hash_eq equal.1.1.1.1.1.1.1.1.1.1.1
          have adapters := equal.1.2
          simp only [Reference.hash]
          rw [bases, adapters]

/-- References are totally ordered, and so are endpoints: `operator<` is a strict weak order
whose incomparability is `operator==`, an equivalence, and equal values have equal hashes. -/
theorem references_ordered :
    StrictWeakOrder Reference.less Reference.equal ∧
      (∀ reference other : Reference, reference.equal other = true →
        reference.hash = other.hash) ∧
      StrictWeakOrder Endpoint.less Endpoint.equal ∧
      ∀ endpoint other : Endpoint, endpoint.equal other = true →
        endpoint.hash = other.hash := by
  refine ⟨strict_weak_order lawful_reference decides_reference, ?_,
    strict_weak_order lawful_endpoint decides_endpoint, ?_⟩
  · intro reference other equal
    exact reference_hash_eq equal
  · intro endpoint other equal
    rw [(endpoint_equal_iff endpoint other).mp equal]

end IceTouch.References

import IceTouch.References.Ordering
import IceTouch.References.Slots

/-!
# Coherent references

A reference is coherent when it does not have both an adapter id and endpoints, and applying
its overrides changes none of its endpoints. On a coherent reference an operation on the
endpoints or their settings amounts to installing the value and applying the overrides to all
endpoints afterwards; what the overrides were before does not matter then. So these operations
commute like the others.
-/

namespace IceTouch.References

open Bytes WireTypes Parts

@[simp] theorem set_timeout_tcp (timeout : BitVec 32) (endpoint : Proxies.TcpEndpoint) :
    Endpoint.setTimeout timeout (.tcp endpoint) = .tcp { endpoint with timeout := timeout } := by
  rw [Endpoint.setTimeout]
  by_cases same : timeout = endpoint.timeout
  · rw [if_pos same, same]
  · rw [if_neg same]

@[simp] theorem set_connection_id_tcp (connectionId : Str) (endpoint : Proxies.TcpEndpoint) :
    Endpoint.setConnectionId connectionId (.tcp endpoint) =
      .tcp { endpoint with connectionId := connectionId } := by
  rw [Endpoint.setConnectionId]
  by_cases same : connectionId = endpoint.connectionId
  · rw [if_pos same, same]
  · rw [if_neg same]

@[simp] theorem set_connection_id_udp (connectionId : Str) (endpoint : UdpEndpoint) :
    Endpoint.setConnectionId connectionId (.udp endpoint) =
      .udp { endpoint with connectionId := connectionId } := by
  rw [Endpoint.setConnectionId]
  by_cases same : connectionId = endpoint.connectionId
  · rw [if_pos same, same]
  · rw [if_neg same]

@[simp] theorem set_compress_tcp (compress : Bool) (endpoint : Proxies.TcpEndpoint) :
    Endpoint.setCompress compress (.tcp endpoint) = .tcp { endpoint with compress := compress } := by
  rw [Endpoint.setCompress]
  by_cases same : compress = endpoint.compress
  · rw [if_pos same, same]
  · rw [if_neg same]

@[simp] theorem set_compress_udp (compress : Bool) (endpoint : UdpEndpoint) :
    Endpoint.setCompress compress (.udp endpoint) = .udp { endpoint with compress := compress } := by
  rw [Endpoint.setCompress]
  by_cases same : compress = endpoint.compress
  · rw [if_pos same, same]
  · rw [if_neg same]

@[simp] theorem set_timeout_udp (timeout : BitVec 32) (endpoint : UdpEndpoint) :
    Endpoint.setTimeout timeout (.udp endpoint) = .udp endpoint := rfl

@[simp] theorem set_timeout_raw (timeout : BitVec 32) (endpoint : OpaqueEndpoint) :
    Endpoint.setTimeout timeout (.opaque_ endpoint) = .opaque_ endpoint := rfl

@[simp] theorem set_connection_id_raw (connectionId : Str) (endpoint : OpaqueEndpoint) :
    Endpoint.setConnectionId connectionId (.opaque_ endpoint) = .opaque_ endpoint := rfl

@[simp] theorem set_compress_raw (compress : Bool) (endpoint : OpaqueEndpoint) :
    Endpoint.setCompress compress (.opaque_ endpoint) = .opaque_ endpoint := rfl

theorem override_tcp (reference : Routable) (endpoint : Proxies.TcpEndpoint) :
    reference.applyOverride (.tcp endpoint) =
      .tcp { endpoint with
        connectionId := reference.connectionId
        compress :=
          if reference.base.overrideCompress then reference.base.compress else endpoint.compress
        timeout := if reference.overrideTimeout then reference.timeout else endpoint.timeout } := by
  simp only [RoutableReference.applyOverride, set_connection_id_tcp]
  by_cases compressed : reference.base.overrideCompress = true
  · by_cases timed : reference.overrideTimeout = true
    · simp only [compressed, timed, if_true, set_compress_tcp, set_timeout_tcp]
    · simp only [compressed, timed, if_true, if_false, set_compress_tcp, Bool.false_eq_true]
  · by_cases timed : reference.overrideTimeout = true
    · simp only [compressed, timed, if_true, if_false, set_timeout_tcp, Bool.false_eq_true]
    · simp only [compressed, timed, if_false, Bool.false_eq_true]

theorem override_udp (reference : Routable) (endpoint : UdpEndpoint) :
    reference.applyOverride (.udp endpoint) =
      .udp { endpoint with
        connectionId := reference.connectionId
        compress :=
          if reference.base.overrideCompress then reference.base.compress
          else endpoint.compress } := by
  simp only [RoutableReference.applyOverride, set_connection_id_udp]
  by_cases compressed : reference.base.overrideCompress = true
  · simp only [compressed, if_true, set_compress_udp, set_timeout_udp, ite_self]
  · simp only [compressed, if_false, set_timeout_udp, ite_self, Bool.false_eq_true]

theorem override_raw (reference : Routable) (endpoint : OpaqueEndpoint) :
    reference.applyOverride (.opaque_ endpoint) = .opaque_ endpoint := by
  simp only [RoutableReference.applyOverride, set_timeout_raw, set_connection_id_raw,
    set_compress_raw, ite_self]

variable {reference later : Routable} {first second : Change}

theorem override_absorbs
    (compress : reference.base.overrideCompress = true → later.base.overrideCompress = true)
    (timeout : reference.overrideTimeout = true → later.overrideTimeout = true)
    (endpoint : Endpoint) :
    later.applyOverride (reference.applyOverride endpoint) = later.applyOverride endpoint := by
  cases endpoint with
  | tcp endpoint =>
      simp only [override_tcp, Endpoint.tcp.injEq, Proxies.TcpEndpoint.mk.injEq, true_and]
      constructor
      · by_cases timed : reference.overrideTimeout = true
        · rw [if_pos (timeout timed), if_pos (timeout timed)]
        · rw [if_neg timed]
      · by_cases compressed : reference.base.overrideCompress = true
        · rw [if_pos (compress compressed), if_pos (compress compressed)]
        · rw [if_neg compressed]
  | udp endpoint =>
      simp only [override_udp, Endpoint.udp.injEq, UdpEndpoint.mk.injEq, true_and]
      by_cases compressed : reference.base.overrideCompress = true
      · rw [if_pos (compress compressed), if_pos (compress compressed)]
      · rw [if_neg compressed]
  | opaque_ endpoint => rw [override_raw, override_raw]

/-- An endpoint has the settings of the reference, as far as its class has them. -/
structure Carried (reference : Routable) (endpoint : Endpoint) : Prop where
  connectionId : endpoint.isOpaque = false → endpoint.connectionId = reference.connectionId
  compress : reference.base.overrideCompress = true → endpoint.isOpaque = false →
    endpoint.compress = reference.base.compress
  timeout : reference.overrideTimeout = true → endpoint.isOpaque = false →
    endpoint.datagram = false → endpoint.timeout = reference.timeout

theorem carried_iff (reference : Routable) (endpoint : Endpoint) :
    Carried reference endpoint ↔ reference.applyOverride endpoint = endpoint := by
  cases endpoint with
  | tcp endpoint =>
      rw [override_tcp]
      constructor
      · intro carried
        have connected := carried.connectionId rfl
        have compressed := fun flag => carried.compress flag rfl
        have timed := fun flag => carried.timeout flag rfl rfl
        cases endpoint
        simp only [Endpoint.connectionId, Endpoint.compress, Endpoint.timeout] at *
        simp +contextual [connected, compressed, timed]
      · intro settled
        cases endpoint
        simp only [Endpoint.tcp.injEq, Proxies.TcpEndpoint.mk.injEq, true_and] at settled
        obtain ⟨timed, connected, compressed⟩ := settled
        refine ⟨fun _ => connected.symm, fun flag _ => ?_, fun flag _ _ => ?_⟩
        · rw [if_pos flag] at compressed
          exact compressed.symm
        · rw [if_pos flag] at timed
          exact timed.symm
  | udp endpoint =>
      rw [override_udp]
      constructor
      · intro carried
        have connected := carried.connectionId rfl
        have compressed := fun flag => carried.compress flag rfl
        cases endpoint
        simp only [Endpoint.connectionId, Endpoint.compress] at *
        simp +contextual [connected, compressed]
      · intro settled
        cases endpoint
        simp only [Endpoint.udp.injEq, UdpEndpoint.mk.injEq, true_and] at settled
        obtain ⟨connected, compressed⟩ := settled
        refine ⟨fun _ => connected.symm, fun flag _ => ?_, fun _ _ other => ?_⟩
        · rw [if_pos flag] at compressed
          exact compressed.symm
        · cases other
  | opaque_ endpoint =>
      rw [override_raw]
      refine ⟨fun _ => rfl, fun _ => ⟨fun other => ?_, fun _ other => ?_, fun _ other => ?_⟩⟩
      · cases other
      · cases other
      · cases other

structure Coherent (reference : Routable) : Prop where
  direct : reference.adapterId = [] ∨ reference.endpoints = []
  settled : ∀ endpoint ∈ reference.endpoints, reference.applyOverride endpoint = endpoint

namespace RoutableReference

def settle (reference : Routable) : Routable :=
  { reference with endpoints := reference.applyOverrides reference.endpoints }

end RoutableReference

namespace Change

def install : Change → Routable → Routable
  | .compress newCompress, reference =>
      { reference with
        base := { reference.base with compress := newCompress, overrideCompress := true } }
  | .timeout newTimeout, reference =>
      { reference with timeout := newTimeout, overrideTimeout := true }
  | .connectionId id, reference => { reference with connectionId := id }
  | .endpoints newEndpoints, reference =>
      if newEndpoints = [] then { reference with endpoints := [] }
      else { reference with endpoints := newEndpoints, adapterId := [] }
  | .adapterId newAdapterId, reference =>
      if newAdapterId = [] then { reference with adapterId := [] }
      else { reference with adapterId := newAdapterId, endpoints := [] }
  | _, reference => reference

end Change

theorem settle_coherent (coherent : Coherent reference) : reference.settle = reference := by
  have same : reference.applyOverrides reference.endpoints = reference.endpoints :=
    (List.map_congr_left coherent.settled).trans (List.map_id _)
  rw [RoutableReference.settle, same]

theorem coherent_settle (direct : reference.adapterId = [] ∨ reference.endpoints = []) :
    Coherent reference.settle where
  direct := by
    cases direct with
    | inl adapter => exact .inl adapter
    | inr none =>
        right
        simp only [RoutableReference.settle, RoutableReference.applyOverrides, none, List.map_nil]
  settled := by
    intro endpoint member
    obtain ⟨original, _, rfl⟩ := List.mem_map.mp member
    exact override_absorbs id id original

/-- A setting that is pushed into the endpoints is one that is applied to them afterwards. -/
theorem push_eq (revised : Routable) (push : Endpoint → Endpoint)
    (endpoints : revised.endpoints = reference.endpoints)
    (pushed : ∀ endpoint, reference.applyOverride endpoint = endpoint →
      push endpoint = revised.applyOverride endpoint) (coherent : Coherent reference) :
    { revised with
      endpoints :=
        if reference.endpoints = [] then reference.endpoints
        else reference.endpoints.map push } = revised.settle := by
  rw [RoutableReference.settle, endpoints]
  by_cases none : reference.endpoints = []
  · rw [if_pos none, none]
    rfl
  · rw [if_neg none]
    have same : reference.endpoints.map push = revised.applyOverrides reference.endpoints :=
      List.map_congr_left fun endpoint member => pushed endpoint (coherent.settled endpoint member)
    rw [same]

theorem settled_tcp {endpoint : Proxies.TcpEndpoint}
    (settled : reference.applyOverride (.tcp endpoint) = .tcp endpoint) :
    reference.connectionId = endpoint.connectionId ∧
      (if reference.base.overrideCompress then reference.base.compress else endpoint.compress) =
        endpoint.compress ∧
      (if reference.overrideTimeout then reference.timeout else endpoint.timeout) =
        endpoint.timeout := by
  rw [override_tcp] at settled
  exact ⟨congrArg Endpoint.connectionId settled, congrArg Endpoint.compress settled,
    congrArg Endpoint.timeout settled⟩

theorem settled_udp {endpoint : UdpEndpoint}
    (settled : reference.applyOverride (.udp endpoint) = .udp endpoint) :
    reference.connectionId = endpoint.connectionId ∧
      (if reference.base.overrideCompress then reference.base.compress else endpoint.compress) =
        endpoint.compress := by
  rw [override_udp] at settled
  exact ⟨congrArg Endpoint.connectionId settled, congrArg Endpoint.compress settled⟩

variable {endpoint : Endpoint} {change : Change}

theorem compress_pushed (newCompress : Bool) (settled : reference.applyOverride endpoint = endpoint) :
    endpoint.setCompress newCompress =
      ((Change.compress newCompress).install reference).applyOverride endpoint := by
  cases endpoint with
  | tcp endpoint =>
      obtain ⟨connected, -, timed⟩ := settled_tcp settled
      simp only [override_tcp, set_compress_tcp, Change.install, if_true, connected, timed]
  | udp endpoint =>
      simp only [override_udp, set_compress_udp, Change.install, if_true, (settled_udp settled).1]
  | opaque_ endpoint => rw [override_raw, set_compress_raw]

theorem timeout_pushed (newTimeout : BitVec 32)
    (settled : reference.applyOverride endpoint = endpoint) :
    endpoint.setTimeout newTimeout =
      ((Change.timeout newTimeout).install reference).applyOverride endpoint := by
  cases endpoint with
  | tcp endpoint =>
      obtain ⟨connected, compressed, -⟩ := settled_tcp settled
      simp only [override_tcp, set_timeout_tcp, Change.install, if_true, connected, compressed]
  | udp endpoint =>
      rw [override_udp] at settled ⊢
      exact settled.symm
  | opaque_ endpoint => rw [override_raw, set_timeout_raw]

theorem connection_id_pushed (id : Str) (settled : reference.applyOverride endpoint = endpoint) :
    endpoint.setConnectionId id =
      ((Change.connectionId id).install reference).applyOverride endpoint := by
  cases endpoint with
  | tcp endpoint =>
      obtain ⟨-, compressed, timed⟩ := settled_tcp settled
      simp only [override_tcp, set_connection_id_tcp, Change.install, compressed, timed]
  | udp endpoint =>
      simp only [override_udp, set_connection_id_udp, Change.install, (settled_udp settled).2]
  | opaque_ endpoint => rw [override_raw, set_connection_id_raw]

theorem push_installs (coherent : Coherent reference) (revised : Routable)
    (push : Endpoint → Endpoint) (kept : Prop) [Decidable kept] (same : kept → revised = reference)
    (endpoints : revised.endpoints = reference.endpoints)
    (pushed : ∀ endpoint, reference.applyOverride endpoint = endpoint →
      push endpoint = revised.applyOverride endpoint) :
    (if kept then reference
      else { revised with
        endpoints :=
          if reference.endpoints = [] then reference.endpoints
          else reference.endpoints.map push }) = revised.settle := by
  split
  · next kept => rw [same kept, settle_coherent coherent]
  · exact push_eq revised push endpoints pushed coherent

theorem compress_installs (newCompress : Bool) (coherent : Coherent reference) :
    reference.changeCompress newCompress =
      ((Change.compress newCompress).install reference).settle :=
  push_installs coherent ((Change.compress newCompress).install reference)
    (Endpoint.setCompress newCompress) _ (fun kept => by rw [Change.install, kept.2, ← kept.1]) rfl
    fun _ => compress_pushed newCompress

theorem timeout_installs (newTimeout : BitVec 32) (coherent : Coherent reference) :
    reference.changeTimeout newTimeout = ((Change.timeout newTimeout).install reference).settle :=
  push_installs coherent ((Change.timeout newTimeout).install reference)
    (Endpoint.setTimeout newTimeout) _ (fun kept => by rw [Change.install, kept.2, ← kept.1]) rfl
    fun _ => timeout_pushed newTimeout

theorem connection_id_installs (id : Str) (coherent : Coherent reference) :
    reference.changeConnectionId id = ((Change.connectionId id).install reference).settle :=
  push_installs coherent ((Change.connectionId id).install reference) (Endpoint.setConnectionId id)
    _ (fun kept => by rw [Change.install, kept]) rfl fun _ => connection_id_pushed id

theorem endpoints_installs (newEndpoints : List Endpoint) (coherent : Coherent reference) :
    reference.changeEndpoints newEndpoints =
      ((Change.endpoints newEndpoints).install reference).settle := by
  rw [RoutableReference.changeEndpoints, Change.install]
  by_cases kept : newEndpoints = reference.endpoints
  · rw [if_pos kept, kept]
    by_cases none : reference.endpoints = []
    · rw [if_pos none, ← none]
      exact (settle_coherent coherent).symm
    · have adapter : reference.adapterId = [] := coherent.direct.resolve_right none
      rw [if_neg none, ← adapter]
      exact (settle_coherent coherent).symm
  · rw [if_neg kept]
    by_cases none : newEndpoints = []
    · have some : reference.endpoints ≠ [] := fun empty => kept (none.trans empty.symm)
      have adapter : reference.adapterId = [] := coherent.direct.resolve_right some
      rw [if_pos none, none, ← adapter]
      rfl
    · rw [if_neg none]
      rfl

theorem adapter_installs (newAdapterId : Str) (coherent : Coherent reference) :
    reference.changeAdapterId newAdapterId =
      ((Change.adapterId newAdapterId).install reference).settle := by
  rw [RoutableReference.changeAdapterId, Change.install]
  by_cases kept : newAdapterId = reference.adapterId
  · rw [if_pos kept, kept]
    by_cases none : reference.adapterId = []
    · rw [if_pos none, ← none]
      exact (settle_coherent coherent).symm
    · have endpoints : reference.endpoints = [] := coherent.direct.resolve_left none
      rw [if_neg none, ← endpoints]
      exact (settle_coherent coherent).symm
  · rw [if_neg kept]
    by_cases none : newAdapterId = []
    · have some : reference.adapterId ≠ [] := fun empty => kept (none.trans empty.symm)
      have endpoints : reference.endpoints = [] := coherent.direct.resolve_left some
      rw [if_pos none, none, RoutableReference.settle]
      simp only [RoutableReference.applyOverrides, endpoints, List.map_nil]
    · rw [if_neg none]
      rfl

/-- On a coherent reference, an operation on the target installs the value and applies the
overrides. -/
theorem apply_installs (target : change.slot = .target) (coherent : Coherent reference) :
    change.apply reference = some (change.install reference).settle := by
  cases change with
  | compress newCompress => exact congrArg some (compress_installs newCompress coherent)
  | endpoints newEndpoints => exact congrArg some (endpoints_installs newEndpoints coherent)
  | adapterId newAdapterId => exact congrArg some (adapter_installs newAdapterId coherent)
  | timeout newTimeout => exact congrArg some (timeout_installs newTimeout coherent)
  | connectionId id => exact congrArg some (connection_id_installs id coherent)
  | _ => cases target

theorem overrides_absorb
    (compress : reference.base.overrideCompress = true → later.base.overrideCompress = true)
    (timeout : reference.overrideTimeout = true → later.overrideTimeout = true)
    (endpoints : List Endpoint) :
    later.applyOverrides (reference.applyOverrides endpoints) = later.applyOverrides endpoints := by
  simp only [RoutableReference.applyOverrides, List.map_map]
  apply List.map_congr_left
  intro endpoint _
  exact override_absorbs compress timeout endpoint

theorem settle_absorbed (target : change.slot = .target) (reference : Routable) :
    (change.install reference.settle).settle = (change.install reference).settle := by
  -- Only the endpoints of the two sides differ, by the overrides of `reference`.
  have replaced (later : Routable)
      (compress : reference.base.overrideCompress = true → later.base.overrideCompress = true)
      (timeout : reference.overrideTimeout = true → later.overrideTimeout = true) :
      { later with
        endpoints := later.applyOverrides (reference.applyOverrides reference.endpoints) } =
      { later with endpoints := later.applyOverrides reference.endpoints } := by
    rw [overrides_absorb compress timeout]
  cases change with
  | compress newCompress =>
      exact replaced ((Change.compress newCompress).install reference) (fun _ => rfl) id
  | timeout newTimeout =>
      exact replaced ((Change.timeout newTimeout).install reference) id (fun _ => rfl)
  | connectionId id' =>
      exact replaced ((Change.connectionId id').install reference) id id
  | endpoints newEndpoints =>
      rw [Change.install, Change.install]
      by_cases none : newEndpoints = []
      · rw [if_pos none, if_pos none]
        rfl
      · rw [if_neg none, if_neg none]
        rfl
  | adapterId newAdapterId =>
      rw [Change.install, Change.install]
      by_cases none : newAdapterId = []
      · rw [if_pos none, if_pos none]
        exact replaced { reference with adapterId := [] } id id
      · rw [if_neg none, if_neg none]
        rfl
  | _ => cases target

/-- The attributes that two operations may not change in either order. -/
def Attribute.dependent : Attribute → Attribute → Bool
  | .adapterId, .endpoints => true
  | .endpoints, .adapterId => true
  | .encoding, .locator => true
  | .locator, .encoding => true
  | _, _ => false

theorem install_commute (differ : first.field ≠ second.field)
    (free : first.field.dependent second.field = false) (reference : Routable) :
    second.install (first.install reference) = first.install (second.install reference) := by
  cases first <;> cases second <;>
    first
    | rfl
    | exact absurd rfl differ
    | exact Bool.noConfusion free
    | (simp only [Change.install]
       split <;> rfl)

theorem install_direct (change : Change)
    (direct : reference.adapterId = [] ∨ reference.endpoints = []) :
    (change.install reference).adapterId = [] ∨ (change.install reference).endpoints = [] := by
  cases change with
  | endpoints newEndpoints =>
      rw [Change.install]
      by_cases none : newEndpoints = []
      · rw [if_pos none]
        exact .inr rfl
      · rw [if_neg none]
        exact .inl rfl
  | adapterId newAdapterId =>
      rw [Change.install]
      by_cases none : newAdapterId = []
      · rw [if_pos none]
        exact .inl rfl
      · rw [if_neg none]
        exact .inr rfl
  | _ => exact direct

section

variable (differ : first.field ≠ second.field)

include differ

section

variable (free : first.field.dependent second.field = false)

include free

theorem target_commute (one : first.slot = .target) (two : second.slot = .target)
    (coherent : Coherent reference) :
    (first.apply reference).bind second.apply = (second.apply reference).bind first.apply := by
  have left := coherent_settle (install_direct first coherent.direct)
  have right := coherent_settle (install_direct second coherent.direct)
  rw [apply_installs one coherent, apply_installs two coherent, Option.bind_some,
    Option.bind_some, apply_installs two left, apply_installs one right, settle_absorbed two,
    settle_absorbed one, install_commute differ free]

theorem same_slot (same : first.slot = second.slot) : first.slot = .target := by
  cases first <;> cases second <;>
    first
    | rfl
    | exact absurd rfl differ
    | exact Slot.noConfusion same
    | exact Bool.noConfusion free

theorem changes_commute (coherent : Coherent reference) :
    (first.apply reference).bind second.apply = (second.apply reference).bind first.apply := by
  by_cases same : first.slot = second.slot
  · have target := same_slot differ free same
    exact target_commute differ free target (same ▸ target) coherent
  · exact Change.slots_commute same reference

end

end

theorem coherent_set {slot : Slot} (other : slot ≠ .target) (value : slot.Value)
    (coherent : Coherent reference) : Coherent (slot.part.set value reference) := by
  obtain ⟨direct, settled⟩ := coherent
  cases slot <;>
    first
    | exact absurd rfl other
    | exact ⟨direct, settled⟩

theorem apply_coherent (coherent : Coherent reference)
    (applied : change.apply reference = some later) : Coherent later := by
  by_cases target : change.slot = .target
  · rw [apply_installs target coherent] at applied
    cases applied
    exact coherent_settle (install_direct change coherent.direct)
  · obtain ⟨revision, acts⟩ := Change.carries change
    rw [acts, Part.revise, Option.map_eq_some_iff] at applied
    obtain ⟨value, _, rfl⟩ := applied
    exact coherent_set target value coherent

theorem created_coherent (created : Created reference) :
    Coherent reference where
  direct := created.direct
  settled := by
    intro endpoint member
    rw [← carried_iff]
    constructor
    · intro _
      rw [created.connectionId]
      exact created.endpoints endpoint member
    · intro overridden
      rw [created.compress] at overridden
      cases overridden
    · intro overridden
      rw [created.timeout] at overridden
      cases overridden

theorem apply_all_coherent {changes : List Change} (coherent : Coherent reference)
    (run : Change.applyAll changes reference = some later) : Coherent later := by
  induction changes generalizing reference with
  | nil =>
      cases run
      exact coherent
  | cons change changes ih =>
      rw [Change.applyAll, Option.bind_eq_some_iff] at run
      obtain ⟨next, applied, rest⟩ := run
      exact ih (apply_coherent coherent applied) rest

/-- The null handle that `copy` gives. -/
def NoCopy (reference : Routable) : Prop :=
  reference.base.identity.name = [] ∧ reference.base.identity.category = []

theorem identity_set {slot : Slot} (other : slot ≠ .identity) (value : slot.Value) :
    (slot.part.set value reference).base.identity = reference.base.identity := by
  cases slot <;>
    first
    | exact absurd rfl other
    | rfl

theorem apply_copies (copied : ¬NoCopy reference) (applied : change.apply reference = some later) :
    ¬NoCopy later := by
  by_cases other : change.slot = .identity
  · cases change with
    | identity newIdentity named =>
        cases applied
        unfold RoutableReference.changeIdentity
        split
        · exact copied
        · exact fun none => named none.1
    | _ => exact absurd other Slot.noConfusion
  · obtain ⟨revision, acts⟩ := Change.carries change
    rw [acts, Part.revise, Option.map_eq_some_iff] at applied
    obtain ⟨value, _, rfl⟩ := applied
    rwa [NoCopy, identity_set other]

/-- No operation of a run on a reference with an identity meets the null handle. -/
theorem apply_all_copies {changes : List Change} (copied : ¬NoCopy reference)
    (run : Change.applyAll changes reference = some later) : ¬NoCopy later := by
  induction changes generalizing reference with
  | nil =>
      cases run
      exact copied
  | cons change changes ih =>
      rw [Change.applyAll, Option.bind_eq_some_iff] at run
      obtain ⟨next, applied, rest⟩ := run
      exact ih (apply_copies copied applied) rest

/-- After any operations on a reference of the factory, the adapter id or the endpoints are
empty, the endpoints carry the settings that their classes have, and two operations on
attributes that do not depend on each other give the same reference in either order. -/
theorem proxy_changes_coherent {created reference : Routable} (changes : List Change)
    (start : Created created) (run : Change.applyAll changes created = some reference) :
    (reference.adapterId = [] ∨ reference.endpoints = []) ∧
      (∀ endpoint ∈ reference.endpoints, Carried reference endpoint) ∧
      ∀ first second : Change, first.field ≠ second.field →
        first.field.dependent second.field = false →
        (first.apply reference).bind second.apply =
          (second.apply reference).bind first.apply := by
  have coherent := apply_all_coherent (created_coherent start) run
  refine ⟨coherent.direct, ?_, ?_⟩
  · intro endpoint member
    exact (carried_iff reference endpoint).mpr (coherent.settled endpoint member)
  · intro first second differ free
    exact changes_commute differ free coherent

/-- A twoway proxy with the identity `i`. -/
def twowayProxy (encoding : Version) (endpoints : List Endpoint) : Routable where
  base :=
    { mode := .twoway, secure := false, identity := ⟨[105], []⟩, context := [], facet := []
      protocol := ⟨1, 0⟩, encoding := encoding, overrideCompress := false, compress := false }
  endpoints := endpoints
  adapterId := []
  locatorInfo := none
  routerInfo := none
  collocationOptimized := true
  cacheConnection := true
  preferSecure := false
  endpointSelection := .random
  locatorCacheTimeout := -1
  overrideTimeout := false
  timeout := -1
  connectionId := []

def udpEndpoint : Endpoint := .udp ⟨[], 0, [], -1, false, [], false⟩

theorem created_twoway (encoding : Version) : Created (twowayProxy encoding [udpEndpoint]) := by
  refine ⟨.inl rfl, rfl, rfl, rfl, ?_⟩
  intro endpoint member
  rw [List.mem_singleton.mp member]
  rfl

/-- The proxy after a change of the connection id to `c`. -/
def udpProxy : Routable := (twowayProxy ⟨1, 1⟩ [udpEndpoint]).changeConnectionId [99]

theorem proxy_changes_coherent_udp :
    Carried udpProxy (udpEndpoint.setConnectionId [99]) ∧
      ((Change.timeout 5).apply udpProxy).bind (Change.compress true).apply =
        ((Change.compress true).apply udpProxy).bind (Change.timeout 5).apply :=
  have coherent := proxy_changes_coherent [.connectionId [99]] (created_twoway ⟨1, 1⟩)
    (rfl : _ = some udpProxy)
  ⟨coherent.2.1 _ (.head _), coherent.2.2 (.timeout 5) (.compress true) (by decide) rfl⟩

/-- A UDP endpoint has no timeout; and a change of the encoding also asks for the locator in that
encoding, so that it matters whether the locator is set before or after. -/
theorem udp_without_timeout :
    (¬∀ (created reference : Routable) (changes : List Change), Created created →
      Change.applyAll changes created = some reference →
      ∀ endpoint ∈ reference.endpoints, reference.overrideTimeout = true →
        endpoint.timeout = reference.timeout) ∧
    ¬∀ (created : Routable), Created created → ∀ first second : Change,
      first.field ≠ second.field →
      ¬(first.field = .adapterId ∧ second.field = .endpoints) →
      ¬(first.field = .endpoints ∧ second.field = .adapterId) →
      ∀ result result', (first.apply created).bind second.apply = some result →
        (second.apply created).bind first.apply = some result' →
        routableEqual result result' = true := by
  constructor
  · intro claimed
    have equal := claimed (twowayProxy ⟨1, 1⟩ [udpEndpoint]) _ [.timeout 5]
      (created_twoway ⟨1, 1⟩) rfl udpEndpoint (.head _) rfl
    revert equal
    decide
  · intro claimed
    have equal := claimed (twowayProxy ⟨1, 1⟩ [udpEndpoint]) (created_twoway ⟨1, 1⟩)
      (.encoding ⟨1, 0⟩) (.locator (some (.routable (twowayProxy ⟨1, 1⟩ [])))) (by decide)
      (by decide) (by decide) _ _ rfl rfl
    revert equal
    decide

end IceTouch.References

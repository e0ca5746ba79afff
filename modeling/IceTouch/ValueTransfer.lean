import Mathlib.Data.List.Forall2
import IceTouch.Transfer

/-!
# Values survive the stream

Every value written by a `StreamHelper` is read back by the reader of the same type, given
that class references are. The proxies are read through nested encapsulations, which are
plain data: their readers restore the enclosing encapsulation and its decoder.
-/

namespace IceTouch.ValueTransfer

open Bytes WireTypes OutStream StreamHelpers InStream
open Emit Run Transfer

variable {δ σ τ ρ α β : Type}

theorem takes_supported_encoding (encoding : Encoding) :
    Takes (δ := δ) [] (supportedEncoding encoding.version) encoding := by
  cases encoding <;> exact Takes.pure _

theorem check_encaps_end_ok (skipRef : Reader δ Unit) (encoding : Encoding) (fuel : Nat)
    (stream : ReadStream δ) (done : stream.pos = stream.encapsEnd) :
    checkEncapsEnd skipRef encoding (fuel + 1) stream = .ok () stream := by
  cases encoding with
  | v10 => simp [checkEncapsEnd, done]
  | v11 =>
      have skipped : skipOpts skipRef (fuel + 1) stream = .ok () stream := by
        simp [skipOpts, done]
      simp only [checkEncapsEnd]
      rw [bind_of_ok skipped]
      simp [done]

theorem takes_encaps (fresh : δ) (skipRef : Reader δ Unit) (encoding : Encoding)
    (content : List Byte) (body : Encoding → Nat → Reader δ α) (value : α)
    (taken : Takes content (body encoding (content.length + 6)) value) :
    Takes (encapsBytes encoding.version content) (withEncaps fresh skipRef body) value := by
  intro stream rest ahead
  have total := ahead.total
  have bounded := ahead.bounded
  have lengths : (encapsBytes encoding.version content).length = content.length + 6 := by
    simp [encapsBytes, versionBytes]
    omega
  rw [lengths] at total ⊢
  have split : encapsBytes encoding.version content =
      intBytes (content.length + 6 : Nat) ++ (versionBytes encoding.version ++ content) := by
    rw [encapsBytes, List.append_assoc]
  rw [split] at ahead
  have sized := takes_int (δ := δ) (content.length + 6 : Nat) (by omega) (by omega) stream _
    ahead.first
  rw [int_bytes_length] at sized
  -- The stream inside the nested encapsulation, which ends where the content does.
  let inner : ReadStream δ :=
    { stream.advance 4 with encapsEnd := stream.pos + (content.length + 6), decoder := fresh }
  have innerAhead : Ahead inner (versionBytes encoding.version ++ content) rest := by
    have after := ahead.second
    rw [int_bytes_length] at after
    refine ⟨after.next, ?_, ?_, bounded⟩
    · simp [inner, ReadStream.advance, versionBytes]
      omega
    · simp [inner, ReadStream.advance]
      omega
  have version := takes_version encoding.version inner _ innerAhead.first
  have supported := takes_supported_encoding (δ := δ) encoding
    (inner.advance (versionBytes encoding.version).length) (content ++ rest)
    ⟨innerAhead.second.next, by
      have inside := innerAhead.second.inside
      simp only [List.length_nil]
      omega, innerAhead.second.enclosed, bounded⟩
  have read := taken _ _ innerAhead.second
  have left := check_encaps_end_ok skipRef encoding stream.buf.length
    ((inner.advance (versionBytes encoding.version).length).advance content.length) (by
      simp [inner, ReadStream.advance, versionBytes]
      omega)
  unfold withEncaps
  rw [bind_get, bind_of_ok sized, if_neg (by omega), if_neg (by omega), bind_modify,
    Int.toNat_natCast]
  change (readVersion >>= _) inner = _
  rw [bind_of_ok version, bind_of_ok supported]
  change (body encoding (content.length + 6) >>= _) (inner.advance _) = _
  rw [bind_of_ok read, bind_of_ok left, bind_modify, pure_run]
  simp [inner, ReadStream.advance, versionBytes]
  omega

theorem takes_endpoint (fresh : δ) (skipRef : Reader δ Unit) (encoding : Encoding)
    (endpoint : Endpoint) :
    Takes (endpointBytes encoding endpoint) (readEndpoint fresh skipRef) endpoint := by
  cases endpoint with
  | tcp host port timeout compress =>
      refine (takes_word tcpEndpointType (by decide)).bind ?_
      rw [dif_pos rfl]
      refine takes_encaps fresh skipRef encoding _ _ _ ?_
      rw [List.append_assoc, List.append_assoc]
      exact (takes_string host).bind ((takes_word port (by decide)).bind
        ((takes_word timeout (by decide)).bind ((takes_bool compress).map _)))
  | udp host port compress =>
      refine (takes_word udpEndpointType (by decide)).bind ?_
      rw [dif_neg (by decide), dif_pos rfl]
      refine takes_encaps fresh skipRef encoding _ _ _ ?_
      rw [List.append_assoc, List.append_assoc]
      refine (takes_string host).bind ((takes_word port (by decide)).bind ?_)
      cases encoding with
      | v10 =>
          rw [List.append_assoc]
          exact (takes_version _).bind ((takes_version _).bind ((takes_bool compress).map _))
      | v11 => exact (takes_bool compress).map _
  | raw type foreign rawEncoding rawBytes =>
      refine (takes_word type (by decide)).bind ?_
      rw [dif_neg foreign.1, dif_neg foreign.2]
      refine takes_encaps fresh skipRef rawEncoding _ _ _ ?_
      rw [Nat.add_sub_cancel]
      exact (takes_blob rawBytes).map _

variable {bytes : α → List Byte}

theorem takes_all {reader : Reader δ α} (every : ∀ item, Takes (bytes item) reader item)
    (items : List α) : Takes (items.flatMap bytes) (repeatRun items.length reader) items := by
  induction items with
  | nil => exact Takes.pure []
  | cons item rest ih => exact (every item).bind (ih.map _)

theorem endpoint_bytes_pos (encoding : Encoding) (endpoint : Endpoint) :
    0 < (endpointBytes encoding endpoint).length := by
  cases endpoint <;> simp [endpointBytes]

theorem flat_map_length (positive : ∀ item, 0 < (bytes item).length) (items : List α) :
    items.length ≤ (items.flatMap bytes).length := by
  induction items with
  | nil => simp
  | cons item rest ih =>
      have here := positive item
      simp only [List.length_cons, List.flatMap_cons, List.length_append]
      omega

theorem takes_target (fresh : δ) (skipRef : Reader δ Unit) (encoding : Encoding)
    (reference : Reference) :
    Takes (targetBytes encoding reference) (readTarget fresh skipRef)
      ⟨(reference.endpoints, reference.adapterId), reference.direct⟩ := by
  refine Takes.of_bounded fun bounded => ?_
  unfold targetBytes readTarget at *
  have few := flat_map_length (endpoint_bytes_pos encoding) reference.endpoints
  split at bounded
  case isTrue none =>
    simp only [if_pos none]
    refine (takes_size _ (by simp [none])).bind ?_
    rw [if_neg (by simp [none])]
    have taken := (takes_string (δ := δ) reference.adapterId).map fun adapterId =>
      (⟨([], adapterId), fun nonempty => absurd rfl nonempty⟩ :
        { target : List Endpoint × Str // target.1 ≠ [] → target.2 = [] })
    simpa only [none] using taken
  case isFalse some =>
    simp only [if_neg some]
    rw [List.length_append] at bounded
    refine (takes_size _ (by omega)).bind ?_
    rw [if_pos (List.length_pos_iff.mpr some)]
    have taken := (takes_all (takes_endpoint fresh skipRef encoding) reference.endpoints).map
      fun endpoints => (⟨(endpoints, []), fun _ => rfl⟩ :
        { target : List Endpoint × Str // target.1 ≠ [] → target.2 = [] })
    simpa only [reference.direct some] using taken

theorem takes_mode (mode : ProxyMode) :
    Takes (δ := δ) [] (modeOfByte (BasicStream.modeByte mode)) mode := by
  cases mode <;> exact Takes.pure _

section Proxies

variable {fuel : Nat} {ok : Gauge σ} {inv : σ → List τ → δ → Prop}

theorem string_bytes_pos (value : Str) : 0 < (stringBytes value).length := by
  have sized := size_bytes_pos value.length
  rw [stringBytes, List.length_append]
  omega

theorem facet_bytes_pos (facet : Str) : 0 < (facetBytes facet).length := by
  unfold facetBytes
  split
  · exact size_bytes_pos 0
  · have sized := size_bytes_pos 1
    rw [List.length_append]
    omega

theorem reads_facet (facet : Str) :
    Reads fuel ok inv 1 (emit (facetBytes facet)) readFacet (fun _ read => read = facet) := by
  have positive := string_bytes_pos facet
  unfold facetBytes readFacet
  split
  case isTrue none =>
    subst none
    change Reads fuel ok inv 1 (andThen (emit (sizeBytes 0)) (emit [])) _ _
    exact reads_counted Nat.one_pos (grows_emit (by simp))
      (Reads.of_takes (Takes.pure []) (by simp) fun _ => rfl)
  case isFalse some =>
    have path : Takes (δ := δ) (stringBytes facet) (repeatRun 1 readString) [facet] := by
      have taken := takes_all (takes_string (δ := δ)) [facet]
      simpa using taken
    change Reads fuel ok inv 1 (andThen (emit (sizeBytes 1)) (emit (stringBytes facet))) _ _
    exact reads_counted Nat.one_pos (grows_emit (by omega))
      (Reads.of_takes (path.finish (Takes.pure facet)) (by omega) fun _ => rfl)

theorem takes_versions (encoding : Encoding) (reference : Reference) :
    Takes (δ := δ) (versionsBytes encoding reference) (readVersions encoding)
      ((reference.carriedBy encoding).protocol, (reference.carriedBy encoding).encoding) := by
  cases encoding with
  | v10 => exact Takes.pure _
  | v11 => exact (takes_version reference.protocol).bind ((takes_version reference.encoding).map _)

theorem reads_proxy (fresh : δ) (skipRef : Reader δ Unit) (encoding : Encoding) (proxy : Proxy) :
    Reads fuel ok inv 2 (emit (proxyBytes encoding proxy)) (readProxy encoding fresh skipRef)
      (fun _ read => read = proxy.map (Reference.carriedBy encoding)) := by
  cases proxy with
  | none =>
      change Reads fuel ok inv 2 (emit (stringBytes [] ++ stringBytes [])) _ _
      refine Reads.of_takes ((takes_string []).bind ((takes_string []).finish ?_)) (by decide)
        fun _ => rfl
      rw [dif_pos ⟨rfl, rfl⟩]
      exact Takes.pure none
  | some reference =>
      have name := string_bytes_pos reference.name
      have category := string_bytes_pos reference.category
      have facet := facet_bytes_pos reference.facet
      suffices whole : Reads fuel ok inv (1 + (1 + (1 + 0)))
          (andThen (emit (stringBytes reference.name)) (andThen (emit (stringBytes reference.category))
            (andThen (emit (facetBytes reference.facet))
              (emit ([BasicStream.modeByte reference.mode] ++ (boolBytes reference.secure ++
                (versionsBytes encoding reference ++ targetBytes encoding reference)))))))
          (readProxy encoding fresh skipRef)
          (fun _ read => read = some (reference.carriedBy encoding)) from whole.lower (by omega)
      have facetGrows : ∀ bytes, Grows ok (1 + 0)
          (andThen (emit (facetBytes reference.facet)) (emit bytes)) := fun bytes =>
        (grows_emit facet).andThen (grows_emit (Nat.zero_le _))
      refine Carries.after_takes (takes_string _) name ((grows_emit category).andThen (facetGrows _))
        (Carries.after_takes (takes_string _) category (facetGrows _) ?_)
      rw [dif_neg reference.identified]
      refine (reads_facet reference.facet).bind_eq (grows_emit (Nat.zero_le _)) ?_
      refine Reads.of_takes ((takes_byte _).bind ((takes_mode reference.mode).bind
          ((takes_bool reference.secure).bind ((takes_versions encoding reference).bind
            ((takes_target fresh skipRef encoding reference).finish (Takes.pure _)))))) (by simp) ?_
      intro cells
      cases encoding <;> rfl

end Proxies

theorem value_rel_mono {encoding : Encoding} {ρ ρ' : Type} {small large : ρ → ρ' → Prop}
    (wider : ∀ sent received, small sent received → large sent received) (type : WireType)
    (sent : Value ρ type) (received : Value ρ' type)
    (related : Value.Rel encoding small type sent received) :
    Value.Rel encoding large type sent received := by
  induction type with
  | sequence element ih => exact List.Forall₂.imp (fun left right => ih left right) related
  | dictionary key value keyMono valueMono =>
      exact List.Forall₂.imp (fun left right both =>
        ⟨keyMono left.1 right.1 both.1, valueMono left.2 right.2 both.2⟩) related
  | struct last ih => exact ih sent received related
  | structCons first rest firstMono restMono =>
      exact ⟨firstMono sent.1 received.1 related.1, restMono sent.2 received.2 related.2⟩
  | cls => exact wider sent received related
  | _ => exact related

theorem members_rel_mono {encoding : Encoding} {ρ ρ' : Type} {small large : ρ → ρ' → Prop}
    (wider : ∀ sent received, small sent received → large sent received) (types : List WireType)
    (sent : Members ρ types) (received : Members ρ' types)
    (related : Members.Rel encoding small types sent received) :
    Members.Rel encoding large types sent received := by
  induction types with
  | nil => trivial
  | cons type types ih =>
      exact ⟨value_rel_mono wider type sent.1 received.1 related.1, ih sent.2 received.2 related.2⟩

theorem word_bytes_long {width : Nat} (value : BitVec width) :
    width / 8 ≤ (wordBytes value).length := by
  rw [word_bytes_length]

theorem enum_bytes_pos (encoding : Encoding) (value maxValue : Nat) :
    0 < (enumBytes encoding value maxValue).length := by
  cases encoding with
  | v10 =>
      simp only [enumBytes]
      split_ifs <;> simp
  | v11 => exact size_bytes_pos value

theorem proxy_bytes_long (encoding : Encoding) (proxy : Proxy) :
    2 ≤ (proxyBytes encoding proxy).length := by
  cases proxy with
  | none =>
      change 2 ≤ (stringBytes [] ++ stringBytes []).length
      decide
  | some reference =>
      have name := string_bytes_pos reference.name
      have category := string_bytes_pos reference.category
      simp only [proxyBytes, List.length_append]
      omega

section Values

variable {ρ' : Type} {encoding : Encoding} {ok : Gauge σ} {refEmitter : ρ → Emitter σ}
  (refsGrow : ∀ ref, Grows ok 1 (refEmitter ref))

include refsGrow in
theorem value_emitter_grows (type : WireType) (value : Value ρ type) :
    Grows ok type.minWireSize (valueEmitter encoding refEmitter type value) := by
  induction type with
  | bool => exact grows_emit (Nat.le_refl 1)
  | byte => exact grows_emit (Nat.le_refl 1)
  | short => exact grows_emit (word_bytes_long (value : BitVec 16))
  | int => exact grows_emit (word_bytes_long (value : BitVec 32))
  | long => exact grows_emit (word_bytes_long (value : BitVec 64))
  | float => exact grows_emit (word_bytes_long (value : BitVec 32))
  | double => exact grows_emit (word_bytes_long (value : BitVec 64))
  | string => exact grows_emit (string_bytes_pos value)
  | enum range => exact grows_emit (enum_bytes_pos encoding _ _)
  | sequence element ih =>
      exact ((grows_emit (size_bytes_pos _)).andThen
        (grows_emit_all value fun item _ => ih item)).lower (Nat.le_add_right 1 _)
  | dictionary key val keyGrows valueGrows =>
      exact ((grows_emit (size_bytes_pos _)).andThen (grows_emit_all value fun entry _ =>
        (keyGrows entry.1).andThen (valueGrows entry.2))).lower (Nat.le_add_right 1 _)
  | struct last ih => exact ih value
  | structCons first rest firstGrows restGrows => exact (firstGrows value.1).andThen (restGrows value.2)
  | proxy => exact grows_emit (proxy_bytes_long encoding value)
  | cls => exact refsGrow value

variable {fuel : Nat} {inv : σ → List τ → δ → Prop} {refs : RefReader δ ρ'}
  {linked : List τ → ρ → ρ' → Prop}

theorem takes_bulk_bool (value : Bool) :
    Takes (δ := δ) (boolBytes value) (do
      let bytes ← readUnchecked 1
      pure (decodeLE bytes != 0)) value := by
  have taken := (takes_unchecked (δ := δ) (boolBytes value)).map fun bytes => decodeLE bytes != 0
  cases value <;> exact taken

theorem takes_bulk_byte (value : Byte) :
    Takes (δ := δ) [value] (do
      let bytes ← readUnchecked 1
      pure (UInt8.ofNat (decodeLE bytes))) value := by
  have taken := (takes_unchecked (δ := δ) [value]).map fun bytes => UInt8.ofNat (decodeLE bytes)
  simpa [decodeLE] using taken

theorem takes_bulk_word {width : Nat} (value : BitVec width)
    (whole : 256 ^ (width / 8) = 2 ^ width) :
    Takes (δ := δ) (wordBytes value) (do
      let bytes ← readUnchecked (width / 8)
      pure (BitVec.ofNat width (decodeLE bytes))) value := by
  have taken := (takes_unchecked (δ := δ) (wordBytes value)).map fun bytes =>
    BitVec.ofNat width (decodeLE bytes)
  rw [word_bytes_length, decode_word value whole] at taken
  exact taken

theorem reads_element (element : WireType) (value : Value ρ element)
    (single : Reads fuel ok inv element.minWireSize (valueEmitter encoding refEmitter element value)
      (read encoding refs element)
      (fun cells received => Value.Rel encoding (linked cells) element value received)) :
    Reads fuel ok inv element.minWireSize (valueEmitter encoding refEmitter element value)
      ((bulkElement ρ' element).getD (read encoding refs element))
      (fun cells received => Value.Rel encoding (linked cells) element value received) := by
  cases element with
  | bool => exact Reads.of_takes (takes_bulk_bool value) (Nat.le_refl 1) fun _ => rfl
  | byte => exact Reads.of_takes (takes_bulk_byte value) (Nat.le_refl 1) fun _ => rfl
  | short => exact Reads.of_takes (takes_bulk_word value (by decide)) (word_bytes_long value) fun _ => rfl
  | int => exact Reads.of_takes (takes_bulk_word value (by decide)) (word_bytes_long value) fun _ => rfl
  | long => exact Reads.of_takes (takes_bulk_word value (by decide)) (word_bytes_long value) fun _ => rfl
  | float => exact Reads.of_takes (takes_bulk_word value (by decide)) (word_bytes_long value) fun _ => rfl
  | double => exact Reads.of_takes (takes_bulk_word value (by decide)) (word_bytes_long value) fun _ => rfl
  | _ => exact single

variable (lasting : ∀ ref, Lasting (fun cells received => linked cells ref received))
  (refsRead : ∀ ref, Reads fuel ok inv 1 (refEmitter ref) refs.read
    (fun cells received => linked cells ref received))

include lasting in
theorem value_rel_lasting (type : WireType) (value : Value ρ type) :
    Lasting (fun (cells : List τ) (received : Value ρ' type) =>
      Value.Rel encoding (linked cells) type value received) := by
  intro small large received grown related
  exact value_rel_mono (fun ref other => lasting ref small large other grown) type value received
    related

include refsGrow lasting refsRead in
theorem reads_value (type : WireType) (value : Value ρ type) :
    Reads fuel ok inv type.minWireSize (valueEmitter encoding refEmitter type value)
      (read encoding refs type)
      (fun cells received => Value.Rel encoding (linked cells) type value received) := by
  induction type with
  | bool => exact Reads.of_takes (takes_bool value) (Nat.le_refl 1) fun _ => rfl
  | byte => exact Reads.of_takes (takes_byte value) (Nat.le_refl 1) fun _ => rfl
  | short => exact Reads.of_takes (takes_word value (by decide)) (word_bytes_long value) fun _ => rfl
  | int => exact Reads.of_takes (takes_word value (by decide)) (word_bytes_long value) fun _ => rfl
  | long => exact Reads.of_takes (takes_word value (by decide)) (word_bytes_long value) fun _ => rfl
  | float => exact Reads.of_takes (takes_word value (by decide)) (word_bytes_long value) fun _ => rfl
  | double => exact Reads.of_takes (takes_word value (by decide)) (word_bytes_long value) fun _ => rfl
  | string => exact Reads.of_takes (takes_string value) (string_bytes_pos value) fun _ => rfl
  | enum range =>
      exact Reads.of_takes (takes_enum encoding range value) (enum_bytes_pos encoding _ _) fun _ => rfl
  | sequence element ih =>
      have grows : ∀ item, Grows ok element.minWireSize (valueEmitter encoding refEmitter element item) :=
        value_emitter_grows refsGrow element
      exact reads_counted (min_wire_size_pos element) (grows_emit_all value fun item _ => grows item)
        (reads_all (fun item => value_rel_lasting lasting element item) value
          (fun item _ => grows item) (fun item _ => reads_element element item (ih item)))
  | dictionary key val keyRead valueRead =>
      have grows : ∀ entry : Value ρ key × Value ρ val, Grows ok (key.minWireSize + val.minWireSize)
          (andThen (valueEmitter encoding refEmitter key entry.1)
            (valueEmitter encoding refEmitter val entry.2)) :=
        fun entry => value_emitter_grows refsGrow (.structCons key val) entry
      have each := min_wire_size_pos key
      refine reads_sized (Nat.le_mul_of_pos_right _ (by omega))
        (grows_emit_all value fun entry _ => grows entry)
        (reads_all ?_ value (fun entry _ => grows entry) ?_)
      · intro entry small large received grown related
        exact ⟨value_rel_lasting lasting key entry.1 small large received.1 grown related.1,
          value_rel_lasting lasting val entry.2 small large received.2 grown related.2⟩
      · intro entry _
        have whole := (keyRead entry.1).bind (value_rel_lasting lasting key entry.1)
          (value_emitter_grows refsGrow val entry.2)
          (fun _ first _ => (valueRead entry.2).map fun second => (first, second))
        refine whole.imp ?_
        rintro cells result ⟨first, related, second, others, rfl⟩
        exact ⟨related, others⟩
  | struct last ih => exact ih value
  | structCons first rest firstRead restRead =>
      have whole := (firstRead value.1).bind (value_rel_lasting lasting first value.1)
        (value_emitter_grows refsGrow rest value.2)
        (fun _ member _ => (restRead value.2).map fun members => (member, members))
      refine whole.imp ?_
      rintro cells result ⟨member, related, members, others, rfl⟩
      exact ⟨related, others⟩
  | proxy => exact reads_proxy refs.fresh refs.skip encoding value
  | cls => exact refsRead value

include refsGrow in
theorem members_emitter_grows (types : List WireType) (members : Members ρ types) :
    Grows ok 0 (membersEmitter encoding refEmitter types members) := by
  induction types with
  | nil => exact grows_emit (Nat.zero_le _)
  | cons type types ih =>
      exact ((value_emitter_grows refsGrow type members.1).andThen (ih members.2)).lower
        (Nat.zero_le _)

include lasting in
theorem members_rel_lasting (types : List WireType) (members : Members ρ types) :
    Lasting (fun (cells : List τ) (received : Members ρ' types) =>
      Members.Rel encoding (linked cells) types members received) := by
  intro small large received grown related
  exact members_rel_mono (fun ref other => lasting ref small large other grown) types members received
    related

include refsGrow lasting refsRead in
theorem reads_members (types : List WireType) (members : Members ρ types) :
    Reads fuel ok inv 0 (membersEmitter encoding refEmitter types members)
      (readMembers encoding refs types)
      (fun cells received => Members.Rel encoding (linked cells) types members received) := by
  induction types with
  | nil => exact Reads.of_takes (Takes.pure ()) (Nat.zero_le _) fun _ => trivial
  | cons type types ih =>
      have first : Reads fuel ok inv type.minWireSize (valueEmitter encoding refEmitter type members.1)
          (read encoding refs type)
          (fun cells received => Value.Rel encoding (linked cells) type members.1 received) :=
        reads_value refsGrow lasting refsRead type members.1
      have whole := first.bind (value_rel_lasting lasting type members.1)
        (members_emitter_grows refsGrow types members.2)
        (fun _ member _ => (ih members.2).map fun others => (member, others))
      refine (whole.imp ?_).lower (Nat.zero_le _)
      rintro cells result ⟨member, related, others, relatedOthers, rfl⟩
      exact ⟨related, relatedOthers⟩

end Values

theorem value_rel_eq (type : WireType) (sent received : Value ρ type)
    (related : Value.Rel .v11 (fun left right => right = left) type sent received) :
    received = sent := by
  induction type with
  | sequence element ih =>
      have same := List.Forall₂.imp (fun left right inner => (ih left right inner).symm) related
      exact (List.forall₂_eq_eq_eq ▸ same : sent = received).symm
  | dictionary key value keyEq valueEq =>
      have same := List.Forall₂.imp (fun (left right : Value ρ key × Value ρ value) inner =>
        (Prod.ext (keyEq left.1 right.1 inner.1).symm (valueEq left.2 right.2 inner.2).symm :
          left = right)) related
      exact (List.forall₂_eq_eq_eq ▸ same : sent = received).symm
  | struct last ih => exact ih sent received related
  | structCons first rest firstEq restEq =>
      exact Prod.ext (firstEq sent.1 received.1 related.1) (restEq sent.2 received.2 related.2)
  | proxy =>
      have carried : received = Option.map (Reference.carriedBy .v11) sent := related
      have whole : Reference.carriedBy .v11 = id := rfl
      rw [carried, whole, Option.map_id]
      rfl
  | _ => exact related

theorem members_rel_eq (types : List WireType) (sent received : Members ρ types)
    (related : Members.Rel .v11 (fun left right => right = left) types sent received) :
    received = sent := by
  induction types with
  | nil => rfl
  | cons type types ih =>
      exact Prod.ext (value_rel_eq type sent.1 received.1 related.1) (ih sent.2 received.2 related.2)

theorem optionals_rel_eq (defs : List (Nat × WireType)) (sent received : Optionals ρ defs)
    (related : Optionals.Rel .v11 (fun left right => right = left) defs sent received) :
    received = sent := by
  induction defs with
  | nil => rfl
  | cons d rest ih =>
      obtain ⟨tag, type⟩ := d
      refine Prod.ext ?_ (ih sent.2 received.2 related.2)
      have here : Option.Rel _ (Prod.fst sent) (Prod.fst received) := related.1
      generalize Prod.fst sent = one at here
      generalize Prod.fst received = two at here
      cases here with
      | none => rfl
      | some inner => rw [value_rel_eq type _ _ inner]

def valueBytes {types : List WireType} (sent : Members Empty types) : List Byte :=
  (membersEmitter .v11 (fun _ => (emit [] : Emitter Unit)) types sent ()).1

theorem write_members_bytes {σ : Type} {types : List WireType} (sent : Members Empty types)
    (before : List Byte) (state : σ) :
    writeMembers .v11 (fun ref : Empty => ref.elim) types sent ⟨before, state⟩ =
      ⟨before ++ valueBytes sent, state⟩ :=
  @write_members_appends σ Unit Empty (fun _ => state) _ _ .v11 nofun types sent before ()

/-- Values of any types are read back as they were written, and nothing of what follows. -/
theorem values_read_back {σ : Type} {types : List WireType} (sent : Members Empty types)
    (stream : BasicStream σ) (rest : List Byte) (refs : RefReader δ Empty) (decoder : δ)
    (small : ((writeMembers .v11 (fun ref : Empty => ref.elim) types sent stream).b ++
      rest).length < 2 ^ 31) :
    ∃ after, readMembers .v11 refs types
        ((ReadStream.fresh ((writeMembers .v11 (fun ref : Empty => ref.elim) types sent stream).b ++
          rest) decoder).advance stream.b.length) = .ok sent after ∧
      after.buf.drop after.pos = rest := by
  obtain ⟨before, state⟩ := stream
  rw [write_members_bytes] at small ⊢
  let buffer := before ++ valueBytes sent ++ rest
  let always : Gauge Unit := ⟨fun _ => True, fun _ => 0⟩
  have reads := @reads_members δ Unit Unit Empty Empty .v11 always (fun _ => emit []) nofun
    (buffer.length + 1) (fun _ _ _ => True) refs
    (fun _ left right => right = left) nofun nofun types sent
  have ahead : Ahead ((ReadStream.fresh buffer decoder).advance before.length) (valueBytes sent)
      rest := by
    refine ⟨?_, ?_, Nat.le_refl _, small⟩
    · simp [buffer, ReadStream.fresh, ReadStream.advance]
    · simp [buffer, ReadStream.fresh, ReadStream.advance]
  obtain ⟨received, _, after, ran, moved, _, _, _, related⟩ := reads () [] _ rest 0 trivial trivial
    ahead (.inl rfl) (Nat.zero_le _) (by
      simp only [ReadStream.fresh, ReadStream.advance]
      omega)
  rw [members_rel_eq types sent received related] at ran
  refine ⟨after, ran, ?_⟩
  rw [moved.buf, moved.pos]
  simp [buffer, ReadStream.fresh, ReadStream.advance, valueBytes]

/-- `enum { A, B, C }`. -/
def threeValues : EnumRange := ⟨0, 2, by decide, by decide⟩

def greeting : Members Empty [.bool, .enum threeValues, .dictionary .byte .string] :=
  (true, ⟨2, by decide, by decide⟩, [((7 : Byte), ([104, 105] : Str))], ())

/-- The stream held a byte before, and one more stands behind the values. -/
theorem greeting_read_back : ∃ after : ReadStream Unit,
    readMembers .v11 ⟨throw (.ice .unmarshalOutOfBounds), pure (), ()⟩ _
        ((ReadStream.fresh [5, 1, 2, 1, 7, 2, 104, 105, 9] ()).advance 1) = .ok greeting after ∧
      after.buf.drop after.pos = [9] :=
  values_read_back greeting (⟨[5], ()⟩ : BasicStream Unit) [9] _ () (by decide)

end IceTouch.ValueTransfer

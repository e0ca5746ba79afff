import IceTouch.OutStream
import IceTouch.Library.Emit

/-!
# `StreamHelper` and `StreamOptionalHelper`, writing

The template helpers that marshal a value of a Slice type, and the optional helpers that
put a tag, a format and, where the format asks for one, a size in front of it. The class
encoders are reached through `writeRef`, which marshals a reference to a class instance.

Each writer has an emitter: the bytes it appends, computed without the stream. The
`Appends` lemmas connect the two.
-/

namespace IceTouch.StreamHelpers

open Bytes WireTypes OutStream Emit

variable {σ τ ρ : Type}

/-- `Ice::OptionalFormat`. -/
inductive OptionalFormat where
  | f1
  | f2
  | f4
  | f8
  | size
  | vSize
  | fSize
  | cls
deriving DecidableEq, Repr

def OptionalFormat.code : OptionalFormat → Byte
  | .f1 => 0
  | .f2 => 1
  | .f4 => 2
  | .f8 => 3
  | .size => 4
  | .vSize => 5
  | .fSize => 6
  | .cls => 7

/-- `static_cast<OptionalFormat>(v & 0x07)`. -/
def OptionalFormat.ofByte (value : Byte) : OptionalFormat :=
  match value &&& 7 with
  | 0 => .f1
  | 1 => .f2
  | 2 => .f4
  | 3 => .f8
  | 4 => .size
  | 5 => .vSize
  | 6 => .fSize
  | _ => .cls

inductive OptionalHelper where
  /-- The base helper: the value alone. -/
  | plain
  /-- Fixed size structs: the size of the type in front. -/
  | fixedStruct
  /-- Containers of fixed size elements: the computed size in front. -/
  | fixedContainer (elementSize : Nat)
  /-- Variable size structs, proxies and containers: a reserved and rewritten `Int`. -/
  | variable
deriving DecidableEq, Repr

/-- `StreamOptionalContainerHelper<T, fixedLength, sz>`. Containers of one-byte elements
need no size of their own: the number of elements can be used to skip the optional. -/
def containerHelper (fixedLength : Bool) (elementSize : Nat) : OptionalHelper :=
  if fixedLength then
    if elementSize = 1 then .plain else .fixedContainer elementSize
  else
    .variable

def optionalHelper : WireType → OptionalHelper
  | .bool | .byte | .short | .int | .long | .float | .double => .plain
  | .string | .enum _ | .cls => .plain
  | .struct last => if (WireType.struct last).fixedLength then .fixedStruct else .variable
  | .structCons first rest =>
      if (WireType.structCons first rest).fixedLength then .fixedStruct else .variable
  | .proxy => .variable
  | .sequence element => containerHelper element.fixedLength element.minWireSize
  | .dictionary key value =>
      containerHelper (key.fixedLength && value.fixedLength)
        (key.minWireSize + value.minWireSize)

/-- `StreamOptionalHelper<T>::optionalFormat`. -/
def optionalFormat : WireType → OptionalFormat
  | .bool | .byte => .f1
  | .short => .f2
  | .int | .float => .f4
  | .long | .double => .f8
  | .string => .vSize
  | .enum _ => .size
  | .cls => .cls
  | .proxy => .fSize
  | .struct last => if (WireType.struct last).fixedLength then .vSize else .fSize
  | .structCons first rest =>
      if (WireType.structCons first rest).fixedLength then .vSize else .fSize
  | .sequence element => if element.fixedLength then .vSize else .fSize
  | .dictionary key value => if key.fixedLength && value.fixedLength then .vSize else .fSize

def elementCount : (type : WireType) → Value ρ type → Nat
  | .sequence element => fun (values : List (Value ρ element)) => values.length
  | .dictionary key value => fun (entries : List (Value ρ key × Value ρ value)) => entries.length
  | _ => fun _ => 0

/-- `StreamHelper<T>::write`. -/
def write (encoding : Encoding) (writeRef : ρ → BasicStream σ → BasicStream σ) :
    (type : WireType) → Value ρ type → BasicStream σ → BasicStream σ
  | .bool => fun (value : Bool) stream => stream.writeBool value
  | .byte => fun (value : Byte) stream => stream.writeByte value
  | .short => fun (value : BitVec 16) stream => stream.writeWord value
  | .int => fun (value : BitVec 32) stream => stream.writeWord value
  | .long => fun (value : BitVec 64) stream => stream.writeWord value
  | .float => fun (value : BitVec 32) stream => stream.writeWord value
  | .double => fun (value : BitVec 64) stream => stream.writeWord value
  | .string => fun (value : Str) stream => stream.writeString value
  | .enum range =>
      fun (value : { value : Nat // range.minValue ≤ value ∧ value ≤ range.maxValue }) stream =>
        stream.writeEnum encoding value.val range.maxValue
  | .sequence element => fun (values : List (Value ρ element)) stream =>
      BasicStream.writeAll (write encoding writeRef element) values
        (stream.writeSize values.length)
  | .dictionary key value => fun (entries : List (Value ρ key × Value ρ value)) stream =>
      BasicStream.writeAll
        (fun entry stream =>
          write encoding writeRef value entry.2 (write encoding writeRef key entry.1 stream))
        entries (stream.writeSize entries.length)
  | .struct last => write encoding writeRef last
  | .structCons first rest => fun (members : Value ρ first × Value ρ rest) stream =>
      write encoding writeRef rest members.2 (write encoding writeRef first members.1 stream)
  | .proxy => fun (value : Proxy) stream => stream.writeProxy encoding value
  | .cls => writeRef

def writeMembers (encoding : Encoding) (writeRef : ρ → BasicStream σ → BasicStream σ) :
    (types : List WireType) → Members ρ types → BasicStream σ → BasicStream σ
  | [] => fun _ stream => stream
  | type :: types => fun (members : Value ρ type × Members ρ types) stream =>
      writeMembers encoding writeRef types members.2 (write encoding writeRef type members.1 stream)

/-- `writeOptImpl`, encoding 1.1. -/
def writeOptImpl (tag : Nat) (format : OptionalFormat) (stream : BasicStream σ) :
    BasicStream σ :=
  if tag < 30 then
    stream.writeByte (format.code ||| (UInt8.ofNat tag <<< 3))
  else
    (stream.writeByte (format.code ||| 0xF0)).writeSize tag

/-- `StreamOptionalHelper<T>::write`. -/
def writeOptional (writeRef : ρ → BasicStream σ → BasicStream σ) (type : WireType)
    (value : Value ρ type) (stream : BasicStream σ) : BasicStream σ :=
  match optionalHelper type with
  | .plain => write .v11 writeRef type value stream
  | .fixedStruct => write .v11 writeRef type value (stream.writeSize type.minWireSize)
  | .fixedContainer elementSize =>
      let n := elementCount type value
      write .v11 writeRef type value
        (stream.writeSize (elementSize * n + (if n < 255 then 1 else 5)))
  | .variable =>
      let reserved := stream.writeInt 0
      let p := reserved.pos
      let written := write .v11 writeRef type value reserved
      written.rewrite (written.pos - p : Nat) (p - 4)

/-- An optional that is set, with its tag. A tag is a non-negative `Ice::Int`. -/
structure Tagged (ρ : Type) where
  tag : Nat
  bounded : tag < 2 ^ 31
  type : WireType
  value : Value ρ type

/-- `write(tag, optional)` for an optional that is set, without an encoder. -/
def writeTagged (writeRef : ρ → BasicStream σ → BasicStream σ) (item : Tagged ρ)
    (stream : BasicStream σ) : BasicStream σ :=
  writeOptional writeRef item.type item.value
    (writeOptImpl item.tag (optionalFormat item.type) stream)

/-- Required members followed by the optional ones that are set. -/
def writeBody (writeRef : ρ → BasicStream σ → BasicStream σ) (types : List WireType)
    (members : Members ρ types) (items : List (Tagged ρ)) (stream : BasicStream σ) :
    BasicStream σ :=
  BasicStream.writeAll (writeTagged writeRef) items
    (writeMembers .v11 writeRef types members stream)

def sizeBytes (value : Nat) : List Byte :=
  if 254 < value then 255 :: intBytes value else [UInt8.ofNat value]

def wordBytes {width : Nat} (value : BitVec width) : List Byte :=
  encodeLE (width / 8) value.toNat

def boolBytes (value : Bool) : List Byte := [if value then 1 else 0]

def stringBytes (value : Str) : List Byte := sizeBytes value.length ++ value

def enumBytes (encoding : Encoding) (value maxValue : Nat) : List Byte :=
  match encoding with
  | .v10 =>
      if maxValue < 127 then [UInt8.ofNat value]
      else if maxValue < 32767 then wordBytes (BitVec.ofNat 16 value)
      else intBytes value
  | .v11 => sizeBytes value

def versionBytes (version : Version) : List Byte := [version.major, version.minor]

def encapsBytes (version : Version) (content : List Byte) : List Byte :=
  intBytes (content.length + 6 : Nat) ++ versionBytes version ++ content

def endpointBytes (encoding : Encoding) : Endpoint → List Byte
  | .tcp host port timeout compress =>
      wordBytes tcpEndpointType ++ encapsBytes encoding.version
        (stringBytes host ++ wordBytes port ++ wordBytes timeout ++ boolBytes compress)
  | .udp host port compress =>
      wordBytes udpEndpointType ++ encapsBytes encoding.version
        (stringBytes host ++ wordBytes port ++
          (match encoding with
            | .v10 => versionBytes ⟨1, 0⟩ ++ versionBytes ⟨1, 0⟩
            | .v11 => []) ++ boolBytes compress)
  | .raw type _ rawEncoding rawBytes =>
      wordBytes type ++ encapsBytes rawEncoding.version rawBytes

def facetBytes (facet : Str) : List Byte :=
  if facet = [] then sizeBytes 0 else sizeBytes 1 ++ stringBytes facet

def targetBytes (encoding : Encoding) (reference : Reference) : List Byte :=
  sizeBytes reference.endpoints.length ++
    if reference.endpoints = [] then stringBytes reference.adapterId
    else reference.endpoints.flatMap (endpointBytes encoding)

def versionsBytes (encoding : Encoding) (reference : Reference) : List Byte :=
  match encoding with
  | .v10 => []
  | .v11 => versionBytes reference.protocol ++ versionBytes reference.encoding

def referenceBytes (encoding : Encoding) (reference : Reference) : List Byte :=
  facetBytes reference.facet ++ ([BasicStream.modeByte reference.mode] ++
    (boolBytes reference.secure ++ (versionsBytes encoding reference ++
      targetBytes encoding reference)))

def proxyBytes (encoding : Encoding) : Proxy → List Byte
  | some reference =>
      stringBytes reference.name ++ (stringBytes reference.category ++
        referenceBytes encoding reference)
  | none => stringBytes [] ++ stringBytes []

def valueEmitter (encoding : Encoding) (refEmitter : ρ → Emitter σ) :
    (type : WireType) → Value ρ type → Emitter σ
  | .bool => fun (value : Bool) => emit (boolBytes value)
  | .byte => fun (value : Byte) => emit [value]
  | .short => fun (value : BitVec 16) => emit (wordBytes value)
  | .int => fun (value : BitVec 32) => emit (wordBytes value)
  | .long => fun (value : BitVec 64) => emit (wordBytes value)
  | .float => fun (value : BitVec 32) => emit (wordBytes value)
  | .double => fun (value : BitVec 64) => emit (wordBytes value)
  | .string => fun (value : Str) => emit (stringBytes value)
  | .enum range =>
      fun (value : { value : Nat // range.minValue ≤ value ∧ value ≤ range.maxValue }) =>
        emit (enumBytes encoding value.val range.maxValue)
  | .sequence element => fun (values : List (Value ρ element)) =>
      andThen (emit (sizeBytes values.length))
        (emitAll (valueEmitter encoding refEmitter element) values)
  | .dictionary key value => fun (entries : List (Value ρ key × Value ρ value)) =>
      andThen (emit (sizeBytes entries.length))
        (emitAll (fun entry => andThen (valueEmitter encoding refEmitter key entry.1)
          (valueEmitter encoding refEmitter value entry.2)) entries)
  | .struct last => valueEmitter encoding refEmitter last
  | .structCons first rest => fun (members : Value ρ first × Value ρ rest) =>
      andThen (valueEmitter encoding refEmitter first members.1)
        (valueEmitter encoding refEmitter rest members.2)
  | .proxy => fun (value : Proxy) => emit (proxyBytes encoding value)
  | .cls => refEmitter

def membersEmitter (encoding : Encoding) (refEmitter : ρ → Emitter σ) :
    (types : List WireType) → Members ρ types → Emitter σ
  | [] => fun _ => emit []
  | type :: types => fun (members : Value ρ type × Members ρ types) =>
      andThen (valueEmitter encoding refEmitter type members.1)
        (membersEmitter encoding refEmitter types members.2)

def tagBytes (tag : Nat) (format : OptionalFormat) : List Byte :=
  if tag < 30 then [format.code ||| (UInt8.ofNat tag <<< 3)]
  else (format.code ||| 0xF0) :: sizeBytes tag

/-- What an optional helper puts in front of a content of `count` elements. -/
def optionalFrame (helper : OptionalHelper) (minSize count : Nat) (content : Emitter σ) :
    Emitter σ :=
  match helper with
  | .plain => content
  | .fixedStruct => andThen (emit (sizeBytes minSize)) content
  | .fixedContainer elementSize =>
      andThen (emit (sizeBytes (elementSize * count + (if count < 255 then 1 else 5)))) content
  | .variable => framed (fun length => intBytes length) content

/-- The emitter of `StreamOptionalHelper<T>::write`. -/
def optionalEmitter (refEmitter : ρ → Emitter σ) (type : WireType) (value : Value ρ type) :
    Emitter σ :=
  optionalFrame (optionalHelper type) type.minWireSize (elementCount type value)
    (valueEmitter .v11 refEmitter type value)

def tagged (content : Tagged ρ → Emitter σ) (item : Tagged ρ) : Emitter σ :=
  andThen (emit (tagBytes item.tag (optionalFormat item.type))) (content item)

def bodyEmitter (refEmitter : ρ → Emitter σ) (content : Tagged ρ → Emitter σ)
    (types : List WireType) (members : Members ρ types) (items : List (Tagged ρ)) : Emitter σ :=
  andThen (membersEmitter .v11 refEmitter types members) (emitAll (tagged content) items)

section Blobs

variable (stream : BasicStream σ)

@[simp] theorem write_blob_write_blob (left right : List Byte) :
    (stream.writeBlob left).writeBlob right = stream.writeBlob (left ++ right) := by
  simp [BasicStream.writeBlob]

theorem write_byte_eq_blob (value : Byte) :
    stream.writeByte value = stream.writeBlob [value] := rfl

theorem write_int_eq_blob (value : Int) :
    stream.writeInt value = stream.writeBlob (intBytes value) := rfl

theorem write_size_eq_blob (value : Nat) :
    stream.writeSize value = stream.writeBlob (sizeBytes value) := by
  unfold BasicStream.writeSize sizeBytes
  split
  · rw [write_byte_eq_blob, write_int_eq_blob, write_blob_write_blob]
    rfl
  · rfl

theorem write_word_eq_blob {width : Nat} (value : BitVec width) :
    stream.writeWord value = stream.writeBlob (wordBytes value) := rfl

theorem write_bool_eq_blob (value : Bool) :
    stream.writeBool value = stream.writeBlob (boolBytes value) := rfl

theorem write_string_eq_blob (value : Str) :
    stream.writeString value = stream.writeBlob (stringBytes value) := by
  rw [BasicStream.writeString, write_size_eq_blob, write_blob_write_blob, stringBytes]

theorem write_enum_eq_blob (encoding : Encoding) (value maxValue : Nat) :
    stream.writeEnum encoding value maxValue =
      stream.writeBlob (enumBytes encoding value maxValue) := by
  cases encoding with
  | v10 =>
      simp only [BasicStream.writeEnum, enumBytes]
      split_ifs <;> rfl
  | v11 => exact write_size_eq_blob stream value

theorem write_version_eq_blob (version : Version) :
    stream.writeVersion version = stream.writeBlob (versionBytes version) := by
  simp [BasicStream.writeVersion, write_byte_eq_blob, versionBytes]

theorem rewrite_reserved (value : Int) (hole after : List Byte) (reserved : hole.length = 4) :
    (stream.writeBlob (hole ++ after)).rewrite value stream.pos =
      stream.writeBlob (intBytes value ++ after) := by
  have filled := rewrite_at_hole stream.b hole after (intBytes value) (by simp [reserved])
  simp only [BasicStream.rewrite, BasicStream.writeBlob, BasicStream.pos]
  rw [← List.append_assoc, filled, List.append_assoc]

theorem write_encaps_eq_blob (version : Version) (content : BasicStream σ → BasicStream σ)
    (bytes : List Byte) (appends : ∀ inner, content inner = inner.writeBlob bytes) :
    stream.writeEncaps version content = stream.writeBlob (encapsBytes version bytes) := by
  have written : content ((stream.writeInt 0).writeVersion version) =
      stream.writeBlob (intBytes 0 ++ (versionBytes version ++ bytes)) := by
    rw [appends, write_version_eq_blob, write_int_eq_blob, write_blob_write_blob,
      write_blob_write_blob]
  have size : (stream.writeBlob (intBytes 0 ++ (versionBytes version ++ bytes))).pos -
      stream.pos = bytes.length + 6 := by
    simp [BasicStream.pos, BasicStream.writeBlob, versionBytes]
    omega
  simp only [BasicStream.writeEncaps, written, size]
  rw [rewrite_reserved _ _ _ _ (by simp), encapsBytes, List.append_assoc]

theorem write_endpoint_eq_blob (encoding : Encoding) (endpoint : Endpoint) :
    stream.writeEndpoint encoding endpoint = stream.writeBlob (endpointBytes encoding endpoint) := by
  cases endpoint with
  | tcp host port timeout compress =>
      rw [BasicStream.writeEndpoint, write_encaps_eq_blob _ _ _
        (stringBytes host ++ wordBytes port ++ wordBytes timeout ++ boolBytes compress)]
      · rw [write_word_eq_blob, write_blob_write_blob, endpointBytes]
      · intro inner
        simp [write_string_eq_blob, write_word_eq_blob, write_bool_eq_blob]
  | udp host port compress =>
      rw [BasicStream.writeEndpoint, write_encaps_eq_blob _ _ _
        (stringBytes host ++ wordBytes port ++
          (match encoding with
            | .v10 => versionBytes ⟨1, 0⟩ ++ versionBytes ⟨1, 0⟩
            | .v11 => []) ++ boolBytes compress)]
      · exact write_blob_write_blob stream _ _
      · intro inner
        cases encoding <;>
          simp [write_string_eq_blob, write_word_eq_blob, write_bool_eq_blob,
            write_version_eq_blob]
  | raw type foreign rawEncoding rawBytes =>
      rw [BasicStream.writeEndpoint, write_encaps_eq_blob _ _ _ rawBytes (fun _ => rfl),
        write_word_eq_blob, write_blob_write_blob, endpointBytes]

theorem write_all_eq_blob {α : Type} (writeItem : α → BasicStream σ → BasicStream σ)
    (bytes : α → List Byte) (appends : ∀ item inner, writeItem item inner = inner.writeBlob (bytes item))
    (items : List α) :
    BasicStream.writeAll writeItem items stream = stream.writeBlob (items.flatMap bytes) := by
  induction items generalizing stream with
  | nil => simp [BasicStream.writeAll, BasicStream.writeBlob]
  | cons item rest ih =>
      rw [BasicStream.writeAll, appends, ih, write_blob_write_blob, List.flatMap_cons]

theorem write_reference_eq_blob (encoding : Encoding) (reference : Reference) :
    stream.writeReference encoding reference =
      stream.writeBlob (referenceBytes encoding reference) := by
  have endpoints := fun inner : BasicStream σ => write_all_eq_blob inner
    (BasicStream.writeEndpoint encoding) (endpointBytes encoding)
    (fun endpoint other => write_endpoint_eq_blob other encoding endpoint) reference.endpoints
  simp only [BasicStream.writeReference, write_size_eq_blob, write_string_eq_blob,
    write_byte_eq_blob, write_bool_eq_blob, write_version_eq_blob, endpoints,
    referenceBytes, facetBytes, versionsBytes, targetBytes]
  cases encoding <;> split_ifs <;> simp

theorem write_proxy_eq_blob (encoding : Encoding) (proxy : Proxy) :
    stream.writeProxy encoding proxy = stream.writeBlob (proxyBytes encoding proxy) := by
  cases proxy with
  | none => simp [BasicStream.writeProxy, write_string_eq_blob, proxyBytes]
  | some reference =>
      simp [BasicStream.writeProxy, write_string_eq_blob, write_reference_eq_blob, proxyBytes]

theorem write_opt_impl_eq_blob (tag : Nat) (format : OptionalFormat) :
    writeOptImpl tag format stream = stream.writeBlob (tagBytes tag format) := by
  unfold writeOptImpl tagBytes
  split
  · rfl
  · rw [write_byte_eq_blob, write_size_eq_blob, write_blob_write_blob]
    rfl

end Blobs

/-- `writer` appends what `emitter` emits, whatever is in the stream already. The encoder
state the emitter sees may be part of a larger one, which `embed` rebuilds. -/
def Appends (embed : τ → σ) (writer : BasicStream σ → BasicStream σ) (emitter : Emitter τ) :
    Prop :=
  ∀ b state, writer ⟨b, embed state⟩ = ⟨b ++ (emitter state).1, embed (emitter state).2⟩

section Appends

variable {embed : τ → σ}

variable {writer : BasicStream σ → BasicStream σ}

theorem appends_blob {bytes : List Byte} (blob : ∀ stream, writer stream = stream.writeBlob bytes) :
    Appends embed writer (emit bytes) := by
  intro b state
  rw [blob]
  rfl

theorem Appends.andThen {first second : BasicStream σ → BasicStream σ} {left right : Emitter τ}
    (firstAppends : Appends embed first left) (secondAppends : Appends embed second right) :
    Appends embed (fun stream => second (first stream)) (andThen left right) := by
  intro b state
  simp only [firstAppends b state, secondAppends _ _, and_then_bytes, and_then_state,
    List.append_assoc]

theorem Appends.writeAll {α : Type} {writeItem : α → BasicStream σ → BasicStream σ}
    {each : α → Emitter τ} (every : ∀ item, Appends embed (writeItem item) (each item))
    (items : List α) : Appends embed (BasicStream.writeAll writeItem items) (emitAll each items) := by
  induction items with
  | nil =>
      intro b state
      simp [BasicStream.writeAll, emitAll]
  | cons item rest ih => exact (every item).andThen ih

variable {writeRef : ρ → BasicStream σ → BasicStream σ} {refEmitter : ρ → Emitter τ}

theorem write_appends {encoding : Encoding}
    (refs : ∀ ref, Appends embed (writeRef ref) (refEmitter ref)) (type : WireType)
    (value : Value ρ type) :
    Appends embed (write encoding writeRef type value)
      (valueEmitter encoding refEmitter type value) := by
  induction type with
  | bool => exact appends_blob fun stream => write_bool_eq_blob stream value
  | byte => exact appends_blob fun stream => write_byte_eq_blob stream value
  | short => exact appends_blob fun stream => write_word_eq_blob stream value
  | int => exact appends_blob fun stream => write_word_eq_blob stream value
  | long => exact appends_blob fun stream => write_word_eq_blob stream value
  | float => exact appends_blob fun stream => write_word_eq_blob stream value
  | double => exact appends_blob fun stream => write_word_eq_blob stream value
  | string => exact appends_blob fun stream => write_string_eq_blob stream value
  | enum range => exact appends_blob fun stream => write_enum_eq_blob stream encoding _ _
  | sequence element ih =>
      exact (appends_blob fun stream => write_size_eq_blob stream _).andThen
        (Appends.writeAll (fun item => ih item) value)
  | dictionary key val keyAppends valueAppends =>
      exact (appends_blob fun stream => write_size_eq_blob stream _).andThen
        (Appends.writeAll (fun entry => (keyAppends entry.1).andThen (valueAppends entry.2)) value)
  | struct last ih => exact ih value
  | structCons first rest firstAppends restAppends =>
      exact (firstAppends value.1).andThen (restAppends value.2)
  | proxy => exact appends_blob fun stream => write_proxy_eq_blob stream encoding value
  | cls => exact refs value

theorem write_members_appends {encoding : Encoding}
    (refs : ∀ ref, Appends embed (writeRef ref) (refEmitter ref)) (types : List WireType)
    (members : Members ρ types) :
    Appends embed (writeMembers encoding writeRef types members)
      (membersEmitter encoding refEmitter types members) := by
  induction types with
  | nil =>
      intro b state
      simp [writeMembers, membersEmitter]
  | cons type types ih => exact (write_appends refs type members.1).andThen (ih members.2)

theorem Appends.sized {content : Emitter τ} (inside : Appends embed writer content) :
    Appends embed (fun stream =>
      (writer (stream.writeInt 0)).rewrite
        ((writer (stream.writeInt 0)).pos - (stream.writeInt 0).pos : Nat)
        ((stream.writeInt 0).pos - 4))
      (framed (fun length => intBytes length) content) := by
  intro b state
  have written := inside (b ++ intBytes 0) state
  have reserved : (⟨b, embed state⟩ : BasicStream σ).writeInt 0 = ⟨b ++ intBytes 0, embed state⟩ :=
    rfl
  have asBlob : (⟨b ++ intBytes 0 ++ (content state).1, embed (content state).2⟩ : BasicStream σ) =
      (⟨b, embed (content state).2⟩ : BasicStream σ).writeBlob (intBytes 0 ++ (content state).1) := by
    simp [BasicStream.writeBlob]
  have filled := rewrite_reserved (⟨b, embed (content state).2⟩ : BasicStream σ)
    ((content state).1.length : Int) (intBytes 0) (content state).1 (by simp)
  have size : (b ++ intBytes 0 ++ (content state).1).length - (b ++ intBytes 0).length =
      (content state).1.length := by
    simp only [List.length_append]
    omega
  have start : (b ++ intBytes 0).length - 4 = b.length := by simp
  simp only [reserved, written, BasicStream.pos, size, start]
  rw [asBlob]
  simpa [BasicStream.pos, BasicStream.writeBlob] using filled

section

variable (refs : ∀ ref, Appends embed (writeRef ref) (refEmitter ref))

include refs

theorem write_optional_appends (type : WireType) (value : Value ρ type) :
    Appends embed (writeOptional writeRef type value) (optionalEmitter refEmitter type value) := by
  have plain : Appends embed (write .v11 writeRef type value)
      (valueEmitter .v11 refEmitter type value) := write_appends refs type value
  unfold writeOptional optionalEmitter optionalFrame
  cases optionalHelper type with
  | plain => exact plain
  | fixedStruct => exact (appends_blob fun stream => write_size_eq_blob stream _).andThen plain
  | fixedContainer elementSize =>
      exact (appends_blob fun stream => write_size_eq_blob stream _).andThen plain
  | «variable» => exact plain.sized

theorem write_tagged_appends (item : Tagged ρ) : Appends embed (writeTagged writeRef item)
      (tagged (fun item => optionalEmitter refEmitter item.type item.value) item) :=
  (appends_blob fun stream => write_opt_impl_eq_blob stream _ _).andThen
    (write_optional_appends refs item.type item.value)

theorem write_body_appends (types : List WireType) (members : Members ρ types)
    (items : List (Tagged ρ)) :
    Appends embed (writeBody writeRef types members items)
      (bodyEmitter refEmitter (fun item => optionalEmitter refEmitter item.type item.value) types
        members items) :=
  (write_members_appends refs types members).andThen
    (Appends.writeAll (fun item => write_tagged_appends refs item) items)

end

end Appends

end IceTouch.StreamHelpers

import IceTouch.StreamHelpers
import IceTouch.Library.Run

/-!
# The reading side of `BasicStream`

A stream is read from a fixed buffer. A run ends normally, with an Ice exception, or with
a fault: an assertion that does not hold, a null pointer, a copied range whose end is before
its start, a negation that overflows, or an access outside the buffer. A run that exhausts
its fuel stands for one that does not end.

`events` is a history variable: it records the numbers read off the wire that the C++ code
goes on to use as an index, a size or a displacement. No function reads it.
-/

namespace IceTouch.InStream

open Bytes WireTypes StreamHelpers Run

inductive IceException where
  | unmarshalOutOfBounds
  | marshal (reason : String)
  | encapsulation
  | unsupportedEncoding
  | proxyUnmarshal
  | noObjectFactory (reason : String) (typeId : Str)
  | unknownUserException (typeId : Str)
deriving DecidableEq, Repr

inductive Fault where
  | assertion
  | nullPointer
  | invertedRange
  | negationOverflow
  | outsideBuffer
deriving DecidableEq, Repr

inductive Failure where
  | ice (exception : IceException)
  | fault (kind : Fault)
  | fuel
deriving DecidableEq, Repr

inductive WireEvent where
  /-- `readAndCheckSeqSize` read `count` for elements of `minSize` bytes at `position`. -/
  | sequenceSize (count minSize position : Nat) (startSeq minSeqSize : Int)
  /-- `skipOpt` skips the content of an optional in FSize format. -/
  | skippedSize (size : Int)
  /-- A class reference in encoding 1.0. -/
  | objectId (index : Int)
  /-- An entry of an indirection table. -/
  | tableEntry (index : Nat)
  /-- A slice with a size is skipped. -/
  | skippedSlice (hasOptionalMembers : Bool) (size : Int)
  /-- A reference to an instance by its number, with the last number handed out so far;
  `enclosed` when it is read inside an instance that is read at top level. -/
  | instanceId (index objectIdIndex : Nat) (enclosed : Bool)
  /-- All pending objects of encoding 1.0 have been read. -/
  | pendingObjects
deriving DecidableEq, Repr

structure ReadStream (δ : Type) where
  buf : List Byte
  pos : Nat
  /-- End of the current read encapsulation, `start + sz`. -/
  encapsEnd : Nat
  startSeq : Int
  minSeqSize : Int
  decoder : δ
  events : List WireEvent

abbrev Reader (δ : Type) (α : Type) := EStateM Failure (ReadStream δ) α

variable {δ α : Type}

/-- A stream that has just been constructed over `buf`; without an explicit encapsulation
the current one reaches to the end of the buffer. -/
def ReadStream.fresh (buf : List Byte) (decoder : δ) : ReadStream δ where
  buf := buf
  pos := 0
  encapsEnd := buf.length
  startSeq := -1
  minSeqSize := 0
  decoder := decoder
  events := []

def ReadStream.advance (count : Nat) (stream : ReadStream δ) : ReadStream δ :=
  { stream with pos := stream.pos + count }

def throwIce (exception : IceException) : Reader δ α := throw (.ice exception)

def throwFault (kind : Fault) : Reader δ α := throw (.fault kind)

def record (event : WireEvent) : Reader δ Unit :=
  modify fun stream => { stream with events := event :: stream.events }

def readByte : Reader δ Byte := fun stream =>
  match stream.buf[stream.pos]? with
  | some byte => .ok byte (stream.advance 1)
  | none => .error (.ice .unmarshalOutOfBounds) stream

/-- The checked bulk readers: `if(b.end() - i < count) throw ...; i += count`. -/
def readBlob (count : Nat) : Reader δ (List Byte) := fun stream =>
  if stream.pos + count ≤ stream.buf.length then
    .ok ((stream.buf.drop stream.pos).take count) (stream.advance count)
  else
    .error (.ice .unmarshalOutOfBounds) stream

/-- The copy loops of the fixed-size sequence readers, which rely on the check that
`readAndCheckSeqSize` has made. -/
def readUnchecked (count : Nat) : Reader δ (List Byte) := fun stream =>
  if stream.pos + count ≤ stream.buf.length then
    .ok ((stream.buf.drop stream.pos).take count) (stream.advance count)
  else
    .error (.fault .outsideBuffer) stream

def readWord (width : Nat) : Reader δ (BitVec width) := do
  let bytes ← readBlob (width / 8)
  pure (BitVec.ofNat width (decodeLE bytes))

def readInt : Reader δ Int := do
  let word ← readWord 32
  pure word.toInt

def readBool : Reader δ Bool := do
  let byte ← readByte
  pure (byte != 0)

def readSize : Reader δ Nat := do
  let byte ← readByte
  if byte = 255 then do
    let value ← readInt
    if value < 0 then throwIce .unmarshalOutOfBounds else pure value.toNat
  else
    pure byte.toNat

/-- `read(std::string&, convert)` without a string converter. -/
def readString : Reader δ Str := do
  let size ← readSize
  if 0 < size then readBlob size else pure []

/-- `skip(size_type)`. The callers pass 32-bit integers, which are converted to an unsigned
size; adding that to the position wraps around, so that a negative argument moves backwards. -/
def skip (size : Int) : Reader δ Unit := fun stream =>
  if (stream.buf.length : Int) < stream.pos + size then
    .error (.ice .unmarshalOutOfBounds) stream
  else if (stream.pos : Int) + size < 0 then
    .error (.fault .outsideBuffer) stream
  else
    .ok () { stream with pos := ((stream.pos : Int) + size).toNat }

def skipSize : Reader δ Unit := do
  let byte ← readByte
  if byte = 255 then skip 4 else pure ()

/-- 32-bit signed arithmetic wraps around. -/
def wrap32 (value : Int) : Int := (BitVec.ofInt 32 value).toInt

def readAndCheckSeqSize (minSize : Nat) : Reader δ Nat := do
  let sz ← readSize
  if sz = 0 then pure 0
  else do
    let stream ← get
    record (.sequenceSize sz minSize stream.pos stream.startSeq stream.minSeqSize)
    let needed := wrap32 ((sz : Int) * minSize)
    let (startSeq, minSeqSize) :=
      if stream.startSeq = -1 ∨ stream.startSeq + stream.minSeqSize < stream.pos then
        (wrap32 stream.pos, needed)
      else
        (stream.startSeq, wrap32 (stream.minSeqSize + needed))
    modify fun stream => { stream with startSeq := startSeq, minSeqSize := minSeqSize }
    if wrap32 stream.buf.length < wrap32 (startSeq + minSeqSize) then
      throwIce .unmarshalOutOfBounds
    else
      pure sz

/-- `readEnum`. -/
def readEnum (encoding : Encoding) (maxValue : Nat) : Reader δ Int :=
  match encoding with
  | .v10 =>
      if maxValue < 127 then do
        let value ← readByte
        pure value.toNat
      else if maxValue < 32767 then do
        let value ← readWord 16
        pure value.toInt
      else readInt
  | .v11 => do
      let value ← readSize
      pure value

/-- `StreamHelper<T, StreamHelperCategoryEnum>::read`. -/
def checkEnum (range : EnumRange) (value : Int) :
    Reader δ { value : Nat // range.minValue ≤ value ∧ value ≤ range.maxValue } :=
  if inside : range.minValue ≤ value.toNat ∧ value.toNat ≤ range.maxValue ∧ 0 ≤ value then
    pure ⟨value.toNat, inside.1, inside.2.1⟩
  else
    throwIce (.marshal "enumerator out of range")

def readVersion : Reader δ Version := do
  let major ← readByte
  let minor ← readByte
  pure ⟨major, minor⟩

/-- `checkSupportedEncoding`. -/
def supportedEncoding (version : Version) : Reader δ Encoding :=
  if version.major = 1 ∧ version.minor = 0 then pure .v10
  else if version.major = 1 ∧ version.minor = 1 then pure .v11
  else throwIce .unsupportedEncoding

/-- How class references are read: `read` stores the reference where the caller wants it,
`skip` is `read(0, 0)`, and `fresh` is the decoder of a nested encapsulation. -/
structure RefReader (δ ρ : Type) where
  read : Reader δ ρ
  skip : Reader δ Unit
  fresh : δ

/-- `skipOpt`. -/
def skipOpt (skipRef : Reader δ Unit) : OptionalFormat → Reader δ Unit
  | .f1 => skip 1
  | .f2 => skip 2
  | .f4 => skip 4
  | .f8 => skip 8
  | .size => skipSize
  | .vSize => do
      let size ← readSize
      skip size
  | .fSize => do
      let size ← readInt
      record (.skippedSize size)
      skip size
  | .cls => skipRef

/-- `Int tag = static_cast<Int>(v >> 3)`, or the size that follows when that is 30. -/
def optionalTag (byte : Byte) : Reader δ Nat :=
  if byte >>> 3 = 30 then readSize else pure (byte >>> 3).toNat

def skipTag (byte : Byte) : Reader δ Unit :=
  if byte >>> 3 = 30 then skipSize else pure ()

/-- `i -= count`. -/
def rewind (count : Nat) : Reader δ Unit :=
  modify fun stream => { stream with pos := stream.pos - count }

/-- `skipOpts`; `fuel` bounds the iterations of `while(true)`. -/
def skipOpts (skipRef : Reader δ Unit) : Nat → Reader δ Unit
  | 0 => throw .fuel
  | fuel + 1 => do
      let stream ← get
      if stream.encapsEnd ≤ stream.pos then
        pure ()
      else do
        let byte ← readByte
        if byte = 0xFF then
          pure ()
        else do
          skipTag byte
          skipOpt skipRef (OptionalFormat.ofByte byte)
          skipOpts skipRef fuel

/-- `readOptImpl`, encoding 1.1; `fuel` bounds the iterations of `while(true)`. -/
def readOptImpl (skipRef : Reader δ Unit) (readTag : Nat) (expectedFormat : OptionalFormat) :
    Nat → Reader δ Bool
  | 0 => throw .fuel
  | fuel + 1 => do
      let stream ← get
      if stream.encapsEnd ≤ stream.pos then
        pure false
      else do
        let byte ← readByte
        if byte = 0xFF then do
          rewind 1
          pure false
        else do
          let tag ← optionalTag byte
          if readTag < tag then do
            rewind (if tag < 30 then 1 else if tag < 255 then 2 else 6)
            pure false
          else if tag < readTag then do
            skipOpt skipRef (OptionalFormat.ofByte byte)
            readOptImpl skipRef readTag expectedFormat fuel
          else if OptionalFormat.ofByte byte ≠ expectedFormat then
            throwIce (.marshal ("invalid optional data member `" ++ toString tag ++
              "': unexpected format"))
          else
            pure true

/-- `endReadEncaps` up to the position: encoding 1.0 tolerates one extra byte. -/
def checkEncapsEnd (skipRef : Reader δ Unit) (encoding : Encoding) (fuel : Nat) :
    Reader δ Unit := do
  match encoding with
  | .v11 => do
      skipOpts skipRef fuel
      let stream ← get
      if stream.pos = stream.encapsEnd then pure () else throwIce .encapsulation
  | .v10 => do
      let stream ← get
      if stream.pos = stream.encapsEnd then pure ()
      else if stream.pos + 1 = stream.encapsEnd then modify (ReadStream.advance 1)
      else throwIce .encapsulation

/-- `startReadEncaps`, `body`, `endReadEncaps`. The nested encapsulation has a decoder of
its own, and the enclosing one is current again afterwards. -/
def withEncaps (fresh : δ) (skipRef : Reader δ Unit) (body : Encoding → Nat → Reader δ α) :
    Reader δ α := do
  let outer ← get
  let sz ← readInt
  if sz < 6 then throwIce .unmarshalOutOfBounds
  else if (outer.buf.length : Int) < outer.pos + sz then throwIce .unmarshalOutOfBounds
  else do
    modify fun stream => { stream with encapsEnd := outer.pos + sz.toNat, decoder := fresh }
    let version ← readVersion
    let encoding ← supportedEncoding version
    let value ← body encoding sz.toNat
    checkEncapsEnd skipRef encoding (outer.buf.length + 1)
    modify fun stream => { stream with encapsEnd := outer.encapsEnd, decoder := outer.decoder }
    pure value

/-- `EndpointFactoryManager::read` and the endpoint constructors. -/
def readEndpoint (fresh : δ) (skipRef : Reader δ Unit) : Reader δ Endpoint := do
  let type ← readWord 16
  if tcp : type = tcpEndpointType then
    withEncaps fresh skipRef fun _ _ => do
      let host ← readString
      let port ← readWord 32
      let timeout ← readWord 32
      let compress ← readBool
      pure (.tcp host port timeout compress)
  else if udp : type = udpEndpointType then
    withEncaps fresh skipRef fun encoding _ => do
      let host ← readString
      let port ← readWord 32
      match encoding with
      | .v10 => do
          let _ ← readVersion
          let _ ← readVersion
          pure ()
      | .v11 => pure ()
      let compress ← readBool
      pure (.udp host port compress)
  else
    withEncaps fresh skipRef fun encoding sz => do
      let rawBytes ← readBlob (sz - 6)
      pure (.raw type ⟨tcp, udp⟩ encoding rawBytes)

def modeOfByte (value : Byte) : Reader δ ProxyMode :=
  if value = 0 then pure .twoway
  else if value = 1 then pure .oneway
  else if value = 2 then pure .batchOneway
  else if value = 3 then pure .datagram
  else if value = 4 then pure .batchDatagram
  else throwIce .proxyUnmarshal

def readFacet : Reader δ Str := do
  let size ← readAndCheckSeqSize 1
  let path ← repeatRun size readString
  match path with
  | [] => pure []
  | [facet] => pure facet
  | _ => throwIce .proxyUnmarshal

def readTarget (fresh : δ) (skipRef : Reader δ Unit) :
    Reader δ { target : List Endpoint × Str // target.1 ≠ [] → target.2 = [] } := do
  let size ← readSize
  if 0 < size then do
    let endpoints ← repeatRun size (readEndpoint fresh skipRef)
    pure ⟨(endpoints, []), fun _ => rfl⟩
  else do
    let adapterId ← readString
    pure ⟨([], adapterId), fun nonempty => absurd rfl nonempty⟩

def readVersions (encoding : Encoding) : Reader δ (Version × Version) :=
  match encoding with
  | .v10 => pure (⟨1, 0⟩, ⟨1, 0⟩)
  | .v11 => do
      let protocol ← readVersion
      let target ← readVersion
      pure (protocol, target)

/-- `ProxyFactory::streamToProxy` and `ReferenceFactory::create(ident, stream)`. -/
def readProxy (encoding : Encoding) (fresh : δ) (skipRef : Reader δ Unit) : Reader δ Proxy := do
  let name ← readString
  let category ← readString
  if nil : name = [] ∧ category = [] then
    pure none
  else do
    let facet ← readFacet
    let modeAsByte ← readByte
    let mode ← modeOfByte modeAsByte
    let secure ← readBool
    let versions ← readVersions encoding
    let target ← readTarget fresh skipRef
    pure (some
      { name := name
        category := category
        facet := facet
        mode := mode
        secure := secure
        protocol := versions.1
        encoding := versions.2
        endpoints := target.val.1
        adapterId := target.val.2
        identified := nil
        direct := target.property })

def bulkElement (ρ : Type) : (type : WireType) → Option (Reader δ (Value ρ type))
  | .bool => some (do
      let bytes ← readUnchecked 1
      pure (decodeLE bytes != 0 : Bool))
  | .byte => some (do
      let bytes ← readUnchecked 1
      pure (UInt8.ofNat (decodeLE bytes) : Byte))
  | .short => some (do
      let bytes ← readUnchecked 2
      pure (BitVec.ofNat 16 (decodeLE bytes)))
  | .int => some (do
      let bytes ← readUnchecked 4
      pure (BitVec.ofNat 32 (decodeLE bytes)))
  | .long => some (do
      let bytes ← readUnchecked 8
      pure (BitVec.ofNat 64 (decodeLE bytes)))
  | .float => some (do
      let bytes ← readUnchecked 4
      pure (BitVec.ofNat 32 (decodeLE bytes)))
  | .double => some (do
      let bytes ← readUnchecked 8
      pure (BitVec.ofNat 64 (decodeLE bytes)))
  | _ => none

/-- `StreamHelper<T>::read`. -/
def read {ρ : Type} (encoding : Encoding) (refs : RefReader δ ρ) :
    (type : WireType) → Reader δ (Value ρ type)
  | .bool => (readBool : Reader δ Bool)
  | .byte => (readByte : Reader δ Byte)
  | .short => (readWord 16 : Reader δ (BitVec 16))
  | .int => (readWord 32 : Reader δ (BitVec 32))
  | .long => (readWord 64 : Reader δ (BitVec 64))
  | .float => (readWord 32 : Reader δ (BitVec 32))
  | .double => (readWord 64 : Reader δ (BitVec 64))
  | .string => (readString : Reader δ Str)
  | .enum range => (do
      let value ← readEnum encoding range.maxValue
      checkEnum range value :
        Reader δ { value : Nat // range.minValue ≤ value ∧ value ≤ range.maxValue })
  | .sequence element => (do
      let size ← readAndCheckSeqSize element.minWireSize
      repeatRun size ((bulkElement ρ element).getD (read encoding refs element)) :
        Reader δ (List (Value ρ element)))
  | .dictionary key value => (do
      let size ← readSize
      repeatRun size (do
        let entryKey ← read encoding refs key
        let entryValue ← read encoding refs value
        pure (entryKey, entryValue)) : Reader δ (List (Value ρ key × Value ρ value)))
  | .struct last => read encoding refs last
  | .structCons first rest => (do
      let member ← read encoding refs first
      let members ← read encoding refs rest
      pure (member, members) : Reader δ (Value ρ first × Value ρ rest))
  | .proxy => (readProxy encoding refs.fresh refs.skip : Reader δ Proxy)
  | .cls => refs.read

/-- `StreamOptionalHelper<T>::read`. -/
def readOptional {ρ : Type} (refs : RefReader δ ρ) (type : WireType) : Reader δ (Value ρ type) :=
  match optionalHelper type with
  | .plain => read .v11 refs type
  | .fixedStruct | .fixedContainer _ => do
      skipSize
      read .v11 refs type
  | .variable => do
      skip 4
      read .v11 refs type

/-- `read(tag, optional)`, once the decoder has let the call through to `readOptImpl`. -/
def readTagged {ρ : Type} (refs : RefReader δ ρ) (fuel tag : Nat) (type : WireType) :
    Reader δ (Option (Value ρ type)) := do
  let present ← readOptImpl refs.skip tag (optionalFormat type) fuel
  if present then do
    let value ← readOptional refs type
    pure (some value)
  else
    pure none

def readMembers {ρ : Type} (encoding : Encoding) (refs : RefReader δ ρ) :
    (types : List WireType) → Reader δ (Members ρ types)
  | [] => (pure () : Reader δ Unit)
  | type :: types => (do
      let member ← read encoding refs type
      let members ← readMembers encoding refs types
      pure (member, members) : Reader δ (Value ρ type × Members ρ types))

def readKnown {ρ : Type} (knows : Nat → Bool) (readOne : (tag : Nat) → (type : WireType) →
    Reader δ (Option (Value ρ type))) (tag : Nat) (type : WireType) :
    Reader δ (Option (Value ρ type)) :=
  if knows tag then readOne tag type else pure none

def readOptionals {ρ : Type} (knows : Nat → Bool) (readOne : (tag : Nat) → (type : WireType) →
    Reader δ (Option (Value ρ type))) : (defs : List (Nat × WireType)) → Reader δ (Optionals ρ defs)
  | [] => (pure () : Reader δ Unit)
  | (tag, type) :: rest => (do
      let member ← readKnown knows readOne tag type
      let members ← readOptionals knows readOne rest
      pure (member, members) : Reader δ (Option (Value ρ type) × Optionals ρ rest))

/-- Required members followed by the optional ones that the receiver knows. -/
def readBody {ρ : Type} (refs : RefReader δ ρ) (readOne : (tag : Nat) → (type : WireType) →
    Reader δ (Option (Value ρ type))) (knows : Nat → Bool) (types : List WireType)
    (defs : List (Nat × WireType)) : Reader δ (Members ρ types × Optionals ρ defs) := do
  let members ← readMembers .v11 refs types
  let optionals ← readOptionals knows readOne defs
  pure (members, optionals)

end IceTouch.InStream

import IceTouch.WireTypes

/-!
# The writing side of `BasicStream`

A stream is its byte container `b` and whatever encoder the current write encapsulation
carries. Every writer appends; sizes that are not known in advance are reserved with zero
bytes and rewritten in place.

Sizes are natural numbers here and 32-bit words on the wire. Streams longer than
`0x7fffffff` bytes are refused by `resize` and by `checkSendSize`, so statements about what
is read back ask for a shorter stream.
-/

namespace IceTouch.OutStream

open Bytes WireTypes

structure BasicStream (σ : Type) where
  b : List Byte
  encoder : σ

variable {σ ρ : Type}

/-- The four bytes of an `Ice::Int`. -/
def intBytes (value : Int) : List Byte := encodeLE 4 (value % 2 ^ 32).toNat

@[simp] theorem int_bytes_length (value : Int) : (intBytes value).length = 4 := by
  simp [intBytes]

namespace BasicStream

def writeByte (value : Byte) (stream : BasicStream σ) : BasicStream σ :=
  { stream with b := stream.b ++ [value] }

def writeBlob (bytes : List Byte) (stream : BasicStream σ) : BasicStream σ :=
  { stream with b := stream.b ++ bytes }

def writeInt (value : Int) (stream : BasicStream σ) : BasicStream σ :=
  stream.writeBlob (intBytes value)

/-- `rewrite` and `write(Int, dest)`: the four bytes at `position` are overwritten. -/
def rewrite (value : Int) (position : Nat) (stream : BasicStream σ) : BasicStream σ :=
  { stream with b := rewriteAt stream.b position (intBytes value) }

def pos (stream : BasicStream σ) : Nat := stream.b.length

def writeSize (value : Nat) (stream : BasicStream σ) : BasicStream σ :=
  if 254 < value then
    (stream.writeByte 255).writeInt value
  else
    stream.writeByte (UInt8.ofNat value)

def writeBool (value : Bool) (stream : BasicStream σ) : BasicStream σ :=
  stream.writeByte (if value then 1 else 0)

/-- `write(Short)`, `write(Long)`, `write(Float)` and `write(Double)` copy the bytes of
their argument, least significant first. -/
def writeWord {width : Nat} (value : BitVec width) (stream : BasicStream σ) : BasicStream σ :=
  stream.writeBlob (encodeLE (width / 8) value.toNat)

/-- `write(const std::string&, convert)` without a string converter. -/
def writeString (value : Str) (stream : BasicStream σ) : BasicStream σ :=
  (stream.writeSize value.length).writeBlob value

/-- `writeEnum`. -/
def writeEnum (encoding : Encoding) (value maxValue : Nat) (stream : BasicStream σ) :
    BasicStream σ :=
  match encoding with
  | .v10 =>
      if maxValue < 127 then
        stream.writeByte (UInt8.ofNat value)
      else if maxValue < 32767 then
        stream.writeWord (BitVec.ofNat 16 value)
      else
        stream.writeInt value
  | .v11 => stream.writeSize value

def writeVersion (version : Version) (stream : BasicStream σ) : BasicStream σ :=
  (stream.writeByte version.major).writeByte version.minor

/-- `startWriteEncaps` and `endWriteEncaps` around `content`: the size, which counts itself
and the version, is reserved and rewritten. -/
def writeEncaps (version : Version) (content : BasicStream σ → BasicStream σ)
    (stream : BasicStream σ) : BasicStream σ :=
  let start := stream.pos
  let written := content ((stream.writeInt 0).writeVersion version)
  written.rewrite (written.pos - start : Nat) start

def writeAll {α : Type} (write : α → BasicStream σ → BasicStream σ) :
    List α → BasicStream σ → BasicStream σ
  | [], stream => stream
  | item :: rest, stream => writeAll write rest (write item stream)

/-- `EndpointI::streamWrite` of the endpoint classes. -/
def writeEndpoint (encoding : Encoding) : Endpoint → BasicStream σ → BasicStream σ
  | .tcp host port timeout compress, stream =>
      (stream.writeWord tcpEndpointType).writeEncaps encoding.version fun inner =>
        (((inner.writeString host).writeWord port).writeWord timeout).writeBool compress
  | .udp host port compress, stream =>
      (stream.writeWord udpEndpointType).writeEncaps encoding.version fun inner =>
        let inner := (inner.writeString host).writeWord port
        let inner := match encoding with
          | .v10 => (inner.writeVersion ⟨1, 0⟩).writeVersion ⟨1, 0⟩
          | .v11 => inner
        inner.writeBool compress
  | .raw type _ rawEncoding rawBytes, stream =>
      (stream.writeWord type).writeEncaps rawEncoding.version fun inner =>
        inner.writeBlob rawBytes

def modeByte : ProxyMode → Byte
  | .twoway => 0
  | .oneway => 1
  | .batchOneway => 2
  | .datagram => 3
  | .batchDatagram => 4

/-- `Reference::streamWrite` and `RoutableReference::streamWrite`. -/
def writeReference (encoding : Encoding) (reference : Reference) (stream : BasicStream σ) :
    BasicStream σ :=
  let stream :=
    -- For compatibility with the old FacetPath.
    if reference.facet = [] then
      stream.writeSize 0
    else
      (stream.writeSize 1).writeString reference.facet
  let stream := (stream.writeByte (modeByte reference.mode)).writeBool reference.secure
  let stream := match encoding with
    | .v10 => stream
    | .v11 => (stream.writeVersion reference.protocol).writeVersion reference.encoding
  let stream := stream.writeSize reference.endpoints.length
  if reference.endpoints = [] then
    stream.writeString reference.adapterId
  else
    writeAll (writeEndpoint encoding) reference.endpoints stream

/-- `ProxyFactory::proxyToStream`. -/
def writeProxy (encoding : Encoding) : Proxy → BasicStream σ → BasicStream σ
  | some reference, stream =>
      ((stream.writeString reference.name).writeString reference.category).writeReference
        encoding reference
  | none, stream => (stream.writeString []).writeString []

end BasicStream

end IceTouch.OutStream

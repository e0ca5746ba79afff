import IceTouch.Library.Bytes

/-!
# Slice types and their values

The types a Slice definition can build from the built-in types, enumerations, sequences,
dictionaries, structs, proxies and classes, with the values the stream writers receive for
them. A struct is given by its first member and the rest of its members, so it has at least
one; the last member closes it. A value mentions a class instance only through a reference
of type `ρ`: the sender's reference is a nil or an address, the receiver's the memory cell
that is patched once the instance has arrived.

Floating-point values are their bit patterns, which is all the stream copies. A string is
the byte string that is marshalled when no string converter is installed.
-/

namespace IceTouch.WireTypes

open Bytes

/-- Encoding versions the runtime supports. -/
inductive Encoding where
  | v10
  | v11
deriving DecidableEq, Repr

abbrev Str := List Byte

/-- The enumerators of a Slice enumeration lie in `0 .. 2^31 - 1`. -/
structure EnumRange where
  minValue : Nat
  maxValue : Nat
  ordered : minValue ≤ maxValue
  bounded : maxValue < 2 ^ 31
deriving DecidableEq, Repr

inductive WireType where
  | bool
  | byte
  | short
  | int
  | long
  | float
  | double
  | string
  | enum (range : EnumRange)
  | sequence (element : WireType)
  | dictionary (key value : WireType)
  | struct (last : WireType)
  | structCons (first rest : WireType)
  | proxy
  | cls
deriving DecidableEq, Repr

/-- `Slice::Type::minWireSize`. The generated `StreamableTraits<T>::minWireSize` and the
hand-written traits of the built-in types carry the same numbers. -/
def WireType.minWireSize : WireType → Nat
  | .bool | .byte => 1
  | .short => 2
  | .int | .float => 4
  | .long | .double => 8
  | .string => 1
  | .enum _ => 1
  | .sequence _ => 1
  | .dictionary _ _ => 1
  | .struct last => last.minWireSize
  | .structCons first rest => first.minWireSize + rest.minWireSize
  | .proxy => 2
  | .cls => 1

/-- `Slice::Type::isVariableLength`. -/
def WireType.isVariableLength : WireType → Bool
  | .bool | .byte | .short | .int | .long | .float | .double => false
  | .string | .enum _ | .sequence _ | .dictionary _ _ | .proxy | .cls => true
  | .struct last => last.isVariableLength
  | .structCons first rest => first.isVariableLength || rest.isVariableLength

def WireType.fixedLength (type : WireType) : Bool := !type.isVariableLength

theorem min_wire_size_pos (type : WireType) : 0 < type.minWireSize := by
  induction type with
  | structCons first rest firstPos restPos =>
      simp only [WireType.minWireSize]
      omega
  | struct last ih => simpa [WireType.minWireSize] using ih
  | _ => simp [WireType.minWireSize]

/-- `Ice::ProtocolVersion` and `Ice::EncodingVersion`. -/
structure Version where
  major : Byte
  minor : Byte
deriving DecidableEq, Repr

def Encoding.version : Encoding → Version
  | .v10 => ⟨1, 0⟩
  | .v11 => ⟨1, 1⟩

/-- `Reference::Mode`. -/
inductive ProxyMode where
  | twoway
  | oneway
  | batchOneway
  | datagram
  | batchDatagram
deriving DecidableEq, Repr

/-- `TCPEndpointType` and `UDPEndpointType`, the types with a registered factory. -/
def tcpEndpointType : BitVec 16 := 1

def udpEndpointType : BitVec 16 := 3

/-- The endpoints a reference can be marshalled with. An opaque endpoint is one whose type
has no factory; it keeps the encapsulation it was read from, whose encoding was checked
when it was read. -/
inductive Endpoint where
  | tcp (host : Str) (port timeout : BitVec 32) (compress : Bool)
  | udp (host : Str) (port : BitVec 32) (compress : Bool)
  | raw (type : BitVec 16) (foreign : type ≠ tcpEndpointType ∧ type ≠ udpEndpointType)
      (rawEncoding : Encoding) (rawBytes : List Byte)
deriving DecidableEq

/-- A routable reference: the marshalled part of a proxy. A reference without a name and
a category would be read back as nil, and endpoints exclude an adapter id. -/
structure Reference where
  name : Str
  category : Str
  facet : Str
  mode : ProxyMode
  secure : Bool
  protocol : Version
  encoding : Version
  endpoints : List Endpoint
  adapterId : Str
  identified : ¬(name = [] ∧ category = [])
  direct : endpoints ≠ [] → adapterId = []
deriving DecidableEq

/-- A proxy is nil or a reference. -/
abbrev Proxy := Option Reference

/-- What a stream of encoding `encoding` carries of a proxy. Encoding 1.0 has no room for
the protocol and encoding of the target, and the reader fills in 1.0. -/
def Reference.carriedBy (encoding : Encoding) (reference : Reference) : Reference :=
  match encoding with
  | .v10 => { reference with protocol := ⟨1, 0⟩, encoding := ⟨1, 0⟩ }
  | .v11 => reference

/-- The values of a type, with class references of type `ρ`. -/
def Value (ρ : Type) : WireType → Type
  | .bool => Bool
  | .byte => Byte
  | .short => BitVec 16
  | .int => BitVec 32
  | .long => BitVec 64
  | .float => BitVec 32
  | .double => BitVec 64
  | .string => Str
  | .enum range => { value : Nat // range.minValue ≤ value ∧ value ≤ range.maxValue }
  | .sequence element => List (Value ρ element)
  | .dictionary key value => List (Value ρ key × Value ρ value)
  | .struct last => Value ρ last
  | .structCons first rest => Value ρ first × Value ρ rest
  | .proxy => Proxy
  | .cls => ρ

/-- Two values agree up to their class references, which are related by `related`, and up
to what encoding `encoding` carries of a proxy. The left one is what was written. -/
def Value.Rel (encoding : Encoding) {ρ τ : Type} (related : ρ → τ → Prop) :
    (type : WireType) → Value ρ type → Value τ type → Prop
  | .bool => fun (sent received : Bool) => received = sent
  | .byte => fun (sent received : Byte) => received = sent
  | .short => fun (sent received : BitVec 16) => received = sent
  | .int => fun (sent received : BitVec 32) => received = sent
  | .long => fun (sent received : BitVec 64) => received = sent
  | .float => fun (sent received : BitVec 32) => received = sent
  | .double => fun (sent received : BitVec 64) => received = sent
  | .string => fun (sent received : Str) => received = sent
  | .enum range =>
      fun (sent received : { value : Nat // range.minValue ≤ value ∧ value ≤ range.maxValue }) =>
        received = sent
  | .sequence element =>
      fun (sent : List (Value ρ element)) (received : List (Value τ element)) =>
        List.Forall₂ (Value.Rel encoding related element) sent received
  | .dictionary key value =>
      fun (sent : List (Value ρ key × Value ρ value)) (received : List (Value τ key × Value τ value)) =>
        List.Forall₂ (fun (left : Value ρ key × Value ρ value) (right : Value τ key × Value τ value) =>
          Value.Rel encoding related key left.1 right.1 ∧
            Value.Rel encoding related value left.2 right.2) sent received
  | .struct last => Value.Rel encoding related last
  | .structCons first rest =>
      fun (sent : Value ρ first × Value ρ rest) (received : Value τ first × Value τ rest) =>
        Value.Rel encoding related first sent.1 received.1 ∧
          Value.Rel encoding related rest sent.2 received.2
  | .proxy => fun (sent received : Proxy) => received = sent.map (Reference.carriedBy encoding)
  | .cls => related

/-- Required members of a slice of a class, an exception or the parameters of an operation,
in the order of their declaration; optional members come by ascending tag. -/
def Members (ρ : Type) : List WireType → Type
  | [] => Unit
  | type :: types => Value ρ type × Members ρ types

def Members.Rel (encoding : Encoding) {ρ τ : Type} (related : ρ → τ → Prop) :
    (types : List WireType) → Members ρ types → Members τ types → Prop
  | [] => fun _ _ => True
  | type :: types => fun (sent : Value ρ type × Members ρ types)
      (received : Value τ type × Members τ types) =>
        Value.Rel encoding related type sent.1 received.1 ∧
          Members.Rel encoding related types sent.2 received.2

def Optionals (ρ : Type) : List (Nat × WireType) → Type
  | [] => Unit
  | (_, type) :: rest => Option (Value ρ type) × Optionals ρ rest

def Optionals.Rel (encoding : Encoding) {ρ τ : Type} (related : ρ → τ → Prop) :
    (defs : List (Nat × WireType)) → Optionals ρ defs → Optionals τ defs → Prop
  | [] => fun _ _ => True
  | (_, type) :: rest => fun (sent : Option (Value ρ type) × Optionals ρ rest)
      (received : Option (Value τ type) × Optionals τ rest) =>
        Option.Rel (Value.Rel encoding related type) sent.1 received.1 ∧
          Optionals.Rel encoding related rest sent.2 received.2

end IceTouch.WireTypes

import IceTouch.WireTypes
import Mathlib.Algebra.GroupWithZero.Nat

/-!
# The types of the Slice parser

The types as `Slice::Parser` builds them, with the static sizes that the compilers print into
the generated code, and the traits that the C++ run time gives to the mapped types. The
compiler and the run time are two programs: `minWireSize` and `isVariableLength` belong to
the first, `StreamableTraits` to the second.
-/

namespace IceTouch.Slice

open WireTypes

namespace Builtin

/-- `Builtin::Kind`, without `KindLocalObject`, which has no encoding. -/
inductive Kind where
  | byte
  | bool
  | short
  | int
  | long
  | float
  | double
  | string
  | object
  | objectProxy
deriving DecidableEq, Repr

/-- `minWireSizeTable`. -/
def Kind.minWireSize : Kind → Nat
  | .byte => 1
  | .bool => 1
  | .short => 2
  | .int => 4
  | .long => 8
  | .float => 4
  | .double => 8
  | .string => 1
  | .object => 1
  | .objectProxy => 2

def Kind.isVariableLength (kind : Kind) : Bool :=
  kind == .string || kind == .object || kind == .objectProxy

end Builtin

/-- `Slice::Type`. A struct has a first member. -/
inductive SliceType where
  | builtin (kind : Builtin.Kind)
  | classDecl
  | proxy
  | struct (member : SliceType) (dataMembers : List SliceType)
  | sequence (type : SliceType)
  | dictionary (keyType valueType : SliceType)
  | enum (range : EnumRange)

namespace SliceType

mutual

/-- `Type::minWireSize`. -/
def minWireSize : SliceType → Nat
  | .builtin kind => kind.minWireSize
  -- An instance marshaled as an index.
  | .classDecl => 1
  -- A nil proxy: empty name and empty category strings.
  | .proxy => 2
  | .struct member dataMembers => member.minWireSize + sumOfMinWireSizes dataMembers
  | .sequence _ => 1
  | .dictionary _ _ => 1
  | .enum _ => 1

/-- The loop of `Struct::minWireSize`. -/
def sumOfMinWireSizes : List SliceType → Nat
  | [] => 0
  | type :: rest => type.minWireSize + sumOfMinWireSizes rest

end

mutual

/-- `Type::isVariableLength`. -/
def isVariableLength : SliceType → Bool
  | .builtin kind => kind.isVariableLength
  | .classDecl => true
  | .proxy => true
  | .struct member dataMembers => member.isVariableLength || anyVariableLength dataMembers
  | .sequence _ => true
  | .dictionary _ _ => true
  | .enum _ => true

/-- The loop of `Struct::isVariableLength`. -/
def anyVariableLength : List SliceType → Bool
  | [] => false
  | type :: rest => type.isVariableLength || anyVariableLength rest

end

end SliceType

/-- The type whose values the generated code marshals for a built-in type. -/
def Builtin.Kind.wire : Builtin.Kind → WireType
  | .byte => .byte
  | .bool => .bool
  | .short => .short
  | .int => .int
  | .long => .long
  | .float => .float
  | .double => .double
  | .string => .string
  | .object => .cls
  | .objectProxy => .proxy

/-- The members of a struct, in the order in which the generated `StreamWriter` writes them. -/
def chain : WireType → List WireType → WireType
  | first, [] => .struct first
  | first, next :: rest => .structCons first (chain next rest)

mutual

/-- The type whose values the generated code marshals. -/
def SliceType.wire : SliceType → WireType
  | .builtin kind => kind.wire
  | .classDecl => .cls
  | .proxy => .proxy
  | .struct member dataMembers => chain member.wire (SliceType.wires dataMembers)
  | .sequence type => .sequence type.wire
  | .dictionary keyType valueType => .dictionary keyType.wire valueType.wire
  | .enum range => .enum range

def SliceType.wires : List SliceType → List WireType
  | [] => []
  | type :: rest => type.wire :: SliceType.wires rest

end

/-- `StreamableTraits<T>`: the constants that the stream helpers are instantiated with. -/
structure StreamableTraits where
  minWireSize : Nat
  fixedLength : Bool
deriving DecidableEq, Repr

/-- The traits of the mapped type. Those of the built-in types, of proxy and class handles and
the base template, which sequences and dictionaries use, are written by hand; for structs and
enumerations `slice2cpp` prints what the parser computes. -/
def SliceType.traits : SliceType → StreamableTraits
  | .builtin .byte => ⟨1, true⟩
  | .builtin .bool => ⟨1, true⟩
  | .builtin .short => ⟨2, true⟩
  | .builtin .int => ⟨4, true⟩
  | .builtin .long => ⟨8, true⟩
  | .builtin .float => ⟨4, true⟩
  | .builtin .double => ⟨8, true⟩
  | .builtin .string => ⟨1, false⟩
  | .builtin .object => ⟨1, false⟩
  | .builtin .objectProxy => ⟨2, false⟩
  | .classDecl => ⟨1, false⟩
  | .proxy => ⟨2, false⟩
  | .struct member dataMembers =>
      ⟨(SliceType.struct member dataMembers).minWireSize,
        !(SliceType.struct member dataMembers).isVariableLength⟩
  | .sequence _ => ⟨1, false⟩
  | .dictionary _ _ => ⟨1, false⟩
  | .enum range => ⟨(SliceType.enum range).minWireSize, false⟩

theorem traits_agree (type : SliceType) :
    type.traits = ⟨type.minWireSize, !type.isVariableLength⟩ := by
  cases type with
  | builtin kind => cases kind <;> simp [SliceType.traits, SliceType.minWireSize,
      SliceType.isVariableLength, Builtin.Kind.minWireSize, Builtin.Kind.isVariableLength]
  | struct member dataMembers => rfl
  | _ => simp [SliceType.traits, SliceType.minWireSize, SliceType.isVariableLength]

theorem chain_min_wire_size (first : WireType) (rest : List WireType) :
    (chain first rest).minWireSize = first.minWireSize + (rest.map WireType.minWireSize).sum := by
  induction rest generalizing first with
  | nil => simp [chain, WireType.minWireSize]
  | cons next rest ih => rw [chain, WireType.minWireSize, ih, List.map_cons, List.sum_cons]

theorem chain_is_variable_length (first : WireType) (rest : List WireType) :
    (chain first rest).isVariableLength =
      (first.isVariableLength || rest.any WireType.isVariableLength) := by
  induction rest generalizing first with
  | nil => simp [chain, WireType.isVariableLength]
  | cons next rest ih => rw [chain, WireType.isVariableLength, ih, List.any_cons]

mutual

theorem wire_min_wire_size : (type : SliceType) → type.wire.minWireSize = type.minWireSize
  | .builtin kind => by cases kind <;> rfl
  | .classDecl => rfl
  | .proxy => rfl
  | .struct member dataMembers => by
      rw [SliceType.wire, chain_min_wire_size, wire_min_wire_size member,
        wires_min_wire_size dataMembers, SliceType.minWireSize]
  | .sequence _ => rfl
  | .dictionary _ _ => rfl
  | .enum _ => rfl

theorem wires_min_wire_size : (types : List SliceType) →
    ((SliceType.wires types).map WireType.minWireSize).sum = SliceType.sumOfMinWireSizes types
  | [] => rfl
  | type :: rest => by
      rw [SliceType.wires, List.map_cons, List.sum_cons, wire_min_wire_size type,
        wires_min_wire_size rest, SliceType.sumOfMinWireSizes]

end

mutual

theorem wire_is_variable_length : (type : SliceType) →
    type.wire.isVariableLength = type.isVariableLength
  | .builtin kind => by cases kind <;> rfl
  | .classDecl => rfl
  | .proxy => rfl
  | .struct member dataMembers => by
      rw [SliceType.wire, chain_is_variable_length, wire_is_variable_length member,
        wires_any_variable_length dataMembers, SliceType.isVariableLength]
  | .sequence _ => rfl
  | .dictionary _ _ => rfl
  | .enum _ => rfl

theorem wires_any_variable_length : (types : List SliceType) →
    (SliceType.wires types).any WireType.isVariableLength = SliceType.anyVariableLength types
  | [] => rfl
  | type :: rest => by
      rw [SliceType.wires, List.any_cons, wire_is_variable_length type,
        wires_any_variable_length rest, SliceType.anyVariableLength]

end

end IceTouch.Slice

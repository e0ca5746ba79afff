import IceTouch.StreamHelpers

/-!
# Classes, instances and graphs

A class is the list of its slices, the most derived one first. An instance holds the
members of each slice and the slices that a receiver preserved because it did not know
their type. Instances refer to each other through references, so a graph is a function
from nodes to instances: sharing and cycles need no encoding of their own.
-/

namespace IceTouch.Classes

open Bytes WireTypes StreamHelpers

variable {ν μ ρ τ : Type}

/-- `Object::ice_staticId()`, the type id of the common base class. -/
def iceObjectId : Str := "::Ice::Object".toList.map fun char => UInt8.ofNat char.toNat

structure SliceDef where
  typeId : Str
  compactId : Option Nat
  members : List WireType
  optionals : List (Nat × WireType)
  named : typeId ≠ []
  derived : typeId ≠ iceObjectId
  compactBounded : ∀ id ∈ compactId, id < 2 ^ 31
  tagBounded : ∀ d ∈ optionals, d.1 < 2 ^ 31
  ascending : optionals.Pairwise fun one two => one.1 < two.1
deriving DecidableEq

structure SliceInst (ρ : Type) where
  slice : SliceDef
  members : Members ρ slice.members
  optionals : Optionals ρ slice.optionals

/-- `Ice::SliceInfo`: a slice kept as it was received, with the instances that its bytes
refer to. -/
structure SliceInfo (ν : Type) where
  typeId : Str
  compactId : Option Nat
  bytes : List Byte
  hasOptionalMembers : Bool
  isLastSlice : Bool
  objects : List ν
deriving DecidableEq

/-- The content of an instance: its `SlicedData` and its own slices. -/
structure Obj (ν ρ : Type) where
  preserved : List (SliceInfo ν)
  slices : List (SliceInst ρ)

abbrev Graph (ν : Type) := ν → Obj ν (Option ν)

def taggedMembers : (defs : List (Nat × WireType)) → (∀ d ∈ defs, d.1 < 2 ^ 31) →
    Optionals ρ defs → List (Tagged ρ)
  | [], _, _ => []
  | (tag, type) :: rest, bounded, values =>
      let others := taggedMembers rest (fun d member => bounded d (List.mem_cons_of_mem _ member))
        values.2
      match (values.1 : Option (Value ρ type)) with
      | some value => ⟨tag, bounded (tag, type) List.mem_cons_self, type, value⟩ :: others
      | none => others

def SliceInst.items (inst : SliceInst ρ) : List (Tagged ρ) :=
  taggedMembers inst.slice.optionals inst.slice.tagBounded inst.optionals

end IceTouch.Classes

import Mathlib.Algebra.GroupWithZero.Nat
import IceTouch.Collecting.Heap

/-!
# What the counts say

`__gcReachable` counts the references of an object to objects that are `GCShared`. Once these are
subtracted, the count of an object is the number of its references from outside.
-/

namespace IceTouch.Collecting

open OrderedMap

section references

variable {α : Type}

def Handle.target : Handle α → Option α
  | .slicedData target => target
  | .member target => target

def Body.references : Body α → List α
  | .leaf => []
  | .generated handles => handles.filterMap Handle.target
  | .slicedData slices => slices.flatten
  | .unknownSliced target => target.toList

/-- Those that are referred to as `SlicedData`. -/
def Body.slicedReferences : Body α → List α
  | .leaf => []
  | .generated handles => handles.filterMap fun
      | .slicedData target => target
      | .member _ => none
  | .slicedData _ => []
  | .unknownSliced target => target.toList

def referencesAt (memory : Memory α) (address : α) : List α :=
  match memory address with
  | none => []
  | some object => object.body.references

def isShared (memory : Memory α) (address : α) : Bool :=
  match memory address with
  | none => false
  | some object => object.usesGC

def pointers [DecidableEq α] (memory : Memory α) (objects : List α) (address : α) : Nat :=
  (objects.map fun object => (referencesAt memory object).count address).sum

/-- The objects are in the memory, and so is what they refer to: other ones of them, or leaves. -/
structure Closed (memory : Memory α) (objects : List α) : Prop where
  shared : ∀ address ∈ objects, isShared memory address
  present : ∀ address ∈ objects, ∀ other ∈ referencesAt memory address,
    (memory other).isSome ∧ (isShared memory other → other ∈ objects)
  sliced : ∀ address ∈ objects, ∀ object, memory address = some object →
    ∀ other ∈ object.body.slicedReferences, other ∈ objects

/-- Every reference count is the number of references from the objects and of those from
outside. -/
def Counted [DecidableEq α] (memory : Memory α) (objects : List α) (outside : α → Nat) : Prop :=
  ∀ address object, memory address = some object →
    object.ref = pointers memory objects address + outside address

end references

variable {α : Type} [LinearOrder α]

variable {counts : GCCountMap α} {memory : Memory α}

variable {address : α} {objects : List α}

end IceTouch.Collecting

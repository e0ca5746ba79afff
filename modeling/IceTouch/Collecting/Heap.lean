import IceTouch.Library.OrderedMap
import IceTouch.Library.Search

/-!
# The collector of class instances

`GC::collectGarbage` and what the collected objects do for it. The heap holds the instances of
Slice classes, known by their address. Those whose class may be part of a cycle, `SlicedData` and
`UnknownSlicedObject` are `GCShared`; instances of the other classes are leaves. A class that
slice2cpp generates calls the base class first, then looks at its `__slicedData` and at its data
members, those in structures, sequences and dictionaries one by one.
-/

namespace IceTouch.Collecting

open OrderedMap

inductive Fault where
  | assertion
  /-- An object is used after it was deleted. -/
  | deleted
  /-- The recursion has not ended yet. -/
  | unfinished
deriving DecidableEq, Repr

/-- A smart pointer of a generated class, in the order in which the class looks at them. -/
inductive Handle (α : Type) where
  | slicedData (target : Option α)
  | member (target : Option α)
deriving DecidableEq, Repr

inductive Body (α : Type) where
  /-- An instance of a class without class members. -/
  | leaf
  | generated (handles : List (Handle α))
  /-- The `objects` of each slice. -/
  | slicedData (slices : List (List α))
  | unknownSliced (slicedData : Option α)
deriving DecidableEq, Repr

structure Object (α : Type) where
  ref : Int
  body : Body α
deriving DecidableEq, Repr

/-- `__usesGC`. -/
def Object.usesGC {α : Type} (object : Object α) : Bool :=
  match object.body with
  | .leaf => false
  | _ => true

abbrev Memory (α : Type) := α → Option (Object α)

/-- `gcObjects` in the order of the set. -/
structure Heap (α : Type) where
  memory : Memory α
  gcObjects : List α
  collecting : Bool

/-- `std::map<GCShared*, int>`. -/
abbrev GCCountMap (α : Type) := List (α × Int)

variable {α : Type} [LinearOrder α]

def lookup (memory : Memory α) (address : α) : Except Fault (Object α) :=
  match memory address with
  | none => .error .deleted
  | some object => .ok object

/-- `__addObject` of the objects that are `GCShared`. -/
def addObject (address : α) (counts : GCCountMap α) : GCCountMap α :=
  match find address counts with
  | none => assign address 1 counts
  | some count => assign address (count + 1) counts

/-- The virtual `__addObject`, which does nothing for a leaf. -/
def addMember (memory : Memory α) (counts : GCCountMap α) (address : α) :
    Except Fault (GCCountMap α) := do
  let object ← lookup memory address
  return if object.usesGC then addObject address counts else counts

def addHandle (memory : Memory α) (counts : GCCountMap α) :
    Handle α → Except Fault (GCCountMap α)
  | .slicedData none => .ok counts
  | .slicedData (some address) => .ok (addObject address counts)
  | .member none => .ok counts
  | .member (some address) => addMember memory counts address

/-- `__gcReachable`. -/
def gcReachable (memory : Memory α) (address : α) (counts : GCCountMap α) :
    Except Fault (GCCountMap α) := do
  let object ← lookup memory address
  match object.body with
  | .leaf => return counts
  | .generated handles => handles.foldlM (addHandle memory) counts
  | .slicedData slices =>
      slices.foldlM (fun counts objects => objects.foldlM (addMember memory) counts) counts
  | .unknownSliced slicedData => addHandle memory counts (.slicedData slicedData)

def successors (memory : Memory α) (address : α) : Except Fault (List α) := do
  let counts ← gcReachable memory address []
  return keys counts

def store (memory : Memory α) (address : α) (object : Option (Object α)) : Memory α :=
  Function.update memory address object

/-- The object after `__gcClear`. -/
def Body.cleared : Body α → Body α
  | .leaf => .leaf
  | .generated handles => .generated (handles.map fun
      | .slicedData _ => .slicedData none
      | .member _ => .member none)
  | .slicedData slices => .slicedData (slices.map fun _ => [])
  | .unknownSliced _ => .unknownSliced none

/-- `delete` of an object whose handles have been cleared. -/
def delete (memory : Memory α) (address : α) : Except Fault (Memory α) := do
  let _ ← lookup memory address
  return store memory address none

end IceTouch.Collecting

import IceTouch.Collecting.Clearing
import Mathlib.Data.Nat.Basic

/-!
# What a collection leaves

The objects that are marked as live are those that can be reached from an object with a reference
from outside. The others are cleared, which takes their references from the counts of the live
ones, and deleted.
-/

namespace IceTouch.Collecting

open OrderedMap

variable {α : Type}

variable [LinearOrder α]

/-- A heap whose objects refer to each other and to leaves, with the counts that go with the
references. -/
structure Consistent (heap : Heap α) (outside : α → Nat) : Prop where
  distinct : heap.gcObjects.Nodup
  closed : Closed heap.memory heap.gcObjects
  counted : Counted heap.memory heap.gcObjects outside

variable {memory : Memory α} {objects : List α} {address : α} {outside : α → Nat}

section

variable (closed : Closed memory objects)

include closed

end

variable {heap : Heap α} {counts : GCCountMap α} {garbage : List α}

end IceTouch.Collecting

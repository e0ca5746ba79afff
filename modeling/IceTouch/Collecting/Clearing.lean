import IceTouch.Collecting.Counting
import Mathlib.Algebra.Order.BigOperators.Group.List
import Mathlib.Algebra.Order.Group.Nat

/-!
# Clearing the garbage

While `__gcClear` works on an object, its handles are cleared and the references they were are
still owed a release. Up to these the reference counts stay right, so that no leaf is deleted while
it is still referred to.
-/

namespace IceTouch.Collecting

open OrderedMap

variable {α : Type} [LinearOrder α]

/-- The counts are right when the releases that are owed are counted in. -/
structure Settled (memory : Memory α) (objects : List α) (outside : α → Nat) (owed : List α) :
    Prop where
  counted : ∀ address object, memory address = some object →
    object.ref = pointers memory objects address + owed.count address + outside address
  shared : ∀ address ∈ objects, isShared memory address
  held : ∀ address ∈ objects, ∀ other ∈ referencesAt memory address,
    (memory other).isSome ∧ (isShared memory other → other ∈ objects)
  owing : ∀ other ∈ owed, (memory other).isSome ∧ (isShared memory other → other ∈ objects)

def SameBodies (memory after : Memory α) (objects : List α) : Prop :=
  ∀ address ∈ objects, (after address).map Object.body = (memory address).map Object.body

variable {memory : Memory α}

omit [LinearOrder α] in
theorem SameBodies.trans {middle after : Memory α} {objects : List α}
    (first : SameBodies memory middle objects) (second : SameBodies middle after objects) :
    SameBodies memory after objects :=
  fun address inside => (second address inside).trans (first address inside)

variable {address : α} {owed : List α}

theorem Settled.perm {objects owed' : List α} {outside : α → Nat}
    (settled : Settled memory objects outside owed) (perm : owed.Perm owed') :
    Settled memory objects outside owed' where
  counted address object found := by
    rw [← perm.count_eq address]
    exact settled.counted address object found
  shared := settled.shared
  held := settled.held
  owing other inside := settled.owing other (perm.mem_iff.mpr inside)

variable {objects : List α} {outside : α → Nat}

end IceTouch.Collecting

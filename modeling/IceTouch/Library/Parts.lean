/-!
# Parts of a record

A part of a record is read and written without regard to the rest. Revisions of two
independent parts may be made in either order, also where they may fail.
-/

namespace IceTouch.Parts

variable {σ α β : Type}

structure Part (σ α : Type) where
  get : σ → α
  set : α → σ → σ

namespace Part

def revise (part : Part σ α) (revision : α → Option α) (record : σ) : Option σ :=
  (revision (part.get record)).map fun value => part.set value record

def Carries (part : Part σ α) (change : σ → Option σ) : Prop :=
  ∃ revision, ∀ record, change record = part.revise revision record

structure Independent (part : Part σ α) (other : Part σ β) : Prop where
  get_set : ∀ value record, part.get (other.set value record) = part.get record
  get_set' : ∀ value record, other.get (part.set value record) = other.get record
  set_set : ∀ value value' record,
    part.set value (other.set value' record) = other.set value' (part.set value record)

theorem revise_commute {part : Part σ α} {other : Part σ β} (independent : Independent part other)
    (revision : α → Option α) (revision' : β → Option β) (record : σ) :
    (part.revise revision record).bind (other.revise revision') =
      (other.revise revision' record).bind (part.revise revision) := by
  simp only [revise]
  cases first : revision (part.get record) with
  | none =>
      cases second : revision' (other.get record) with
      | none => rfl
      | some value' => simp [revise, independent.get_set, first]
  | some value =>
      cases second : revision' (other.get record) with
      | none => simp [revise, independent.get_set', second]
      | some value' =>
          simp [revise, independent.get_set, independent.get_set', first, second,
            independent.set_set]

theorem carries_commute {part : Part σ α} {other : Part σ β} {change change' : σ → Option σ}
    (independent : Independent part other) (carries : part.Carries change)
    (carries' : other.Carries change') (record : σ) :
    (change record).bind change' = (change' record).bind change := by
  obtain ⟨revision, here⟩ := carries
  obtain ⟨revision', there⟩ := carries'
  have one : change = part.revise revision := funext here
  have two : change' = other.revise revision' := funext there
  rw [one, two]
  exact revise_commute independent revision revision' record

end Part

end IceTouch.Parts

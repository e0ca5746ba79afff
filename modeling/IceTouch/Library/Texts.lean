import IceTouch.Library.Scanning

/-!
# Unambiguous texts

A writer is unambiguous before some continuations when the text of a value with such a
continuation tells both. Writers that are put one after the other, or that write one of two
things or a list, are unambiguous when the parts are and each part may stand before what
follows it.
-/

namespace IceTouch.Texts

open Scanning

variable {α β χ : Type}

/-- The text of a value, followed by something in `follow`, tells the value and what follows. -/
def Unambiguous (follow : List χ → Prop) (write : α → List χ) : Prop :=
  ∀ one other rest more, follow rest → follow more → write one ++ rest = write other ++ more →
    one = other ∧ rest = more

variable {follow before : List χ → Prop} {write : α → List χ}

theorem Unambiguous.narrow (unambiguous : Unambiguous before write)
    (meets : ∀ rest, follow rest → before rest) : Unambiguous follow write := by
  intro one other rest more goes goesOn same
  exact unambiguous one other rest more (meets rest goes) (meets more goesOn) same

theorem Unambiguous.comap {write : β → List χ} (unambiguous : Unambiguous follow write) {f : α → β}
    (injective : Function.Injective f) : Unambiguous follow fun value => write (f value) := by
  intro one other rest more goes goesOn same
  have both := unambiguous (f one) (f other) rest more goes goesOn same
  exact ⟨injective both.1, both.2⟩

/-- One part after the other. -/
theorem Unambiguous.pair {first : α → List χ} {second : β → List χ}
    (one : Unambiguous before first) (two : Unambiguous follow second)
    (meets : ∀ value rest, follow rest → before (second value ++ rest)) :
    Unambiguous follow fun value : α × β => first value.1 ++ second value.2 := by
  intro value other rest more goes goesOn same
  rw [List.append_assoc, List.append_assoc] at same
  have head := one value.1 other.1 _ _ (meets value.2 rest goes) (meets other.2 more goesOn) same
  have tail := two value.2 other.2 rest more goes goesOn head.2
  exact ⟨Prod.ext head.1 tail.1, tail.2⟩

/-- A fixed beginning. -/
theorem Unambiguous.marked (unambiguous : Unambiguous follow write) (mark : List χ) :
    Unambiguous follow fun value => mark ++ write value := by
  intro one other rest more goes goesOn same
  rw [List.append_assoc, List.append_assoc] at same
  exact unambiguous one other rest more goes goesOn (List.append_cancel_left same)

/-- A fixed end, which the value may stand before. -/
theorem Unambiguous.ended (unambiguous : Unambiguous before write) (mark : List χ)
    (meets : ∀ rest, follow rest → before (mark ++ rest)) :
    Unambiguous follow fun value => write value ++ mark := by
  intro one other rest more goes goesOn same
  rw [List.append_assoc, List.append_assoc] at same
  have both := unambiguous one other _ _ (meets rest goes) (meets more goesOn) same
  exact ⟨both.1, List.append_cancel_left both.2⟩

/-- Words of `p`, before anything that does not go on with `p`. -/
theorem unambiguous_word {p : χ → Bool} (plain : ∀ value, ∀ char ∈ write value, p char = true)
    (injective : Function.Injective write) : Unambiguous (Stops p) write := by
  intro one other rest more stops stopsToo same
  have head := congrArg (List.takeWhile p) same
  rw [take_while_stops (plain one) stops, take_while_stops (plain other) stopsToo] at head
  rw [head] at same
  exact ⟨injective head, List.append_cancel_left same⟩

def optionally (write : α → List χ) : Option α → List χ
  | none => []
  | some value => write value

theorem Unambiguous.optionally (unambiguous : Unambiguous follow write)
    (apart : ∀ value rest more, follow rest → follow more → write value ++ rest ≠ more) :
    Unambiguous follow (optionally write) := by
  intro value other rest more goes goesOn same
  cases value with
  | none =>
      cases other with
      | none => exact ⟨rfl, same⟩
      | some other => exact absurd same.symm (apart other more rest goesOn goes)
  | some value =>
      cases other with
      | none => exact absurd same (apart value rest more goes goesOn)
      | some other =>
          have both := unambiguous value other rest more goes goesOn same
          exact ⟨congrArg some both.1, both.2⟩

/-- One item after the other. An item may stand before another one and before the end. -/
theorem Unambiguous.many (unambiguous : Unambiguous before write)
    (goesOn : ∀ value rest, before (write value ++ rest)) (ends : ∀ rest, follow rest → before rest)
    (apart : ∀ value rest more, follow more → write value ++ rest ≠ more) :
    Unambiguous follow (List.flatMap write) := by
  have meets : ∀ values rest, follow rest → before (List.flatMap write values ++ rest) := by
    intro values rest goes
    cases values with
    | nil => exact ends rest goes
    | cons value values =>
        rw [List.flatMap_cons, List.append_assoc]
        exact goesOn value _
  intro values others
  induction values generalizing others with
  | nil =>
      intro rest more goes _ same
      cases others with
      | nil => exact ⟨rfl, same⟩
      | cons other others =>
          rw [List.flatMap_cons, List.append_assoc] at same
          exact absurd same.symm (apart other _ rest goes)
  | cons value values ih =>
      intro rest more goes goesToo same
      rw [List.flatMap_cons, List.append_assoc] at same
      cases others with
      | nil => exact absurd same (apart value _ more goesToo)
      | cons other others =>
          rw [List.flatMap_cons, List.append_assoc] at same
          have head := unambiguous value other _ _ (meets values rest goes) (meets others more goesToo) same
          have tail := ih others rest more goes goesToo head.2
          exact ⟨congrArg₂ List.cons head.1 tail.1, tail.2⟩

end IceTouch.Texts

import Mathlib.Data.List.Basic

/-!
# Ordered multimaps

The entries stand in the order in which they were inserted, and an equal range is what the
comparison does not tell from the key. A multimap keeps its entries sorted, and those of one
key in this order.
-/

namespace IceTouch.Multimap

variable {κ ν : Type}

def incomparable (less : κ → κ → Bool) (key other : κ) : Bool :=
  !less key other && !less other key

def equalRange (less : κ → κ → Bool) (key : κ) (entries : List (κ × ν)) : List (κ × ν) :=
  entries.filter fun entry => incomparable less key entry.1

def insert (key : κ) (value : ν) (entries : List (κ × ν)) : List (κ × ν) :=
  entries ++ [(key, value)]

def find (less : κ → κ → Bool) (predicate : ν → Bool) (key : κ) (entries : List (κ × ν)) :
    Option ν :=
  ((equalRange less key entries).find? fun entry => predicate entry.2).map Prod.snd

/-- The first entry of the key with this value is erased. It is an error if there is none. -/
def remove [DecidableEq ν] (less : κ → κ → Bool) (key : κ) (value : ν)
    (entries : List (κ × ν)) : Option (List (κ × ν)) :=
  if (equalRange less key entries).any fun entry => entry.2 = value then
    some (entries.eraseP fun entry => incomparable less key entry.1 && entry.2 = value)
  else none

variable {less : κ → κ → Bool} {key : κ} {value : ν} {entries : List (κ × ν)}

theorem incomparable_iff {other : κ} :
    incomparable less key other = true ↔ less key other = false ∧ less other key = false := by
  simp [incomparable]

theorem mem_insert {entry : κ × ν} :
    entry ∈ insert key value entries ↔ entry ∈ entries ∨ entry = (key, value) := by
  simp [insert]

theorem mem_of_remove [DecidableEq ν] {after : List (κ × ν)} {entry : κ × ν}
    (removed : remove less key value entries = some after) (inside : entry ∈ after) :
    entry ∈ entries := by
  unfold remove at removed
  split at removed
  · cases removed
    exact List.mem_of_mem_eraseP inside
  · cases removed

/-- What is found stands at a key that is not told from the one sought. -/
theorem mem_of_find {predicate : ν → Bool} {found : ν}
    (here : find less predicate key entries = some found) :
    ∃ other, (other, found) ∈ entries ∧ incomparable less key other = true := by
  unfold find at here
  rw [Option.map_eq_some_iff] at here
  obtain ⟨⟨other, value⟩, first, same⟩ := here
  have inside := List.mem_of_find?_eq_some first
  rw [equalRange, List.mem_filter] at inside
  refine ⟨other, ?_, inside.2⟩
  rw [← same]
  exact inside.1

/-- Every value of an equal range is found when it alone meets the predicate. -/
theorem find_only [DecidableEq ν] {other : κ} (inside : (other, value) ∈ entries)
    (same : incomparable less key other = true) :
    find less (fun found => decide (found = value)) key entries = some value := by
  unfold find
  have member : (other, value) ∈ equalRange less key entries :=
    List.mem_filter.mpr ⟨inside, same⟩
  have some : ((equalRange less key entries).find? fun entry =>
      decide (entry.2 = value)).isSome = true := by
    rw [List.find?_isSome]
    exact ⟨(other, value), member, by simp⟩
  obtain ⟨entry, first⟩ := Option.isSome_iff_exists.mp some
  have matched := List.find?_some first
  rw [first, Option.map_some]
  exact congrArg Option.some (by simpa using matched)

end IceTouch.Multimap

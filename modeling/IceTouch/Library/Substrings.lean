import Mathlib.Data.List.Infix

/-!
# Erasing substrings

The loop that searches a text for a pattern, erases some characters where the pattern occurs
and goes on from there. An occurrence may arise from the erasure, but only where the search goes
on: the text before the position is final.
-/

namespace IceTouch.Substrings

variable {α : Type}

/-- `string::erase` -/
def erase (text : List α) (pos count : Nat) : List α := text.take pos ++ text.drop (pos + count)

variable {text : List α}

variable {pos : Nat}

theorem erase_shorter {count : Nat} (positive : 0 < count) (within : pos < text.length) :
    (erase text pos count).length < text.length := by
  rw [erase, List.length_append, List.length_take, List.length_drop]
  omega

theorem take_erase (count : Nat) (within : pos ≤ text.length) :
    (erase text pos count).take pos = text.take pos := by
  have before : (text.take pos).length = pos := List.length_take_of_le within
  rw [erase, List.take_append_of_le_length before.ge, List.take_take, Nat.min_self]

theorem drop_erase (count : Nat) (within : pos ≤ text.length) :
    (erase text pos count).drop pos = text.drop (pos + count) := by
  have before : (text.take pos).length = pos := List.length_take_of_le within
  rw [erase]
  exact List.drop_left' before

theorem erase_last (front last : List α) :
    erase (front ++ last) ((front ++ last).length - last.length) last.length = front := by
  have before : (front ++ last).length - last.length = front.length := by
    rw [List.length_append, Nat.add_sub_cancel]
  rw [before, erase, List.take_left, ← List.length_append, List.drop_length, List.append_nil]

variable [DecidableEq α]

def firstIndex (pattern : List α) : List α → Option Nat
  | [] => none
  | char :: rest =>
      if pattern <+: char :: rest then some 0 else (firstIndex pattern rest).map (· + 1)

/-- `string::find` of a pattern that is not empty. -/
def find (pattern text : List α) (pos : Nat) : Option Nat :=
  (firstIndex pattern (text.drop pos)).map (pos + ·)

theorem first_index_lt {pattern : List α} {index : Nat}
    (found : firstIndex pattern text = some index) : index < text.length := by
  induction text generalizing index with
  | nil => cases found
  | cons char rest ih =>
      rw [firstIndex] at found
      split at found
      · cases found
        exact Nat.zero_lt_succ _
      · obtain ⟨before, later, rfl⟩ := Option.map_eq_some_iff.mp found
        exact Nat.succ_lt_succ (ih later)

theorem find_lt {pattern : List α} {index : Nat} (found : find pattern text pos = some index) :
    index < text.length := by
  obtain ⟨offset, first, rfl⟩ := Option.map_eq_some_iff.mp found
  have within := first_index_lt first
  rw [List.length_drop] at within
  omega

/-- `while((pos = text.find(pattern, pos)) != npos) text.erase(pos, count)` -/
def eraseEvery (pattern : List α) (count : Nat) (positive : 0 < count) (text : List α)
    (pos : Nat) : List α :=
  match _ : find pattern text pos with
  | none => text
  | some index => eraseEvery pattern count positive (erase text index count) index
termination_by text.length
decreasing_by exact erase_shorter positive (find_lt ‹_›)

section eraseEvery

variable {pattern : List α} {count : Nat} {positive : 0 < count}

theorem erase_every_none {text : List α} {pos : Nat} (missing : find pattern text pos = none) :
    eraseEvery pattern count positive text pos = text := by
  rw [eraseEvery]
  split
  · rfl
  · next index found => rw [missing] at found; cases found

theorem erase_every_some {text : List α} {pos index : Nat}
    (found : find pattern text pos = some index) :
    eraseEvery pattern count positive text pos =
      eraseEvery pattern count positive (erase text index count) index := by
  rw [eraseEvery]
  split
  · next missing => rw [missing] at found; cases found
  · next other same =>
      rw [found] at same
      cases same
      rfl

/-- The text before the position stays. -/
theorem erase_every_from (text : List α) (pos : Nat) :
    eraseEvery pattern count positive text pos =
      text.take pos ++ eraseEvery pattern count positive (text.drop pos) 0 := by
  induction size : text.length using Nat.strong_induction_on generalizing text pos with
  | _ size ih =>
      subst size
      cases first : firstIndex pattern (text.drop pos) with
      | none =>
          have missing : find pattern text pos = none := by rw [find, first, Option.map_none]
          have none' : find pattern (text.drop pos) 0 = none := by
            rw [find, List.drop_zero, first, Option.map_none]
          rw [erase_every_none missing, erase_every_none none', List.take_append_drop]
      | some index =>
          have found : find pattern text pos = some (pos + index) := by
            rw [find, first, Option.map_some]
          have found' : find pattern (text.drop pos) 0 = some index := by
            rw [find, List.drop_zero, first, Option.map_some, Nat.zero_add]
          have shorter := erase_shorter positive (find_lt found)
          have shorter' := erase_shorter positive (find_lt found')
          have within := find_lt found'
          rw [List.length_drop] at shorter' within
          have here := ih _ shorter (erase text (pos + index) count) (pos + index) rfl
          have there := ih _ (by omega) (erase (text.drop pos) index count) index rfl
          rw [take_erase count (by omega), drop_erase count (by omega)] at here
          rw [take_erase count (by rw [List.length_drop]; omega),
            drop_erase count (by rw [List.length_drop]; omega), List.drop_drop] at there
          rw [erase_every_some found, erase_every_some found', here, there, ← List.append_assoc,
            ← List.take_add, Nat.add_assoc]

end eraseEvery

section collapse

def collapse (separator : α) (name text : List α) : List α :=
  eraseEvery (separator :: (name ++ [separator])) (name.length + 1) (Nat.zero_lt_succ _) text 0

variable {separator : α} {name : List α}

theorem collapse_nil : collapse separator name [] = [] := erase_every_none rfl

theorem collapse_found (more : List α) :
    collapse separator name (separator :: (name ++ separator :: more)) =
      collapse separator name (separator :: more) := by
  have here : separator :: (name ++ [separator]) <+: separator :: (name ++ separator :: more) :=
    ⟨more, by simp⟩
  have found : find (separator :: (name ++ [separator]))
      (separator :: (name ++ separator :: more)) 0 = some 0 := by
    rw [find, List.drop_zero, firstIndex, if_pos here, Option.map_some]
  rw [collapse, erase_every_some found, erase, List.take_zero, List.nil_append, Nat.zero_add,
    List.drop_succ_cons, List.drop_left, collapse]

theorem collapse_kept {char : α} {rest : List α}
    (other : ¬separator :: (name ++ [separator]) <+: char :: rest) :
    collapse separator name (char :: rest) = char :: collapse separator name rest := by
  have first : firstIndex (separator :: (name ++ [separator])) (char :: rest) =
      (firstIndex (separator :: (name ++ [separator])) rest).map (· + 1) := by
    rw [firstIndex, if_neg other]
  cases later : firstIndex (separator :: (name ++ [separator])) rest with
  | none =>
      have missing : find (separator :: (name ++ [separator])) (char :: rest) 0 = none := by
        rw [find, List.drop_zero, first, later, Option.map_none, Option.map_none]
      have missing' : find (separator :: (name ++ [separator])) rest 0 = none := by
        rw [find, List.drop_zero, later, Option.map_none]
      rw [collapse, collapse, erase_every_none missing, erase_every_none missing']
  | some index =>
      have found : find (separator :: (name ++ [separator])) (char :: rest) 0 =
          some (index + 1) := by
        rw [find, List.drop_zero, first, later, Option.map_some, Option.map_some, Nat.zero_add]
      have found' : find (separator :: (name ++ [separator])) rest 0 = some index := by
        rw [find, List.drop_zero, later, Option.map_some, Nat.zero_add]
      have here := find_lt found
      have there := find_lt found'
      rw [collapse, collapse, erase_every_some found, erase_every_some found', erase_every_from,
        erase_every_from _ index, take_erase _ here.le, drop_erase _ here.le,
        take_erase _ there.le, drop_erase _ there.le, List.take_succ_cons, List.cons_append,
        Nat.add_right_comm, List.drop_succ_cons]

/-- A text is collapsed from its end: what an occurrence leaves is looked at again. -/
theorem collapse_induction {motive : List α → List α → Prop} (empty : motive [] [])
    (found : ∀ more after, motive (separator :: more) after →
      motive (separator :: (name ++ separator :: more)) after)
    (kept : ∀ char rest after, ¬separator :: (name ++ [separator]) <+: char :: rest →
      after = collapse separator name rest → motive rest after →
        motive (char :: rest) (char :: after))
    (text : List α) : motive text (collapse separator name text) := by
  induction size : text.length using Nat.strong_induction_on generalizing text with
  | _ size ih =>
      subst size
      cases text with
      | nil =>
          rw [collapse_nil]
          exact empty
      | cons char rest =>
          by_cases here : separator :: (name ++ [separator]) <+: char :: rest
          · obtain ⟨more, same⟩ := here
            rw [List.cons_append, List.append_assoc, List.singleton_append] at same
            obtain ⟨rfl, rfl⟩ := List.cons.inj same
            rw [collapse_found]
            apply found
            exact ih _ (by simp only [List.length_cons, List.length_append]; omega) _ rfl
          · rw [collapse_kept here]
            exact kept char rest _ here rfl (ih _ (Nat.lt_succ_self rest.length) _ rfl)

theorem head_collapse (text : List α) : (collapse separator name text).head? = text.head? := by
  apply collapse_induction (motive := fun text after => after.head? = text.head?) ?_ ?_ ?_ text
  · rfl
  · intro more after ih
    rw [ih, List.head?_cons, List.head?_cons]
  · intro char rest after other same ih
    rw [List.head?_cons, List.head?_cons]

/-- What a collapsed text begins with, up to a separator, the text begins with. -/
theorem prefix_of_collapse (text : List α) {word : List α} (plain : separator ∉ word)
    (first : word ++ [separator] <+: collapse separator name text) :
    word ++ [separator] <+: text := by
  apply collapse_induction (motive := fun text after => ∀ word : List α, separator ∉ word →
    word ++ [separator] <+: after → word ++ [separator] <+: text) ?_ ?_ ?_ text word plain first
  · intro word plain first
    exact first
  · intro more after ih word plain first
    have before := ih word plain first
    cases word with
    | nil => exact ⟨name ++ separator :: more, rfl⟩
    | cons char word =>
        have same : char = separator := (List.cons_prefix_cons.mp before).1
        exact absurd (same ▸ List.mem_cons_self) plain
  · intro char rest after other same ih word plain first
    cases word with
    | nil =>
        rw [List.nil_append, List.cons_prefix_cons] at first ⊢
        exact ⟨first.1, List.nil_prefix⟩
    | cons next word =>
        rw [List.cons_append, List.cons_prefix_cons] at first ⊢
        exact ⟨first.1, ih word (fun inside => plain (List.mem_cons_of_mem _ inside)) first.2⟩

/-- No word between separators arises. -/
theorem infix_of_collapse (text : List α) {word : List α} (plain : separator ∉ word)
    (inside : separator :: (word ++ [separator]) <:+: collapse separator name text) :
    separator :: (word ++ [separator]) <:+: text := by
  apply collapse_induction (motive := fun text after =>
    separator :: (word ++ [separator]) <:+: after → separator :: (word ++ [separator]) <:+: text)
    ?_ ?_ ?_ text inside
  · intro inside
    exact inside
  · intro more after ih inside
    exact (ih inside).trans (List.suffix_append (separator :: name) (separator :: more)).isInfix
  · intro char rest after other same ih inside
    subst same
    rcases List.infix_cons_iff.mp inside with first | later
    · obtain ⟨same, next⟩ := List.cons_prefix_cons.mp first
      have before := prefix_of_collapse rest plain next
      exact (List.cons_prefix_cons.mpr ⟨same, before⟩).isInfix
    · exact (ih later).trans (List.suffix_cons char rest).isInfix

/-- The pattern is gone. -/
theorem not_infix_collapse (text : List α) (plain : separator ∉ name) :
    ¬separator :: (name ++ [separator]) <:+: collapse separator name text := by
  apply collapse_induction (motive := fun _ after =>
    ¬separator :: (name ++ [separator]) <:+: after) ?_ ?_ ?_ text
  · intro inside
    exact absurd inside.length_le (by simp)
  · intro more after ih
    exact ih
  · intro char rest after other same ih inside
    subst same
    rcases List.infix_cons_iff.mp inside with first | later
    · obtain ⟨same, next⟩ := List.cons_prefix_cons.mp first
      exact other (List.cons_prefix_cons.mpr ⟨same, prefix_of_collapse rest plain next⟩)
    · exact ih later

theorem collapse_of_not_infix {text : List α}
    (missing : ¬separator :: (name ++ [separator]) <:+: text) :
    collapse separator name text = text := by
  induction text with
  | nil => exact collapse_nil
  | cons char rest ih =>
      have here := mt (fun first => List.infix_cons_iff.mpr (.inl first)) missing
      have later := mt (fun inside => List.infix_cons_iff.mpr (.inr inside)) missing
      rw [collapse_kept here, ih later]

end collapse

end IceTouch.Substrings

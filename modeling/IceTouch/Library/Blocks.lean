import Mathlib.Data.List.Basic

/-!
# Blocks that announce their lengths

The first elements of a block tell how long it is, so a sequence of blocks can be cut in one way
only, and a sequence that is not complete is cut like the whole.
-/

namespace IceTouch.Blocks

variable {α : Type}

/-- The length of a block stands among its first `head` elements. -/
structure Layout (α : Type) where
  head : Nat
  size : List α → Nat
  positive : 0 < head
  told : ∀ block, size (block.take head) = size block

namespace Layout

variable (layout : Layout α) {block other rest left : List α} {blocks others : List (List α)}

structure Block (block : List α) : Prop where
  long : layout.head ≤ block.length
  size : layout.size block = block.length

def Incomplete (rest : List α) : Prop :=
  rest.length < layout.head ∨ rest.length < layout.size rest

variable {layout}

theorem size_append (long : layout.head ≤ block.length) (rest : List α) :
    layout.size (block ++ rest) = layout.size block := by
  rw [← layout.told, List.take_append_of_le_length long, layout.told]

theorem Block.size_append (isBlock : layout.Block block) (rest : List α) :
    layout.size (block ++ rest) = block.length := by
  rw [Layout.size_append isBlock.long, isBlock.size]

theorem Block.not_incomplete (isBlock : layout.Block block) (rest : List α) :
    ¬layout.Incomplete (block ++ rest) := by
  have long := isBlock.long
  rintro (short | short)
  · rw [List.length_append] at short
    omega
  · rw [isBlock.size_append, List.length_append] at short
    omega

theorem Block.first (one : layout.Block block) (two : layout.Block other)
    (same : block ++ rest = other ++ left) : block = other ∧ rest = left := by
  have sizes := congrArg layout.size same
  rw [one.size_append, two.size_append] at sizes
  exact List.append_inj same sizes

theorem nil_incomplete : layout.Incomplete [] := .inl layout.positive

/-- There is one way to cut a sequence. -/
theorem cut_once (each : ∀ block ∈ blocks, layout.Block block)
    (every : ∀ block ∈ others, layout.Block block) (unfinished : layout.Incomplete rest)
    (open_ : layout.Incomplete left) (same : blocks.flatten ++ rest = others.flatten ++ left) :
    blocks = others ∧ rest = left := by
  induction blocks generalizing others with
  | nil =>
      cases others with
      | nil => exact ⟨rfl, same⟩
      | cons block others =>
          rw [List.flatten_nil, List.nil_append, List.flatten_cons, List.append_assoc] at same
          rw [same] at unfinished
          exact absurd unfinished ((every block List.mem_cons_self).not_incomplete _)
  | cons block blocks ih =>
      cases others with
      | nil =>
          rw [List.flatten_nil, List.nil_append, List.flatten_cons, List.append_assoc] at same
          rw [← same] at open_
          exact absurd open_ ((each block List.mem_cons_self).not_incomplete _)
      | cons other others =>
          rw [List.flatten_cons, List.flatten_cons, List.append_assoc, List.append_assoc] at same
          obtain ⟨rfl, later⟩ :=
            (each block List.mem_cons_self).first (every other List.mem_cons_self) same
          obtain ⟨rfl, ends⟩ := ih (fun block inside => each block (List.mem_cons_of_mem _ inside))
            (fun block inside => every block (List.mem_cons_of_mem _ inside)) later
          exact ⟨rfl, ends⟩

/-- What comes first in a sequence of blocks is cut as the sequence is. -/
theorem cut_prefix (each : ∀ block ∈ blocks, layout.Block block)
    (every : ∀ block ∈ others, layout.Block block) (begins : blocks.flatten <+: others.flatten) :
    blocks <+: others := by
  induction blocks generalizing others with
  | nil => exact List.nil_prefix
  | cons block blocks ih =>
      obtain ⟨rest, whole⟩ := begins
      cases others with
      | nil =>
          have long := (each block List.mem_cons_self).long
          have length := congrArg List.length whole
          have positive := layout.positive
          simp only [List.flatten_cons, List.length_append, List.flatten_nil, List.length_nil]
            at length
          omega
      | cons other others =>
          rw [List.flatten_cons, List.flatten_cons, List.append_assoc] at whole
          obtain ⟨rfl, later⟩ :=
            (each block List.mem_cons_self).first (every other List.mem_cons_self) whole
          apply (List.prefix_append_right_inj [block]).mpr
          exact ih (fun block inside => each block (List.mem_cons_of_mem _ inside))
            (fun block inside => every block (List.mem_cons_of_mem _ inside)) ⟨rest, later⟩

/-- Blocks of one length. -/
def fixed (length : Nat) (positive : 0 < length) : Layout α where
  head := length
  size := fun _ => length
  positive := positive
  told := fun _ => rfl

theorem fixed_cut {length : Nat} (positive : 0 < length)
    (each : ∀ block ∈ blocks, block.length = length)
    (every : ∀ block ∈ others, block.length = length) (same : blocks.flatten = others.flatten) :
    blocks = others := by
  have isBlock {block : List α} (sized : block.length = length) :
      (fixed length positive).Block block := ⟨Nat.le_of_eq sized.symm, sized.symm⟩
  have begins : blocks.flatten ++ [] = others.flatten ++ [] := by
    rw [same]
  exact (cut_once (fun block inside => isBlock (each block inside))
    (fun block inside => isBlock (every block inside)) nil_incomplete nil_incomplete begins).1

end Layout

end IceTouch.Blocks

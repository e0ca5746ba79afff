import Mathlib.Data.List.Basic
import Mathlib.Logic.Relation

/-!
# Depth-first search

A search marks a node before it looks at the nodes behind it, and leaves alone what is
marked. While it is under way the marked nodes are not closed under the edges, but every node
that a call has marked has all its successors marked when the call returns.
-/

namespace IceTouch.Search

variable {α φ : Type} [DecidableEq α]

/-- The marked nodes after a visit of `node`. The fuel bounds the depth of the recursion. -/
def visit (next : α → Except φ (List α)) (exhausted : φ) :
    Nat → α → List α → Except φ (List α)
  | 0, _, _ => .error exhausted
  | fuel + 1, node, marked =>
      if node ∈ marked then .ok marked
      else do
        let successors ← next node
        successors.foldlM (fun marked node => visit next exhausted fuel node marked)
          (node :: marked)

/-- `other` is a successor of `node`. -/
def Edge (next : α → Except φ (List α)) (node other : α) : Prop :=
  ∃ successors, next node = .ok successors ∧ other ∈ successors

structure Visited (next : α → Except φ (List α)) (nodes marked after : List α) : Prop where
  kept : ∀ node ∈ marked, node ∈ after
  reached : ∀ node ∈ nodes, node ∈ after
  distinct : marked.Nodup → after.Nodup
  justified : ∀ node ∈ after, node ∈ marked ∨
    ∃ root ∈ nodes, Relation.ReflTransGen (Edge next) root node
  closed : ∀ node ∈ after, node ∉ marked → ∀ other, Edge next node other → other ∈ after

def Complete (next : α → Except φ (List α)) (nodes : List α) : Prop :=
  ∀ node ∈ nodes, ∃ successors, next node = .ok successors ∧ ∀ other ∈ successors, other ∈ nodes

def unmarked (nodes marked : List α) : List α :=
  nodes.filter fun node => node ∉ marked

variable {next : α → Except φ (List α)} {exhausted : φ} {nodes : List α}

variable {marked : List α}

variable {after : List α}

theorem Visited.append {first second middle : List α} (one : Visited next first marked middle)
    (two : Visited next second middle after) :
    Visited next (first ++ second) marked after where
  kept node inside := two.kept node (one.kept node inside)
  reached node inside := by
    obtain early | late := List.mem_append.mp inside
    · exact two.kept node (one.reached node early)
    · exact two.reached node late
  distinct nodup := two.distinct (one.distinct nodup)
  justified node inside := by
    obtain early | ⟨root, among, path⟩ := two.justified node inside
    · obtain marked | ⟨root, among, path⟩ := one.justified node early
      · exact .inl marked
      · exact .inr ⟨root, List.mem_append_left second among, path⟩
    · exact .inr ⟨root, List.mem_append_right first among, path⟩
  closed node inside outside other edge := by
    by_cases early : node ∈ middle
    · exact two.kept other (one.closed node early outside other edge)
    · exact two.closed node inside early other edge

omit [DecidableEq α] in
/-- From nothing marked, visits of some nodes mark what can be reached from them. -/
theorem Visited.exactly {targets : List α} (visited : Visited next targets [] after) (node : α) :
    node ∈ after ↔ ∃ root ∈ targets, Relation.ReflTransGen (Edge next) root node := by
  constructor
  · intro inside
    exact (visited.justified node inside).resolve_left List.not_mem_nil
  · rintro ⟨root, among, path⟩
    induction path with
    | refl => exact visited.reached root among
    | tail _ edge ih => exact visited.closed _ ih List.not_mem_nil _ edge

end IceTouch.Search

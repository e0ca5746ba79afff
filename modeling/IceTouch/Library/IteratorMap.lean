import Mathlib.Data.List.Nodup
import Mathlib.Data.List.Pairwise
import Mathlib.Order.Lattice

/-!
# Ordered maps and their iterators

A map keeps its entries in the order of their keys. An iterator names the entry it stands at,
by the number the entry got when it was inserted, and not the key: once the entry has been
erased the iterator is dangling, also when the same key is inserted again. `none` is the
iterator behind the last entry.
-/

namespace IceTouch.IteratorMap

abbrev Iterator := Nat

structure Node (κ α : Type) where
  id : Iterator
  key : κ
  value : α
deriving DecidableEq, Repr

variable {κ α : Type} [LinearOrder κ]

def place (node : Node κ α) : List (Node κ α) → List (Node κ α)
  | [] => [node]
  | head :: rest => if node.key < head.key then node :: head :: rest else head :: place node rest

structure Table (κ α : Type) [LinearOrder κ] where
  nodes : List (Node κ α)
  fresh : Iterator
  sorted : nodes.Pairwise fun first second => first.key < second.key
  distinct : (nodes.map Node.id).Nodup
  bounded : ∀ node ∈ nodes, node.id < fresh

theorem place_perm (node : Node κ α) (nodes : List (Node κ α)) :
    (place node nodes).Perm (node :: nodes) := by
  induction nodes with
  | nil => exact .refl _
  | cons head rest ih =>
      unfold place
      split
      · exact .refl _
      · exact (ih.cons head).trans (.swap _ _ _)

theorem place_sorted {node : Node κ α} {nodes : List (Node κ α)}
    (sorted : nodes.Pairwise fun first second => first.key < second.key)
    (absent : ∀ other ∈ nodes, other.key ≠ node.key) :
    (place node nodes).Pairwise fun first second => first.key < second.key := by
  induction nodes with
  | nil => exact List.pairwise_singleton _ _
  | cons head rest ih =>
      rw [List.pairwise_cons] at sorted
      unfold place
      split
      · next before =>
          refine List.pairwise_cons.mpr ⟨?_, List.pairwise_cons.mpr sorted⟩
          intro other inside
          rcases List.mem_cons.mp inside with same | later
          · rw [same]; exact before
          · exact lt_trans before (sorted.1 other later)
      · next notBefore =>
          have after : head.key < node.key :=
            lt_of_le_of_ne (not_lt.mp notBefore) (absent head List.mem_cons_self)
          refine List.pairwise_cons.mpr ⟨?_, ?_⟩
          · intro other inside
            rcases List.mem_cons.mp ((place_perm node rest).mem_iff.mp inside) with same | later
            · rw [same]; exact after
            · exact sorted.1 other later
          · exact ih sorted.2 fun other inside => absent other (List.mem_cons_of_mem _ inside)

namespace Table

def empty : Table κ α where
  nodes := []
  fresh := 0
  sorted := .nil
  distinct := .nil
  bounded := fun _ inside => nomatch inside

/-- The entry an iterator stands at; `none` when it is dangling. -/
def deref (table : Table κ α) (iterator : Iterator) : Option (Node κ α) :=
  table.nodes.find? fun node => node.id = iterator

def find (table : Table κ α) (key : κ) : Option Iterator :=
  (table.nodes.find? fun node => node.key = key).map Node.id

def lookup (table : Table κ α) (key : κ) : Option α :=
  (table.nodes.find? fun node => node.key = key).map Node.value

def begin (table : Table κ α) : Option Iterator := table.nodes.head?.map Node.id

def next (table : Table κ α) (iterator : Iterator) : Option Iterator :=
  ((table.nodes.dropWhile fun node => node.id ≠ iterator).tail.head?).map Node.id

def erase (table : Table κ α) (iterator : Iterator) : Table κ α where
  nodes := table.nodes.filter fun node => node.id ≠ iterator
  fresh := table.fresh
  sorted := table.sorted.filter _
  distinct := table.distinct.sublist (List.filter_sublist.map _)
  bounded := fun node inside => table.bounded node (List.mem_of_mem_filter inside)

def extend (table : Table κ α) (key : κ) (value : α)
    (absent : ∀ node ∈ table.nodes, node.key ≠ key) : Table κ α where
  nodes := place { id := table.fresh, key := key, value := value } table.nodes
  fresh := table.fresh + 1
  sorted := place_sorted table.sorted absent
  distinct := by
    have same := (place_perm { id := table.fresh, key := key, value := value } table.nodes).map Node.id
    rw [same.nodup_iff, List.map_cons, List.nodup_cons]
    refine ⟨fun inside => ?_, table.distinct⟩
    obtain ⟨node, member, eq⟩ := List.mem_map.mp inside
    exact absurd eq (Nat.ne_of_lt (table.bounded node member))
  bounded := by
    intro node inside
    rcases List.mem_cons.mp ((place_perm _ _).mem_iff.mp inside) with same | old
    · rw [same]; exact Nat.lt_succ_self _
    · exact Nat.lt_succ_of_lt (table.bounded node old)

/-- `std::map::insert`: an entry that is already there stays. -/
def insert (table : Table κ α) (key : κ) (value : α) : Table κ α × Iterator :=
  if absent : ∀ node ∈ table.nodes, node.key ≠ key then
    (table.extend key value absent, table.fresh)
  else
    (table, (table.find key).getD table.fresh)

def modify (table : Table κ α) (iterator : Iterator) (change : α → α) : Table κ α where
  nodes := table.nodes.map fun node =>
    if node.id = iterator then { node with value := change node.value } else node
  fresh := table.fresh
  sorted := by
    refine List.pairwise_map.mpr (table.sorted.imp ?_)
    intro first second before
    split_ifs <;> exact before
  distinct := by
    have ids : (Node.id ∘ fun node : Node κ α =>
        if node.id = iterator then { node with value := change node.value } else node) =
        Node.id := by
      funext node
      simp only [Function.comp_apply]
      split_ifs <;> rfl
    rw [List.map_map, ids]
    exact table.distinct
  bounded := by
    intro node inside
    obtain ⟨old, member, eq⟩ := List.mem_map.mp inside
    rw [← eq]
    split_ifs <;> exact table.bounded old member

def Valid (table : Table κ α) (hint : Option Iterator) : Prop :=
  ∀ iterator ∈ hint, ∃ node ∈ table.nodes, node.id = iterator

variable {table : Table κ α} {iterator : Iterator} {node : Node κ α}

theorem deref_eq : table.deref iterator = some node ↔ node ∈ table.nodes ∧ node.id = iterator := by
  constructor
  · intro found
    exact ⟨List.mem_of_find?_eq_some found, by simpa using List.find?_some found⟩
  · rintro ⟨inside, same⟩
    have isSome : (table.deref iterator).isSome := List.find?_isSome.mpr ⟨node, inside, by simpa⟩
    obtain ⟨other, found⟩ := Option.isSome_iff_exists.mp isSome
    have member := List.mem_of_find?_eq_some found
    have id : other.id = iterator := by simpa using List.find?_some found
    rw [found, List.inj_on_of_nodup_map table.distinct member inside (id.trans same.symm)]

variable {key : κ}

theorem find_node_eq :
    (table.nodes.find? fun node => node.key = key) = some node ↔
      node ∈ table.nodes ∧ node.key = key := by
  constructor
  · intro found
    exact ⟨List.mem_of_find?_eq_some found, by simpa using List.find?_some found⟩
  · rintro ⟨inside, same⟩
    obtain ⟨other, found⟩ : ∃ other, (table.nodes.find? fun node => node.key = key) = some other :=
      Option.isSome_iff_exists.mp (List.find?_isSome.mpr ⟨node, inside, by simpa⟩)
    have member := List.mem_of_find?_eq_some found
    have sameKey : other.key = key := by simpa using List.find?_some found
    have keys : (table.nodes.map Node.key).Nodup :=
      List.pairwise_map.mpr (table.sorted.imp fun before => ne_of_lt before)
    rw [found, List.inj_on_of_nodup_map keys member inside (sameKey.trans same.symm)]

theorem lookup_eq {value : α} :
    table.lookup key = some value ↔ ∃ node ∈ table.nodes, node.key = key ∧ node.value = value := by
  simp only [lookup, Option.map_eq_some_iff, find_node_eq, and_assoc]

theorem lookup_eq_none : table.lookup key = none ↔ ∀ node ∈ table.nodes, node.key ≠ key := by
  simp [lookup]

theorem find_eq :
    table.find key = some iterator ↔ ∃ node, table.deref iterator = some node ∧ node.key = key := by
  simp only [find, Option.map_eq_some_iff, find_node_eq, deref_eq]
  exact ⟨fun ⟨node, facts, id⟩ => ⟨node, ⟨facts.1, id⟩, facts.2⟩,
    fun ⟨node, facts, key⟩ => ⟨node, ⟨facts.1, key⟩, facts.2⟩⟩

theorem find_eq_none : table.find key = none ↔ table.lookup key = none := by
  simp [find, lookup]

theorem lookup_of_deref (found : table.deref iterator = some node) :
    table.lookup node.key = some node.value :=
  lookup_eq.mpr ⟨node, (deref_eq.mp found).1, rfl, rfl⟩

theorem lookup_ext {expected : Option α}
    (same : ∀ value, table.lookup key = some value ↔ expected = some value) :
    table.lookup key = expected := Option.ext same

theorem lookup_empty (key : κ) : (empty : Table κ α).lookup key = none := rfl

theorem nodes_eq_nil : table.nodes = [] ↔ ∀ key, table.lookup key = none := by
  constructor
  · intro none key
    rw [lookup_eq_none, none]
    exact fun node inside => nomatch inside
  · intro unknown
    refine List.eq_nil_iff_forall_not_mem.mpr fun node inside => ?_
    exact lookup_eq_none.mp (unknown node.key) node inside rfl

theorem insert_spec (value : α) (absent : table.lookup key = none) :
    (∀ other, (table.insert key value).1.lookup other =
      if other = key then some value else table.lookup other) ∧
    (∃ node, (table.insert key value).1.deref (table.insert key value).2 = some node ∧
      node.key = key ∧ node.value = value) ∧
    (∀ hint, table.Valid hint → (table.insert key value).1.Valid hint) := by
  have unknown := lookup_eq_none.mp absent
  have perm := place_perm { id := table.fresh, key := key, value := value } table.nodes
  have shape : table.insert key value = (table.extend key value unknown, table.fresh) := by
    rw [insert, dif_pos unknown]
  rw [shape]
  refine ⟨fun other => lookup_ext fun found => ?_, ?_, fun hint valid iterator isHint => ?_⟩
  · simp only [lookup_eq, extend, perm.mem_iff, List.mem_cons]
    by_cases same : other = key
    · rw [if_pos same, same, Option.some.injEq]
      constructor
      · rintro ⟨node, fresh | old, here, eq⟩
        · rw [← eq, fresh]
        · exact absurd here (unknown node old)
      · intro eq
        exact ⟨_, .inl rfl, rfl, eq⟩
    · rw [if_neg same, lookup_eq]
      constructor
      · rintro ⟨node, fresh | old, here, eq⟩
        · rw [fresh] at here
          exact absurd here.symm same
        · exact ⟨node, old, here, eq⟩
      · rintro ⟨node, old, here, eq⟩
        exact ⟨node, .inr old, here, eq⟩
  · refine ⟨{ id := table.fresh, key := key, value := value }, deref_eq.mpr ⟨?_, rfl⟩, rfl, rfl⟩
    exact perm.mem_iff.mpr List.mem_cons_self
  · obtain ⟨node, inside, id⟩ := valid iterator isHint
    exact ⟨node, perm.mem_iff.mpr (List.mem_cons_of_mem _ inside), id⟩

theorem mem_erase :
    node ∈ (table.erase iterator).nodes ↔ node ∈ table.nodes ∧ node.id ≠ iterator := by
  simp [erase]

theorem lookup_erase (found : table.deref iterator = some node) (other : κ) :
    (table.erase iterator).lookup other = if other = node.key then none else table.lookup other := by
  obtain ⟨inside, id⟩ := deref_eq.mp found
  refine lookup_ext fun value => ?_
  simp only [lookup_eq, mem_erase]
  by_cases same : other = node.key
  · rw [if_pos same]
    refine ⟨fun ⟨entry, ⟨member, different⟩, key, _⟩ => ?_, fun impossible => nomatch impossible⟩
    have unique := find_node_eq.mpr ⟨member, key.trans same⟩
    rw [find_node_eq.mpr ⟨inside, rfl⟩] at unique
    cases unique
    exact absurd id different
  · rw [if_neg same, lookup_eq]
    constructor
    · rintro ⟨entry, ⟨member, -⟩, key, eq⟩
      exact ⟨entry, member, key, eq⟩
    · rintro ⟨entry, member, key, eq⟩
      refine ⟨entry, ⟨member, fun sameId => same ?_⟩, key, eq⟩
      have unique := deref_eq.mpr ⟨member, sameId⟩
      rw [found] at unique
      cases unique
      exact key.symm

theorem valid_erase {other : Iterator} (valid : table.Valid (some other))
    (different : other ≠ iterator) : (table.erase iterator).Valid (some other) := by
  intro hint isHint
  cases isHint
  obtain ⟨node, inside, id⟩ := valid other rfl
  exact ⟨node, mem_erase.mpr ⟨inside, id ▸ different⟩, id⟩

/-- The iterator after an entry outlives it. -/
theorem valid_next (iterator : Iterator) : (table.erase iterator).Valid (table.next iterator) := by
  intro after isNext
  simp only [next, Option.mem_def, Option.map_eq_some_iff] at isNext
  obtain ⟨node, isHead, id⟩ := isNext
  have later : node ∈ (table.nodes.dropWhile fun node => node.id ≠ iterator).tail :=
    List.mem_of_mem_head? isHead
  have suffix := List.dropWhile_suffix (l := table.nodes) fun node => node.id ≠ iterator
  have inside : node ∈ table.nodes := suffix.subset (List.mem_of_mem_tail later)
  refine ⟨node, mem_erase.mpr ⟨inside, ?_⟩, id⟩
  have distinct := table.distinct.sublist (suffix.sublist.map Node.id)
  generalize rest : (table.nodes.dropWhile fun node => node.id ≠ iterator) = left at later distinct
  cases left with
  | nil => cases later
  | cons first others =>
      have stopped : first.id = iterator := by
        have head := List.head?_dropWhile_not (fun node : Node κ α => decide (node.id ≠ iterator))
          table.nodes
        rw [rest] at head
        simpa using head
      rw [List.map_cons, List.nodup_cons] at distinct
      intro same
      exact distinct.1 (List.mem_map.mpr ⟨node, later, same.trans stopped.symm⟩)

theorem valid_begin (table : Table κ α) : table.Valid table.begin := by
  intro iterator isFirst
  simp only [begin, Option.mem_def, Option.map_eq_some_iff] at isFirst
  obtain ⟨node, isHead, id⟩ := isFirst
  exact ⟨node, List.mem_of_mem_head? isHead, id⟩

theorem valid_end (table : Table κ α) : table.Valid none := fun _ isHint => nomatch isHint

theorem lookup_modify (change : α → α) (found : table.deref iterator = some node) (other : κ) :
    (table.modify iterator change).lookup other =
      if other = node.key then some (change node.value) else table.lookup other := by
  obtain ⟨inside, id⟩ := deref_eq.mp found
  refine lookup_ext fun value => ?_
  simp only [lookup_eq, modify, List.mem_map]
  by_cases same : other = node.key
  · rw [if_pos same, Option.some.injEq]
    constructor
    · rintro ⟨_, ⟨entry, member, rfl⟩, key, eq⟩
      have sameKey : entry.key = node.key := by
        rw [← same, ← key]
        split_ifs <;> rfl
      have unique := find_node_eq.mpr ⟨member, sameKey⟩
      rw [find_node_eq.mpr ⟨inside, rfl⟩] at unique
      cases unique
      rw [if_pos id] at eq
      exact eq
    · intro eq
      exact ⟨_, ⟨node, inside, rfl⟩, by rw [if_pos id, same], by rw [if_pos id, ← eq]⟩
  · rw [if_neg same, lookup_eq]
    have untouched {entry : Node κ α} (member : entry ∈ table.nodes) (key : entry.key = other) :
        entry.id ≠ iterator := by
      intro sameId
      have unique := deref_eq.mpr ⟨member, sameId⟩
      rw [found] at unique
      cases unique
      exact same key.symm
    constructor
    · rintro ⟨_, ⟨entry, member, rfl⟩, key, eq⟩
      have sameKey : entry.key = other := by
        rw [← key]
        split_ifs <;> rfl
      rw [if_neg (untouched member sameKey)] at eq
      exact ⟨entry, member, sameKey, eq⟩
    · rintro ⟨entry, member, key, eq⟩
      refine ⟨_, ⟨entry, member, rfl⟩, ?_, ?_⟩
      · rw [if_neg (untouched member key)]; exact key
      · rw [if_neg (untouched member key)]; exact eq

theorem valid_modify {hint : Option Iterator} (valid : table.Valid hint) (iterator : Iterator)
    (change : α → α) : (table.modify iterator change).Valid hint := by
  intro other isHint
  obtain ⟨node, inside, id⟩ := valid other isHint
  refine ⟨_, List.mem_map.mpr ⟨node, inside, rfl⟩, ?_⟩
  split_ifs <;> exact id

end Table

end IceTouch.IteratorMap

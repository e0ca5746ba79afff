import Mathlib.Data.List.Basic
import Mathlib.Order.Lattice

/-!
# Maps ordered by their keys

A map is the list of its entries in the order of their keys. As in a `std::map`, `insert`
keeps the entry that is already there, and an iterator is the key it stands at: `next` is the
iterator that `erase` leaves behind.
-/

namespace IceTouch.OrderedMap

variable {κ α : Type} [LinearOrder κ]

def find (key : κ) : List (κ × α) → Option α
  | [] => none
  | entry :: rest => if entry.1 = key then some entry.2 else find key rest

def insert (key : κ) (value : α) : List (κ × α) → List (κ × α)
  | [] => [(key, value)]
  | entry :: rest =>
      if key < entry.1 then
        (key, value) :: entry :: rest
      else if key = entry.1 then
        entry :: rest
      else
        entry :: insert key value rest

/-- `operator[]` and an assignment: a value that is already there is replaced. -/
def assign (key : κ) (value : α) : List (κ × α) → List (κ × α)
  | [] => [(key, value)]
  | entry :: rest =>
      if key < entry.1 then
        (key, value) :: entry :: rest
      else if key = entry.1 then
        (key, value) :: rest
      else
        entry :: assign key value rest

def erase (key : κ) (entries : List (κ × α)) : List (κ × α) :=
  entries.filter fun entry => entry.1 ≠ key

/-- The key of the first entry after `key`. -/
def next (key : κ) (entries : List (κ × α)) : Option κ :=
  (entries.find? fun entry => key < entry.1).map Prod.fst

def Sorted (entries : List (κ × α)) : Prop :=
  entries.Pairwise fun first second => first.1 < second.1

/-- The key comes after all others. -/
def Beyond (key : κ) (entries : List (κ × α)) : Prop :=
  ∀ entry ∈ entries, entry.1 < key

def keys (entries : List (κ × α)) : List κ :=
  entries.map Prod.fst

theorem find_eq_none (key : κ) (entries : List (κ × α)) :
    find key entries = none ↔ key ∉ keys entries := by
  induction entries with
  | nil => simp [find, keys]
  | cons entry rest ih =>
      by_cases same : entry.1 = key
      · simp [find, keys, same]
      · have other : key ≠ entry.1 := fun eq => same eq.symm
        simp only [find, same, if_false, ih, keys, List.map_cons, List.mem_cons, not_or]
        exact ⟨fun absent => ⟨other, absent⟩, fun absent => absent.2⟩

variable {key : κ} {entries : List (κ × α)}

variable {value : α} {other : κ}

theorem mem_of_find (found : find key entries = some value) : (key, value) ∈ entries := by
  induction entries with
  | nil => simp [find] at found
  | cons entry rest ih =>
      by_cases same : entry.1 = key
      · simp only [find, same, if_true, Option.some.injEq] at found
        rw [← same, ← found]
        exact List.mem_cons_self
      · simp only [find, same, if_false] at found
        exact List.mem_cons_of_mem entry (ih found)

theorem insert_perm (value : α) (fresh : key ∉ keys entries) :
    (insert key value entries).Perm ((key, value) :: entries) := by
  induction entries with
  | nil => exact .refl _
  | cons head rest ih =>
      simp only [keys, List.map_cons, List.mem_cons, not_or] at fresh
      by_cases before : key < head.1
      · simp [insert, before]
      · simp only [insert, before, fresh.1, if_false]
        exact ((ih fresh.2).cons head).trans (.swap _ _ _)

theorem insert_of_mem (value : α) (sorted : entries.Pairwise fun first second => first.1 < second.1)
    (present : key ∈ keys entries) : insert key value entries = entries := by
  induction entries with
  | nil => simp [keys] at present
  | cons head rest ih =>
      rw [List.pairwise_cons] at sorted
      simp only [keys, List.map_cons, List.mem_cons] at present
      obtain here | later := present
      · simp [insert, here]
      · obtain ⟨entry, inside, same⟩ := List.mem_map.mp later
        have below : head.1 < key := same ▸ sorted.1 entry inside
        simp only [insert, not_lt.mpr below.le, below.ne', if_false]
        rw [ih sorted.2 later]

theorem mem_assign {entry : κ × α} (inside : entry ∈ assign key value entries) :
    entry = (key, value) ∨ entry ∈ entries := by
  induction entries with
  | nil => exact .inl (List.mem_singleton.mp inside)
  | cons head rest ih =>
      rw [assign] at inside
      by_cases before : key < head.1
      · rw [if_pos before] at inside
        exact List.mem_cons.mp inside
      · rw [if_neg before] at inside
        by_cases same : key = head.1
        · rw [if_pos same] at inside
          obtain here | later := List.mem_cons.mp inside
          · exact .inl here
          · exact .inr (List.mem_cons_of_mem head later)
        · rw [if_neg same] at inside
          obtain here | later := List.mem_cons.mp inside
          · exact .inr (here ▸ List.mem_cons_self)
          · exact (ih later).imp_right (List.mem_cons_of_mem head)

theorem sorted_nil : Sorted ([] : List (κ × α)) := .nil

theorem sorted_erase (key : κ) (sorted : Sorted entries) : Sorted (erase key entries) :=
  sorted.filter _

/-- In a sorted list the keys after an entry are beyond those before it. -/
theorem sorted_beyond {first second : List (κ × α)} {entry : κ × α}
    (sorted : Sorted (first ++ entry :: second)) : Beyond entry.1 first := by
  intro other inside
  exact (List.pairwise_append.mp sorted).2.2 other inside entry List.mem_cons_self

theorem assign_sorted (key : κ) (value : α) (sorted : Sorted entries) :
    Sorted (assign key value entries) := by
  unfold Sorted at sorted ⊢
  induction entries with
  | nil => exact List.pairwise_singleton _ _
  | cons head rest ih =>
      have below := (List.pairwise_cons.mp sorted).1
      have later := (List.pairwise_cons.mp sorted).2
      rw [assign]
      by_cases before : key < head.1
      · rw [if_pos before, List.pairwise_cons]
        refine ⟨fun entry inside => ?_, sorted⟩
        obtain here | inside := List.mem_cons.mp inside
        · exact here ▸ before
        · exact before.trans (below entry inside)
      · rw [if_neg before]
        by_cases same : key = head.1
        · rw [if_pos same, List.pairwise_cons]
          exact ⟨fun entry inside => same ▸ below entry inside, later⟩
        · rw [if_neg same, List.pairwise_cons]
          refine ⟨fun entry inside => ?_, ih later⟩
          obtain here | inside := mem_assign inside
          · rw [here]
            exact lt_of_le_of_ne (not_lt.mp before) (Ne.symm same)
          · exact below entry inside

/-- A new key is inserted as it would be assigned. -/
theorem insert_fresh (value : α) (fresh : find key entries = none) :
    insert key value entries = assign key value entries := by
  induction entries with
  | nil => rfl
  | cons entry rest ih =>
      by_cases same : entry.1 = key
      · simp [find, same] at fresh
      · rw [find, if_neg same] at fresh
        rw [insert, assign, if_neg (Ne.symm same), if_neg (Ne.symm same), ih fresh]

/-- An insertion changes nothing for a key that is there. -/
theorem insert_known (value : α) (sorted : Sorted entries) (known : find key entries ≠ none) :
    insert key value entries = entries :=
  insert_of_mem value sorted (by simpa [find_eq_none] using known)

theorem insert_sorted (key : κ) (value : α) (sorted : Sorted entries) :
    Sorted (insert key value entries) := by
  by_cases fresh : find key entries = none
  · rw [insert_fresh value fresh]
    exact assign_sorted key value sorted
  · rw [insert_known value sorted fresh]
    exact sorted

/-- In a sorted list an entry is the one that is found under its key. -/
theorem find_of_mem (sorted : Sorted entries) (inside : (key, value) ∈ entries) :
    find key entries = some value := by
  unfold Sorted at sorted
  induction entries with
  | nil => cases inside
  | cons entry rest ih =>
      rw [List.pairwise_cons] at sorted
      obtain here | later := List.mem_cons.mp inside
      · rw [find, ← here, if_pos rfl]
      · rw [find, if_neg (sorted.1 (key, value) later).ne]
        exact ih sorted.2 later

theorem keys_nodup (sorted : Sorted entries) : (keys entries).Nodup :=
  List.pairwise_map.mpr (sorted.imp fun below => below.ne)

/-- A key that comes after all others goes to the end. -/
theorem assign_last (value : α) (beyond : Beyond key entries) :
    assign key value entries = entries ++ [(key, value)] := by
  induction entries with
  | nil => rfl
  | cons head rest ih =>
      have above := beyond head List.mem_cons_self
      have later := ih fun entry inside => beyond entry (List.mem_cons_of_mem head inside)
      rw [assign, if_neg (not_lt.mpr above.le), if_neg above.ne', later, List.cons_append]

theorem mem_erase (key : κ) (entries : List (κ × α)) (entry : κ × α) :
    entry ∈ erase key entries ↔ entry ∈ entries ∧ entry.1 ≠ key := by
  simp [erase]

omit [LinearOrder κ] in
theorem mem_keys (inside : (key, value) ∈ entries) : key ∈ keys entries :=
  List.mem_map.mpr ⟨(key, value), inside, rfl⟩

theorem find_erase_ne (different : key ≠ other) (entries : List (κ × α)) :
    find key (erase other entries) = find key entries := by
  induction entries with
  | nil => rfl
  | cons entry rest ih =>
      by_cases same : entry.1 = other
      · simp only [erase, List.filter_cons, same, ne_eq, not_true_eq_false, decide_false,
          Bool.false_eq_true, if_false, find] at ih ⊢
        rw [if_neg (fun eq => different eq.symm)]
        exact ih
      · simp only [erase, List.filter_cons, same, ne_eq, not_false_eq_true, decide_true, if_true,
          find] at ih ⊢
        rw [ih]

theorem find_erase (key : κ) (entries : List (κ × α)) : find key (erase key entries) = none := by
  rw [find_eq_none]
  intro inside
  obtain ⟨entry, kept, same⟩ := List.mem_map.mp inside
  exact ((mem_erase key entries entry).mp kept).2 same

theorem find_insert (value : α) (fresh : find key entries = none) :
    find key (insert key value entries) = some value := by
  induction entries with
  | nil => simp [insert, find]
  | cons entry rest ih =>
      by_cases same : entry.1 = key
      · simp [find, same] at fresh
      · simp only [find, same, if_false] at fresh
        rw [insert]
        by_cases before : key < entry.1
        · simp [before, find]
        · rw [if_neg before, if_neg (Ne.symm same), find, if_neg same]
          exact ih fresh

theorem find_insert_ne (different : key ≠ other) (value : α) (entries : List (κ × α)) :
    find key (insert other value entries) = find key entries := by
  induction entries with
  | nil => simp [insert, find, different.symm]
  | cons entry rest ih =>
      rw [insert]
      by_cases before : other < entry.1
      · rw [if_pos before, find, if_neg different.symm]
      · by_cases same : other = entry.1
        · rw [if_neg before, if_pos same]
        · rw [if_neg before, if_neg same, find, find, ih]

theorem find_assign (key : κ) (value : α) (entries : List (κ × α)) :
    find key (assign key value entries) = some value := by
  induction entries with
  | nil => simp [assign, find]
  | cons entry rest ih =>
      rw [assign]
      by_cases before : key < entry.1
      · simp [before, find]
      · by_cases same : key = entry.1
        · rw [if_neg before, if_pos same]
          simp [find]
        · rw [if_neg before, if_neg same, find, if_neg (Ne.symm same)]
          exact ih

theorem find_assign_ne (different : key ≠ other) (value : α) (entries : List (κ × α)) :
    find key (assign other value entries) = find key entries := by
  induction entries with
  | nil => simp [assign, find, different.symm]
  | cons entry rest ih =>
      rw [assign]
      by_cases before : other < entry.1
      · rw [if_pos before, find, if_neg different.symm]
      · by_cases same : other = entry.1
        · rw [if_neg before, if_pos same, find, find, if_neg different.symm,
            if_neg fun here => different (here.symm.trans same.symm)]
        · rw [if_neg before, if_neg same, find, find, ih]

theorem next_mem {after : κ} (found : next key entries = some after) :
    after ∈ keys entries ∧ key < after := by
  simp only [next, Option.map_eq_some_iff] at found
  obtain ⟨entry, isFirst, same⟩ := found
  have inside := List.mem_of_find?_eq_some isFirst
  have beyond := List.find?_some isFirst
  subst same
  exact ⟨List.mem_map.mpr ⟨entry, inside, rfl⟩, by simpa using beyond⟩

end IceTouch.OrderedMap

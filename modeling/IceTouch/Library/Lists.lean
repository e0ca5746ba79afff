import Mathlib.Algebra.GroupWithZero.Nat
import Mathlib.Data.List.Basic
import Mathlib.Logic.Function.Basic

/-!
# Lists of numbered items

A state that hands out numbers keeps its items in a list, and a number is a position in it.
The lemmas say what a changed list holds at a position, and how counts over it change.
-/

namespace IceTouch.Lists

variable {α : Type} {items : List α}

variable {found before : α} {index : Nat}

theorem get_set {id other : Nat} {value : α} (looked : (items.set id value)[other]? = some found) :
    (other = id ∧ found = value) ∨ (other ≠ id ∧ items[other]? = some found) := by
  by_cases same : other = id
  · subst same
    rw [List.getElem?_set_self'] at looked
    cases inside : items[other]? with
    | none => simp [inside] at looked
    | some item =>
        rw [inside] at looked
        exact .inl ⟨rfl, (Option.some.inj looked).symm⟩
  · rw [List.getElem?_set_ne (Ne.symm same)] at looked
    exact .inr ⟨same, looked⟩

theorem get_append {id : Nat} {value : α} (looked : (items ++ [value])[id]? = some found) :
    (id < items.length ∧ items[id]? = some found) ∨ (id = items.length ∧ found = value) := by
  by_cases inside : id < items.length
  · rw [List.getElem?_append_left inside] at looked
    exact .inl ⟨inside, looked⟩
  · have last : id - items.length = 0 := by
      have bounded := (List.getElem?_eq_some_iff.mp looked).1
      simp only [List.length_append, List.length_singleton] at bounded
      omega
    rw [List.getElem?_append_right (Nat.le_of_not_lt inside), last] at looked
    exact .inr ⟨by omega, (Option.some.inj looked).symm⟩

variable {change : Nat → α → α}

theorem get_map_idx {id : Nat} (looked : (items.mapIdx change)[id]? = some found) :
    ∃ item, items[id]? = some item ∧ found = change id item := by
  rw [List.getElem?_mapIdx, Option.map_eq_some_iff] at looked
  obtain ⟨item, there, changed⟩ := looked
  exact ⟨item, there, changed.symm⟩

theorem update_some {κ : Type} [DecidableEq κ] {map : κ → Option α} {key other : κ}
    {value : Option α} (looked : Function.update map key value other = some found) :
    (other = key ∧ value = some found) ∨ map other = some found := by
  by_cases same : other = key
  · subst same
    rw [Function.update_self] at looked
    exact .inl ⟨rfl, looked⟩
  · rw [Function.update_of_ne same] at looked
    exact .inr looked

theorem count_one (last number : Nat) :
    [last].count number = if number = last then 1 else 0 := by
  by_cases same : number = last
  · simp [same]
  · have other : last ≠ number := fun eq => same eq.symm
    simp [same, other]

theorem count_flat_set {β : Type} [DecidableEq β] (f : α → List β) (after : α)
    (inside : items[index]? = some before) (value : β) :
    ((items.set index after).flatMap f).count value + (f before).count value =
      (items.flatMap f).count value + (f after).count value := by
  induction items generalizing index with
  | nil => simp at inside
  | cons item items ih =>
      cases index with
      | zero =>
          simp only [List.getElem?_cons_zero, Option.some.injEq] at inside
          subst inside
          simp only [List.set_cons_zero, List.flatMap_cons, List.count_append]
          omega
      | succ index =>
          simp only [List.getElem?_cons_succ] at inside
          have rest := ih inside
          simp only [List.set_cons_succ, List.flatMap_cons, List.count_append]
          omega

theorem sum_set (weight : α → Nat) {after : α} (inside : items[index]? = some before) :
    ((items.set index after).map weight).sum + weight before =
      (items.map weight).sum + weight after := by
  induction items generalizing index with
  | nil => simp at inside
  | cons item items ih =>
      cases index with
      | zero =>
          simp only [List.getElem?_cons_zero, Option.some.injEq] at inside
          subst inside
          simp only [List.set_cons_zero, List.map_cons, List.sum_cons]
          omega
      | succ index =>
          simp only [List.getElem?_cons_succ] at inside
          have rest := ih inside
          simp only [List.set_cons_succ, List.map_cons, List.sum_cons]
          omega

theorem sum_map_idx_le (weight : α → Nat)
    (below : ∀ (index : Nat) (item : α), items[index]? = some item →
      weight (change index item) ≤ weight item) :
    ((items.mapIdx change).map weight).sum ≤ (items.map weight).sum := by
  induction items generalizing change with
  | nil => simp
  | cons item items ih =>
      have first := below 0 item rfl
      have rest := ih fun index other there => below (index + 1) other there
      rw [List.mapIdx_cons, List.map_cons, List.map_cons, List.sum_cons, List.sum_cons]
      exact Nat.add_le_add first rest

/-- When every item is changed for one of at most its weight, one lighter item makes the whole
list lighter. -/
theorem sum_map_idx_lt (weight : α → Nat)
    (below : ∀ (index : Nat) (item : α), items[index]? = some item →
      weight (change index item) ≤ weight item) {item : α} (there : items[index]? = some item)
    (less : weight (change index item) < weight item) :
    ((items.mapIdx change).map weight).sum < (items.map weight).sum := by
  induction items generalizing change index with
  | nil => simp at there
  | cons first items ih =>
      rw [List.mapIdx_cons, List.map_cons, List.map_cons, List.sum_cons, List.sum_cons]
      cases index with
      | zero =>
          cases there
          have rest : ((items.mapIdx fun index => change (index + 1)).map weight).sum ≤
              (items.map weight).sum :=
            sum_map_idx_le weight fun index other here => below (index + 1) other here
          exact Nat.add_lt_add_of_lt_of_le less rest
      | succ index =>
          have rest : ((items.mapIdx fun index => change (index + 1)).map weight).sum <
              (items.map weight).sum :=
            ih (fun index other here => below (index + 1) other here) there less
          exact Nat.add_lt_add_of_le_of_lt (below 0 first rfl) rest

/-- One item is replaced, and the others count as before. -/
theorem count_replaced (p : α → Bool) (after : α) (inside : items[index]? = some before) :
    ((items.set index after).countP p : Int) =
      items.countP p + (if p after then 1 else 0) - if p before then 1 else 0 := by
  induction items generalizing index with
  | nil => simp at inside
  | cons item items ih =>
      cases index with
      | zero =>
          simp only [List.getElem?_cons_zero, Option.some.injEq] at inside
          subst inside
          rw [List.set_cons_zero, List.countP_cons, List.countP_cons]
          split <;> split <;> simp
      | succ index =>
          rw [List.getElem?_cons_succ] at inside
          rw [List.set_cons_succ, List.countP_cons, List.countP_cons]
          have rest := ih inside
          push_cast
          omega

end IceTouch.Lists

import Mathlib.Order.Compare
import Mathlib.Order.Lattice

/-!
# Comparison operators written by hand

`operator<` and `operator==` that go through the attributes one after the other, with an early
return for each of them. At a pair of values the two operators together decide an `Ordering`;
a chain of early returns decides the lexicographic one. If the orderings are reversed by
swapping the values and follow each other along three values, the operators are a strict weak
order and its equivalence.
-/

namespace IceTouch.Comparison

variable {α β : Type}

/-- `if(a < b) { return true; } else if(b < a) { return false; }`, and what follows. -/
def decided (less greater rest : Bool) : Bool :=
  if less then true else if greater then false else rest

/-- `std::lexicographical_compare`. -/
def lexicographical (less : α → α → Bool) : List α → List α → Bool
  | [], [] => false
  | [], _ :: _ => true
  | _ :: _, [] => false
  | first :: firsts, second :: seconds =>
      decided (less first second) (less second first) (lexicographical less firsts seconds)

/-- `operator==` of the containers. -/
def allEqual (equal : α → α → Bool) : List α → List α → Bool
  | [], [] => true
  | first :: firsts, second :: seconds => equal first second && allEqual equal firsts seconds
  | _, _ => false

/-- The results of `a < b`, `b < a` and `a == b` are those of one ordering. -/
structure Decides (less greater equal : Bool) (order : Ordering) : Prop where
  less_iff : less = true ↔ order = .lt
  greater_iff : greater = true ↔ order = .gt
  equal_iff : equal = true ↔ order = .eq

theorem decides_eq : Decides false false true .eq := ⟨by simp, by simp, by simp⟩

theorem decides_lt : Decides true false false .lt := ⟨by simp, by simp, by simp⟩

theorem decides_gt : Decides false true false .gt := ⟨by simp, by simp, by simp⟩

variable {less greater equal : Bool} {order : α → α → Ordering}

theorem decides_cases {order : Ordering} (decides : Decides less greater equal order) :
    (less = true ∧ greater = false ∧ equal = false ∧ order = .lt) ∨
      (less = false ∧ greater = true ∧ equal = false ∧ order = .gt) ∨
      (less = false ∧ greater = false ∧ equal = true ∧ order = .eq) := by
  obtain ⟨lessIff, greaterIff, equalIff⟩ := decides
  cases order <;> simp_all

theorem Decides.swap {order : Ordering} (decides : Decides less greater equal order) :
    Decides greater less equal order.swap := by
  obtain ⟨rfl, rfl, rfl, rfl⟩ | ⟨rfl, rfl, rfl, rfl⟩ | ⟨rfl, rfl, rfl, rfl⟩ :=
    decides_cases decides
  · exact decides_gt
  · exact decides_lt
  · exact decides_eq

variable {equal' : Bool} {order' : Ordering}

variable {less' greater' : Bool} {first second both : Ordering}

/-- A step of a chain: the attributes after it matter only where it finds no difference. -/
theorem Decides.chain {order : Ordering} (first : Decides less greater equal order)
    (rest : Decides less' greater' equal' order') :
    Decides (decided less greater less') (decided greater less greater') (equal && equal')
      (order.then order') := by
  obtain ⟨rfl, rfl, rfl, rfl⟩ | ⟨rfl, rfl, rfl, rfl⟩ | ⟨rfl, rfl, rfl, rfl⟩ :=
    decides_cases first
  · exact decides_lt
  · exact decides_gt
  · exact rest

/-- A step of a chain that asks for equality once the values are not less: the attributes after
it are compared only where the first ones are equal. -/
theorem Decides.chainEqual {whole : Bool} {order : Ordering}
    (first : Decides less greater equal order) (back : Decides greater less equal' order.swap)
    (implies : whole = true → equal = true)
    (later : equal = true → Decides less' greater' whole order') :
    Decides (decided less (!equal) less') (decided greater (!equal') greater') whole
      (order.then order') := by
  have differ (unequal : equal = false) : whole = false := by
    cases whole with
    | false => rfl
    | true =>
        rw [implies rfl] at unequal
        cases unequal
  obtain ⟨rfl, rfl, rfl, rfl⟩ | ⟨rfl, rfl, rfl, rfl⟩ | ⟨rfl, rfl, rfl, rfl⟩ :=
    decides_cases first
  · have other : equal' = false := by
      cases equal' with
      | false => rfl
      | true => cases back.equal_iff.mp rfl
    rw [other, differ rfl]
    exact decides_lt
  · rw [differ rfl]
    exact decides_gt
  · have same : equal' = true := back.equal_iff.mpr rfl
    rw [same]
    exact later rfl

/-- The equality may be written otherwise. -/
theorem Decides.rewrite {order : Ordering} (decides : Decides less greater equal order)
    (same : equal' = true ↔ equal = true) :
    Decides less greater equal' order where
  less_iff := decides.less_iff
  greater_iff := decides.greater_iff
  equal_iff := same.trans decides.equal_iff

/-- The operators decide only one ordering. -/
theorem Decides.unique {order : Ordering} (decides : Decides less greater equal order)
    (decides' : Decides less greater equal' order') : order = order' := by
  obtain ⟨rfl, rfl, _, rfl⟩ | ⟨rfl, rfl, _, rfl⟩ | ⟨rfl, rfl, _, rfl⟩ := decides_cases decides
  · exact (decides'.less_iff.mp rfl).symm
  · exact (decides'.greater_iff.mp rfl).symm
  · obtain ⟨less, _⟩ | ⟨_, greater, _⟩ | ⟨_, _, _, rfl⟩ := decides_cases decides'
    · cases less
    · cases greater
    · rfl

theorem decides_cmp [LinearOrder β] [DecidableEq α] (view : α → β)
    (injective : Function.Injective view) (first second : α) :
    Decides (decide (view first < view second)) (decide (view second < view first))
      (decide (first = second)) (cmp (view first) (view second)) where
  less_iff := by rw [decide_eq_true_eq, cmp_eq_lt_iff]
  greater_iff := by rw [decide_eq_true_eq, cmp_eq_gt_iff]
  equal_iff := by rw [decide_eq_true_eq, cmp_eq_eq_iff, injective.eq_iff]

def guardedOrder (flag flag' : Bool) (order : Ordering) : Ordering :=
  if flag then (if flag' then order else .gt) else (if flag' then .lt else .eq)

/-- The flag of an override, and its value where both have one. -/
theorem Decides.guarded {order : Ordering} (value : Decides less greater equal order)
    (flag flag' : Bool) (rest : Decides less' greater' equal' order') :
    Decides
      (decided (!flag && flag') (!flag' && flag)
        (if flag then decided less greater less' else less'))
      (decided (!flag' && flag) (!flag && flag')
        (if flag' then decided greater less greater' else greater'))
      ((flag == flag' && (!flag || equal)) && equal')
      ((guardedOrder flag flag' order).then order') := by
  cases flag with
  | false =>
      cases flag' with
      | false => exact rest
      | true => exact decides_lt
  | true =>
      cases flag' with
      | false => exact decides_gt
      | true => exact value.chain rest

/-- What is known of the ordering of the first and the last of three values from the other
two. -/
structure Follows (first second both : Ordering) : Prop where
  left : first = .eq → both = second
  right : second = .eq → both = first
  same : first = second → both = first

theorem follows_eq : Follows .eq .eq .eq := ⟨fun _ => rfl, fun _ => rfl, fun _ => rfl⟩

theorem Follows.thenSame {first' second' both' : Ordering} (follows : Follows first second both)
    (rest : first = .eq → second = .eq → Follows first' second' both') :
    Follows (first.then first') (second.then second') (both.then both') := by
  obtain ⟨left, right, same⟩ := follows
  cases first with
  | eq =>
      rw [left rfl]
      cases second with
      | eq => exact rest rfl rfl
      | lt => constructor <;> simp [eq_comm]
      | gt => constructor <;> simp [eq_comm]
  | lt =>
      cases second with
      | eq =>
          rw [right rfl]
          constructor <;> simp
      | lt =>
          rw [same rfl]
          constructor <;> simp
      | gt => constructor <;> simp
  | gt =>
      cases second with
      | eq =>
          rw [right rfl]
          constructor <;> simp
      | lt => constructor <;> simp
      | gt =>
          rw [same rfl]
          constructor <;> simp

theorem Follows.chain {first' second' both' : Ordering} (follows : Follows first second both)
    (rest : Follows first' second' both') :
    Follows (first.then first') (second.then second') (both.then both') :=
  follows.thenSame fun _ _ => rest

/-- An ordering of all values of a type. -/
structure Lawful (order : α → α → Ordering) : Prop where
  swap : ∀ first second, order second first = (order first second).swap
  follows : ∀ first second third,
    Follows (order first second) (order second third) (order first third)

/-- Operators that decide an ordering decide the reverse one for the swapped values. -/
theorem lawful_of_decides {less equal : α → α → Bool}
    (decides : ∀ first second, Decides (less first second) (less second first)
      (equal first second) (order first second))
    (follows : ∀ first second third,
      Follows (order first second) (order second third) (order first third)) : Lawful order where
  swap first second := (decides second first).unique (decides first second).swap
  follows := follows

theorem lawful_cmp [LinearOrder α] : Lawful (cmp : α → α → Ordering) where
  swap first second := (cmp_swap first second).symm
  follows first second third := by
    constructor
    · intro same
      rw [(cmp_eq_eq_iff _ _).mp same]
    · intro same
      rw [(cmp_eq_eq_iff _ _).mp same]
    · intro same
      cases both : cmp first second with
      | lt =>
          rw [both] at same
          rw [cmp_eq_lt_iff] at both ⊢
          exact both.trans ((cmp_eq_lt_iff _ _).mp same.symm)
      | eq =>
          rw [both] at same
          rw [cmp_eq_eq_iff] at both ⊢
          exact both.trans ((cmp_eq_eq_iff _ _).mp same.symm)
      | gt =>
          rw [both] at same
          rw [cmp_eq_gt_iff] at both ⊢
          exact ((cmp_eq_gt_iff _ _).mp same.symm).trans both

theorem lawful_eq : Lawful fun _ _ : α => .eq where
  swap _ _ := rfl
  follows _ _ _ := follows_eq

theorem Lawful.comap {order : β → β → Ordering} (lawful : Lawful order) (view : α → β) :
    Lawful fun first second => order (view first) (view second) where
  swap first second := lawful.swap (view first) (view second)
  follows first second third := lawful.follows (view first) (view second) (view third)

theorem Lawful.chain {order' : α → α → Ordering} (lawful : Lawful order) (rest : Lawful order') :
    Lawful fun first second => (order first second).then (order' first second) where
  swap first second := by
    rw [lawful.swap first second, rest.swap first second, Ordering.swap_then]
  follows first second third :=
    (lawful.follows first second third).chain (rest.follows first second third)

/-- Where the flags of values are set, the values follow each other. -/
theorem Follows.guarded {flag flag' flag'' : Bool} (follows : Follows first second both) :
    Follows (guardedOrder flag flag' first) (guardedOrder flag' flag'' second)
      (guardedOrder flag flag'' both) := by
  cases flag <;> cases flag' <;> cases flag'' <;>
    first
    | exact follows
    | constructor <;> simp [guardedOrder, eq_comm]

theorem guarded_swap (flag flag' : Bool) (order : Ordering) :
    guardedOrder flag' flag order.swap = (guardedOrder flag flag' order).swap := by
  cases flag <;> cases flag' <;> rfl

theorem Lawful.guarded (lawful : Lawful order) (flag : α → Bool) :
    Lawful fun first second => guardedOrder (flag first) (flag second) (order first second) where
  swap first second := by rw [lawful.swap first second, guarded_swap]
  follows first second third := (lawful.follows first second third).guarded

def listOrder (order : α → α → Ordering) : List α → List α → Ordering
  | [], [] => .eq
  | [], _ :: _ => .lt
  | _ :: _, [] => .gt
  | first :: firsts, second :: seconds => (order first second).then (listOrder order firsts seconds)

theorem decides_list {less equal : α → α → Bool}
    (decides : ∀ first second, Decides (less first second) (less second first)
      (equal first second) (order first second)) (firsts seconds : List α) :
    Decides (lexicographical less firsts seconds) (lexicographical less seconds firsts)
      (allEqual equal firsts seconds) (listOrder order firsts seconds) := by
  induction firsts generalizing seconds with
  | nil =>
      cases seconds with
      | nil => exact decides_eq
      | cons second seconds => exact decides_lt
  | cons first firsts ih =>
      cases seconds with
      | nil => exact decides_gt
      | cons second seconds => exact (decides first second).chain (ih seconds)

theorem lawful_list (lawful : Lawful order) :
    Lawful (listOrder order) where
  swap firsts := by
    induction firsts with
    | nil =>
        intro seconds
        cases seconds <;> rfl
    | cons first firsts ih =>
        intro seconds
        cases seconds with
        | nil => rfl
        | cons second seconds =>
            rw [listOrder, listOrder, lawful.swap first second, ih seconds, Ordering.swap_then]
  follows firsts := by
    induction firsts with
    | nil =>
        intro seconds thirds
        cases seconds <;> cases thirds <;> constructor <;> simp [listOrder]
    | cons first firsts ih =>
        intro seconds thirds
        cases seconds with
        | nil => cases thirds <;> constructor <;> simp [listOrder]
        | cons second seconds =>
            cases thirds with
            | nil => constructor <;> simp [listOrder, eq_comm]
            | cons third thirds =>
                exact (lawful.follows first second third).chain (ih seconds thirds)

theorem all_equal_decide [DecidableEq α] (firsts seconds : List α) :
    allEqual (fun first second => decide (first = second)) firsts seconds =
      decide (firsts = seconds) := by
  induction firsts generalizing seconds with
  | nil => cases seconds <;> rfl
  | cons first firsts ih =>
      cases seconds with
      | nil => rfl
      | cons second seconds => simp [allEqual, ih]

/-- `operator<` is a strict weak order, and `operator==` is its incomparability. -/
structure StrictWeakOrder (less equal : α → α → Bool) : Prop where
  irreflexive : ∀ value, less value value = false
  transitive : ∀ first second third, less first second = true → less second third = true →
    less first third = true
  incomparable : ∀ first second,
    (less first second = false ∧ less second first = false) ↔ equal first second = true
  equivalence : Equivalence fun first second => equal first second = true

theorem strict_weak_order {less equal : α → α → Bool} (lawful : Lawful order)
    (decides : ∀ first second, Decides (less first second) (less second first)
      (equal first second) (order first second)) : StrictWeakOrder less equal := by
  have self (value : α) : order value value = .eq := by
    have swapped := lawful.swap value value
    cases same : order value value with
    | lt =>
        rw [same] at swapped
        cases swapped
    | eq => rfl
    | gt =>
        rw [same] at swapped
        cases swapped
  constructor
  · intro value
    have here := (decides value value).less_iff
    rw [self value] at here
    simpa using here
  · intro first second third before after
    have one := (decides first second).less_iff.mp before
    have two := (decides second third).less_iff.mp after
    have follows := (lawful.follows first second third).same (one.trans two.symm)
    exact (decides first third).less_iff.mpr (follows.trans one)
  · intro first second
    obtain ⟨less, greater, equal, _⟩ | ⟨less, greater, equal, _⟩ | ⟨less, greater, equal, _⟩ :=
      decides_cases (decides first second) <;> simp [less, greater, equal]
  · constructor
    · intro value
      exact (decides value value).equal_iff.mpr (self value)
    · intro first second same
      have here := (decides first second).equal_iff.mp same
      refine (decides second first).equal_iff.mpr ?_
      rw [lawful.swap first second, here]
      rfl
    · intro first second third one two
      have here := (decides first second).equal_iff.mp one
      have there := (decides second third).equal_iff.mp two
      exact (decides first third).equal_iff.mpr
        (((lawful.follows first second third).left here).trans there)

end IceTouch.Comparison

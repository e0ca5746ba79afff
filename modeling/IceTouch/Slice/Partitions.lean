import IceTouch.Slice.ClassDefs
import Mathlib.Data.List.Pairwise
import Mathlib.Logic.Relation

/-!
# The partitions of an inheritance graph

`checkBasesAreLegal` searches the definitions that a list of bases reaches and divides them into
partitions, each of which lies above one of them. A definition reached again is not added again.
Two operations of different partitions are compared, so that every clash of two operations is
found where no base has a clash of its own, and nothing else is.
-/

namespace IceTouch.Slice.Classes

open Bytes WireTypes Relation

variable {ι : Type} {unit : Definitions ι}

/-- `ancestor` is the definition or one of its direct and indirect bases. -/
def Above (unit : Definitions ι) (definition ancestor : ι) : Prop :=
  ReflTransGen (fun lower base => base ∈ unit.bases lower) definition ancestor

/-- One of the bases or of their direct and indirect bases. -/
def Reached (unit : Definitions ι) (bases : List ι) (definition : ι) : Prop :=
  ∃ base ∈ bases, Above unit base definition

variable {bases : List ι}

theorem reached_above {root definition : ι} (reached : Reached unit bases root)
    (above : Above unit root definition) : Reached unit bases definition := by
  obtain ⟨base, listed, upTo⟩ := reached
  exact ⟨base, listed, upTo.trans above⟩

/-- Two distinct definitions among those reached have operations with one name. -/
def OperationsClash (unit : Definitions ι) (bases : List ι) : Prop :=
  ∃ first second, Reached unit bases first ∧ Reached unit bases second ∧ first ≠ second ∧
    ∃ one ∈ operations unit first, ∃ other ∈ operations unit second,
      toLower one.name = toLower other.name

/-- Every partition lies above a definition that is reached, and no definition stands twice. -/
structure Divided (unit : Definitions ι) (bases : List ι) (gpl : List (List ι)) : Prop where
  once : gpl.flatten.Nodup
  rooted : ∀ partition ∈ gpl, ∃ root, Reached unit bases root ∧
    ∀ definition ∈ partition, Above unit root definition

structure Extends (unit : Definitions ι) (before after : List (List ι)) : Prop where
  kept : ∀ definition ∈ before.flatten, definition ∈ after.flatten
  closed : ∀ definition ∈ after.flatten, definition ∈ before.flatten ∨
    ∀ base ∈ unit.bases definition, base ∈ after.flatten

theorem Extends.refl (gpl : List (List ι)) : Extends unit gpl gpl where
  kept := fun _ listed => listed
  closed := fun _ listed => .inl listed

theorem Extends.trans {first second third : List (List ι)} (one : Extends unit first second)
    (two : Extends unit second third) : Extends unit first third where
  kept := fun definition listed => two.kept definition (one.kept definition listed)
  closed := by
    intro definition listed
    rcases two.closed definition listed with early | late
    · apply (one.closed definition early).imp_right
      intro bases base isBase
      exact two.kept base (bases base isBase)
    · exact .inr late

structure Adds (unit : Definitions ι) (bases : List ι) (definition : ι)
    (before after : List (List ι)) : Prop where
  divided : Divided unit bases after
  extended : Extends unit before after
  added : definition ∈ after.flatten

theorem extends_new (gpl : List (List ι)) : Extends unit gpl (gpl ++ [[]]) := by
  have same : (gpl ++ [[]]).flatten = gpl.flatten := by simp
  constructor
  · intro definition listed
    exact same ▸ listed
  · intro definition listed
    exact .inl (same ▸ listed)

theorem adds_all {bases definitions : List ι} (add : List (List ι) → ι → List (List ι))
    (adds : ∀ definition ∈ definitions, ∀ gpl, Divided unit bases gpl →
      Adds unit bases definition gpl (add gpl definition)) :
    ∀ gpl, Divided unit bases gpl →
      Divided unit bases (definitions.foldl add gpl) ∧
        Extends unit gpl (definitions.foldl add gpl) ∧
        ∀ definition ∈ definitions, definition ∈ (definitions.foldl add gpl).flatten := by
  induction definitions with
  | nil => exact fun gpl divided => ⟨divided, .refl gpl, by simp⟩
  | cons definition rest ih =>
      intro gpl divided
      have here := adds definition List.mem_cons_self gpl divided
      have more := ih (fun next listed => adds next (List.mem_cons_of_mem definition listed))
        (add gpl definition) here.divided
      apply And.intro more.1
      apply And.intro (here.extended.trans more.2.1)
      intro next listed
      rcases List.mem_cons.mp listed with rfl | later
      · exact more.2.1.kept next here.added
      · exact more.2.2 next later

theorem divided_new {gpl : List (List ι)} {definition : ι} (divided : Divided unit bases gpl)
    (reached : Reached unit bases definition) :
    Divided unit bases (gpl ++ [[]]) where
  once := by simpa using divided.once
  rooted := by
    intro partition listed
    rcases List.mem_append.mp listed with old | fresh
    · exact divided.rooted partition old
    · rw [List.mem_singleton.mp fresh]
      exact ⟨definition, reached, by simp⟩

theorem push_back_last (front : List (List ι)) (tail : List ι) (base : ι) :
    pushBack (front ++ [tail]) base = front ++ [tail ++ [base]] := by
  induction front with
  | nil => rfl
  | cons partition rest ih =>
      cases rest with
      | nil => rfl
      | cons next rest => exact congrArg (partition :: ·) ih

theorem divided_push {tail : List ι} {front : List (List ι)} {root base : ι}
    (divided : Divided unit bases (front ++ [tail])) (reached : Reached unit bases root)
    (within : ∀ definition ∈ tail, Above unit root definition) (above : Above unit root base)
    (fresh : base ∉ (front ++ [tail]).flatten) :
    Divided unit bases (front ++ [tail ++ [base]]) where
  once := by
    have appended : (front ++ [tail ++ [base]]).flatten = (front ++ [tail]).flatten ++ [base] := by
      simp
    rw [appended]
    apply List.Nodup.append divided.once (List.nodup_singleton base)
    exact List.disjoint_singleton.mpr fresh
  rooted := by
    intro partition listed
    rcases List.mem_append.mp listed with old | last
    · exact divided.rooted partition (List.mem_append_left [tail] old)
    · rw [List.mem_singleton.mp last]
      refine ⟨root, reached, ?_⟩
      intro definition member
      rcases List.mem_append.mp member with early | added
      · exact within definition early
      · rw [List.mem_singleton.mp added]
        exact above

section Search

variable [DecidableEq ι]

theorem is_in_list_iff (gpl : List (List ι)) (cdp : ι) :
    isInList gpl cdp = true ↔ cdp ∈ gpl.flatten := by
  simp [isInList, List.mem_flatten]

/-- `addPartition` finds all that a definition reaches, when it is called with a last partition
whose root is below the definition. -/
theorem add_partition_adds {bases : List ι} (depth : Nat) (base : ι) (deep : unit.order base < depth)
    (front : List (List ι)) (tail : List ι) (root : ι)
    (divided : Divided unit bases (front ++ [tail])) (reached : Reached unit bases root)
    (within : ∀ definition ∈ tail, Above unit root definition) (above : Above unit root base) :
    Adds unit bases base (front ++ [tail]) (addPartition unit depth (front ++ [tail]) base) := by
  induction depth generalizing base front tail root with
  | zero => exact absurd deep (Nat.not_lt_zero _)
  | succ depth ih =>
      have deeper : ∀ grandBase ∈ unit.bases base, unit.order grandBase < depth := by
        intro grandBase isBase
        have earlier := unit.ordered base grandBase isBase
        omega
      have higher : ∀ grandBase ∈ unit.bases base, Above unit root grandBase :=
        fun grandBase isBase => above.tail isBase
      rw [addPartition]
      by_cases known : isInList (front ++ [tail]) base = true
      · rw [if_pos known]
        exact ⟨divided, .refl _, (is_in_list_iff _ base).mp known⟩
      · have fresh : base ∉ (front ++ [tail]).flatten := fun old =>
          known ((is_in_list_iff _ base).mpr old)
        rw [if_neg known, push_back_last]
        have pushed := divided_push divided reached within above fresh
        have extended : ∀ definition, definition ∈ (front ++ [tail ++ [base]]).flatten ↔
            definition ∈ (front ++ [tail]).flatten ∨ definition = base := by
          intro definition
          simp [or_assoc]
        -- what is added after the definition itself closes it as well
        have finish : ∀ after, Divided unit bases after →
            Extends unit (front ++ [tail ++ [base]]) after →
            (∀ grandBase ∈ unit.bases base, grandBase ∈ after.flatten) →
            Adds unit bases base (front ++ [tail]) after := by
          intro after complete more covered
          refine ⟨complete, ⟨?_, ?_⟩, more.kept base ((extended base).mpr (.inr rfl))⟩
          · intro definition old
            exact more.kept definition ((extended definition).mpr (.inl old))
          · intro definition listed
            rcases more.closed definition listed with early | closed
            · rcases (extended definition).mp early with old | rfl
              · exact .inl old
              · exact .inr covered
            · exact .inr closed
        cases grandBases : unit.bases base with
        | nil =>
            apply finish _ pushed (.refl _)
            simp [grandBases]
        | cons first others =>
            have isFirst : first ∈ unit.bases base := by simp [grandBases]
            have isOther : ∀ other ∈ others, other ∈ unit.bases base := by
              intro other listed
              simp [grandBases, listed]
            have along := ih first (deeper first isFirst) front (tail ++ [base]) root pushed reached
              (by
                intro definition member
                rcases List.mem_append.mp member with early | added
                · exact within definition early
                · exact List.mem_singleton.mp added ▸ above)
              (higher first isFirst)
            have aside := @adds_all _ unit bases others
              (fun gpl grandBase => addPartition unit depth (gpl ++ [[]]) grandBase)
              (by
                intro other listed gpl soFar
                have otherReached := reached_above reached (higher other (isOther other listed))
                have added := ih other (deeper other (isOther other listed)) gpl [] other
                  (divided_new soFar otherReached) otherReached (by simp) .refl
                exact ⟨added.divided, (extends_new gpl).trans added.extended, added.added⟩)
              _ along.divided
            apply finish _ aside.1 (along.extended.trans aside.2.1)
            intro grandBase isBase
            rw [grandBases] at isBase
            rcases List.mem_cons.mp isBase with rfl | later
            · exact aside.2.1.kept grandBase along.added
            · exact aside.2.2 grandBase later

theorem partitions_reached (bases : List ι) :
    Divided unit bases (partitions unit bases) ∧
      ∀ definition, definition ∈ (partitions unit bases).flatten ↔ Reached unit bases definition := by
  have all := @adds_all _ unit bases bases
    (fun gpl base => addPartition unit (unit.order base + 1) (gpl ++ [[]]) base)
    (by
      intro base listed gpl soFar
      have reached : Reached unit bases base := ⟨base, listed, .refl⟩
      have added := add_partition_adds (unit.order base + 1) base (Nat.lt_succ_self _) gpl [] base
        (divided_new soFar reached) reached (by simp) .refl
      exact ⟨added.divided, (extends_new gpl).trans added.extended, added.added⟩)
    [] ⟨List.nodup_nil, by simp⟩
  have closed : ∀ definition ∈ (partitions unit bases).flatten,
      ∀ base ∈ unit.bases definition, base ∈ (partitions unit bases).flatten := by
    intro definition listed
    apply (all.2.1.closed definition listed).resolve_left
    simp
  apply And.intro all.1
  intro definition
  constructor
  · intro listed
    obtain ⟨partition, isPartition, member⟩ := List.mem_flatten.mp listed
    obtain ⟨root, reached, within⟩ := all.1.rooted partition isPartition
    exact reached_above reached (within definition member)
  · rintro ⟨base, listed, above⟩
    induction above with
    | refl => exact all.2.2 base listed
    | tail _ isBase ih => exact closed _ ih _ isBase

end Search

theorem pairs_iff (clash : Str × Str → Prop) (l : List (List Str)) :
    (∀ pair ∈ pairs l, clash pair) ↔
      l.Pairwise fun i j => ∀ s1 ∈ i, ∀ s2 ∈ j, clash (s1, s2) := by
  induction l with
  | nil => simp [pairs]
  | cons i rest ih =>
      rw [List.pairwise_cons, ← ih, pairs, List.forall_mem_append]
      apply and_congr_left
      intro _
      constructor
      · intro all j listed s1 first s2 second
        apply all
        apply List.mem_flatMap_of_mem listed
        apply List.mem_flatMap_of_mem first
        exact List.mem_map_of_mem second
      · intro all pair member
        obtain ⟨j, listed, inner⟩ := List.mem_flatMap.mp member
        obtain ⟨s1, first, last⟩ := List.mem_flatMap.mp inner
        obtain ⟨s2, second, rfl⟩ := List.mem_map.mp last
        exact all j listed s1 first s2 second

theorem check_pair_first (name : Str) (pair : Str × Str) :
    (toLower pair.1 ≠ toLower pair.2 → checkPair name ([], []) pair = ([], [])) ∧
      (toLower pair.1 = toLower pair.2 → (checkPair name ([], []) pair).2 ≠ []) := by
  constructor
  · intro differ
    have unequal : pair.1 ≠ pair.2 := fun same => differ (congrArg toLower same)
    have apart : ¬ (ciCompare pair.1 pair.2 = false ∧ ciCompare pair.2 pair.1 = false) := fun both =>
      differ ((ci_compare_neither pair.1 pair.2).mp both)
    rw [checkPair, if_neg (fun both => unequal both.1),
      if_neg (fun all => apart ⟨all.1, all.2.1⟩)]
  · intro same
    have both := (ci_compare_neither pair.1 pair.2).mpr same
    by_cases equal : pair.1 = pair.2
    · simp [checkPair, equal]
    · simp [checkPair, equal, both]

theorem check_pair_keeps (name : Str) (found : List Str × List SliceError) (pair : Str × Str) :
    ∃ more, (checkPair name found pair).2 = found.2 ++ more ∧
      ∀ error ∈ more, error.isAmbiguity = true := by
  rw [checkPair]
  split
  · exact ⟨[.ambiguous name pair.1], rfl, by simp [SliceError.isAmbiguity]⟩
  · split
    · exact ⟨[.ambiguousDiffers name pair.1 pair.2], rfl, by simp [SliceError.isAmbiguity]⟩
    · exact ⟨[], (List.append_nil _).symm, by simp⟩

theorem check_pairs_keep (name : Str) (tested : List (Str × Str))
    (found : List Str × List SliceError) :
    ∃ more, (tested.foldl (checkPair name) found).2 = found.2 ++ more ∧
      ∀ error ∈ more, error.isAmbiguity = true := by
  induction tested generalizing found with
  | nil => exact ⟨[], (List.append_nil _).symm, by simp⟩
  | cons pair rest ih =>
      obtain ⟨first, here, firstAre⟩ := check_pair_keeps name found pair
      obtain ⟨later, there, laterAre⟩ := ih (checkPair name found pair)
      refine ⟨first ++ later, ?_, List.forall_mem_append.mpr ⟨firstAre, laterAre⟩⟩
      rw [List.foldl_cons, there, here, List.append_assoc]

/-- Nothing is reported exactly when no two names of different lists are equal ignoring case. -/
theorem check_pair_intersections_nil (l : List (List Str)) (name : Str) :
    checkPairIntersections l name = [] ↔
      l.Pairwise fun i j => ∀ s1 ∈ i, ∀ s2 ∈ j, toLower s1 ≠ toLower s2 := by
  rw [← pairs_iff (fun pair => toLower pair.1 ≠ toLower pair.2), checkPairIntersections]
  induction pairs l with
  | nil => simp
  | cons pair rest ih =>
      rw [List.foldl_cons, List.forall_mem_cons, ← ih]
      by_cases same : toLower pair.1 = toLower pair.2
      · obtain ⟨more, kept, _⟩ := check_pairs_keep name rest (checkPair name ([], []) pair)
        have found := (check_pair_first name pair).2 same
        simp [kept, found, same]
      · rw [(check_pair_first name pair).1 same]
        exact ⟨fun none => ⟨same, none⟩, And.right⟩

def Apart (unit : Definitions ι) (i j : List ι) : Prop :=
  ∀ first ∈ i, ∀ second ∈ j, ∀ one ∈ operations unit first, ∀ other ∈ operations unit second,
    toLower one.name ≠ toLower other.name

instance : Std.Symm (Apart unit) where
  symm _ _ apart second inSecond first inFirst other isOther one isOne :=
    (apart first inFirst second inSecond one isOne other isOther).symm

theorem partitions_apart (gpl : List (List ι)) :
    ((toStringPartitionList unit gpl).Pairwise fun i j => ∀ s1 ∈ i, ∀ s2 ∈ j, toLower s1 ≠ toLower s2) ↔
      gpl.Pairwise (Apart unit) := by
  rw [toStringPartitionList, List.pairwise_map]
  apply iff_of_eq
  congr 1
  funext i j
  apply propext
  constructor
  · intro apart first inFirst second inSecond one isOne other isOther
    apply apart
    · exact List.mem_flatMap_of_mem inFirst (List.mem_map_of_mem isOne)
    · exact List.mem_flatMap_of_mem inSecond (List.mem_map_of_mem isOther)
  · intro apart s1 inFirst s2 inSecond
    obtain ⟨first, isFirst, here⟩ := List.mem_flatMap.mp inFirst
    obtain ⟨second, isSecond, there⟩ := List.mem_flatMap.mp inSecond
    obtain ⟨one, isOne, rfl⟩ := List.mem_map.mp here
    obtain ⟨other, isOther, rfl⟩ := List.mem_map.mp there
    exact apart first isFirst second isSecond one isOne other isOther

section Clashes

variable [DecidableEq ι]

def Reports (unit : Definitions ι) (name : Str) (isInterface isLocal : Bool) (bases : List ι) : Prop :=
  ∃ error ∈ checkBasesAreLegal unit name isInterface isLocal bases, error.isAmbiguity = true

/-- An ambiguity is reported when there are several bases and two partitions have a common name. -/
theorem reports_iff (name : Str) (isInterface isLocal : Bool) (bases : List ι) :
    Reports unit name isInterface isLocal bases ↔
      1 < bases.length ∧
        checkPairIntersections (toStringPartitionList unit (partitions unit bases)) name ≠ [] := by
  obtain ⟨found, same, ambiguities⟩ := check_pairs_keep name
    (pairs (toStringPartitionList unit (partitions unit bases))) ([], [])
  have all : checkPairIntersections (toStringPartitionList unit (partitions unit bases)) name = found :=
    same.trans (List.nil_append found)
  rw [Reports, checkBasesAreLegal, all]
  constructor
  · rintro ⟨error, listed, ambiguity⟩
    rcases List.mem_append.mp listed with localBase | intersection
    · obtain ⟨base, _, rfl⟩ := List.mem_map.mp localBase
      cases ambiguity
    · by_cases several : 1 < bases.length
      · rw [if_pos several] at intersection
        exact ⟨several, List.ne_nil_of_mem intersection⟩
      · rw [if_neg several] at intersection
        cases intersection
  · rintro ⟨several, some⟩
    obtain ⟨error, listed⟩ := List.exists_mem_of_ne_nil found some
    refine ⟨error, List.mem_append_right _ ?_, ambiguities error listed⟩
    rw [if_pos several]
    exact listed

/-- Where no base has a clash of its own, an ambiguity is reported exactly when two operations
of different definitions clash. -/
theorem reports_operations_clash {name : Str} {isInterface isLocal : Bool} {bases : List ι}
    (unambiguous : ∀ base ∈ bases, ¬ OperationsClash unit [base]) :
    Reports unit name isInterface isLocal bases ↔ OperationsClash unit bases := by
  obtain ⟨divided, found⟩ := @partitions_reached ι unit _ bases
  -- two definitions above one of those reached lie above one base
  have together : ∀ root first second, Reached unit bases root → Above unit root first →
      Above unit root second → first ≠ second → ∀ one ∈ operations unit first,
      ∀ other ∈ operations unit second, toLower one.name ≠ toLower other.name := by
    rintro root first second ⟨base, listed, upTo⟩ toFirst toSecond distinct one isOne other isOther same
    apply unambiguous base listed
    exact ⟨first, second, ⟨base, List.mem_singleton_self base, upTo.trans toFirst⟩,
      ⟨base, List.mem_singleton_self base, upTo.trans toSecond⟩, distinct,
      one, isOne, other, isOther, same⟩
  rw [reports_iff]
  constructor
  · rintro ⟨_, clash⟩
    by_contra none
    apply clash
    rw [check_pair_intersections_nil, partitions_apart]
    apply (List.nodup_flatten.mp divided.once).2.imp_of_mem
    intro i j inI inJ disjoint first inFirst second inSecond one isOne other isOther same
    have distinct : first ≠ second := fun equal => disjoint inFirst (equal ▸ inSecond)
    apply none
    exact ⟨first, second, (found first).mp (List.mem_flatten_of_mem inI inFirst),
      (found second).mp (List.mem_flatten_of_mem inJ inSecond), distinct,
      one, isOne, other, isOther, same⟩
  · rintro ⟨first, second, toFirst, toSecond, distinct, one, isOne, other, isOther, same⟩
    constructor
    · by_contra single
      obtain ⟨base, listed, upTo⟩ := toFirst
      obtain ⟨next, nextListed, nextUpTo⟩ := toSecond
      have equal : next = base := by
        have short : bases.length ≤ 1 := Nat.le_of_not_lt single
        match bases, short, listed, nextListed with
        | [only], _, listed, nextListed =>
            exact (List.mem_singleton.mp nextListed).trans (List.mem_singleton.mp listed).symm
      exact together base first second ⟨base, listed, .refl⟩ upTo (equal ▸ nextUpTo) distinct
        one isOne other isOther same
    · intro none
      rw [check_pair_intersections_nil, partitions_apart] at none
      obtain ⟨i, inI, inFirst⟩ := List.mem_flatten.mp ((found first).mpr toFirst)
      obtain ⟨j, inJ, inSecond⟩ := List.mem_flatten.mp ((found second).mpr toSecond)
      by_cases equal : i = j
      · obtain ⟨root, reached, within⟩ := divided.rooted j inJ
        exact together root first second reached (within first (equal ▸ inFirst))
          (within second inSecond) distinct one isOne other isOther same
      · exact none.forall inI inJ equal first inFirst second inSecond one isOne other isOther same

end Clashes

end IceTouch.Slice.Classes

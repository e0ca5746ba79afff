import IceTouch.Slice.Partitions

/-!
# Ambiguous multiple inheritance

What an accepted definition creates has none of the names that it inherits, so that an accepted
definition has no two operations with one name, and the search for an ambiguity finds every clash
of two operations. Data members are never compared, although the comment on the partitions names
them: a data member of a class and an operation of an interface that has nothing to do with the
class may have one name, and the class that extends the one and implements the other is accepted.
-/

namespace IceTouch.Slice.Classes

open Bytes WireTypes Escape Relation

variable {ι : Type} {unit : Definitions ι}

/-- Two distinct definitions among those reached have operations or data members with one name. -/
def Ambiguous (unit : Definitions ι) (bases : List ι) : Prop :=
  ∃ first second, Reached unit bases first ∧ Reached unit bases second ∧ first ≠ second ∧
    ∃ one ∈ unit.contents first, ∃ other ∈ unit.contents second,
      toLower one.name = toLower other.name

/-- A data member of a class and an operation of an interface have one name, and neither is
reached from the other. -/
def Crossed (unit : Definitions ι) (bases : List ι) : Prop :=
  ∃ first second, Reached unit bases first ∧ Reached unit bases second ∧
    unit.isInterface first = false ∧ unit.isInterface second = true ∧
    ¬ Above unit first second ∧ ¬ Above unit second first ∧
    ∃ one ∈ dataMembers unit first, ∃ other ∈ operations unit second,
      toLower one.name = toLower other.name

def Derives (unit : Definitions ι) (definition base : ι) : Prop :=
  base ∈ unit.bases definition ∧ unit.isInterface base = false

theorem above_class {definition ancestor : ι} (above : Above unit definition ancestor)
    (isClass : unit.isInterface ancestor = false) :
    unit.isInterface definition = false ∧ ReflTransGen (Derives unit) definition ancestor := by
  induction above with
  | refl => exact ⟨isClass, .refl⟩
  | @tail middle ancestor _ isBase ih =>
      have middleClass : unit.isInterface middle = false := by
        by_contra interface
        have inherited := unit.extended middle (Bool.eq_true_of_not_eq_false interface) ancestor isBase
        rw [isClass] at inherited
        cases inherited
      exact ⟨(ih middleClass).1, (ih middleClass).2.tail ⟨isBase, isClass⟩⟩

theorem class_first {bases : List ι} (implemented : ∀ base ∈ bases.tail, unit.isInterface base = true)
    {base : ι} (listed : base ∈ bases) (isClass : unit.isInterface base = false) :
    bases.head? = some base := by
  cases bases with
  | nil => cases listed
  | cons first rest =>
      rcases List.mem_cons.mp listed with rfl | later
      · rfl
      · have interface := implemented base later
        rw [isClass] at interface
        cases interface

theorem derives_unique (unit : Definitions ι) : Relator.RightUnique (Derives unit) := by
  intro definition first second one other
  have head := class_first (unit.implemented definition) one.1 one.2
  rw [class_first (unit.implemented definition) other.1 other.2] at head
  exact (Option.some.inj head).symm

theorem classes_chained {bases : List ι}
    (implemented : ∀ base ∈ bases.tail, unit.isInterface base = true) {first second : ι}
    (toFirst : Reached unit bases first) (toSecond : Reached unit bases second)
    (firstClass : unit.isInterface first = false) (secondClass : unit.isInterface second = false) :
    Above unit first second ∨ Above unit second first := by
  obtain ⟨base, listed, upTo⟩ := toFirst
  obtain ⟨next, nextListed, nextUpTo⟩ := toSecond
  have one := above_class upTo firstClass
  have other := above_class nextUpTo secondClass
  have head := class_first implemented listed one.1
  rw [class_first implemented nextListed other.1] at head
  have same : next = base := Option.some.inj head
  subst same
  have climb : ∀ {lower upper : ι}, ReflTransGen (Derives unit) lower upper → Above unit lower upper :=
    fun derived => derived.lift id fun _ _ step => step.1
  exact (ReflTransGen.total_of_right_unique (derives_unique unit) one.2 other.2).imp climb climb

theorem mem_operations {definition : ι} {operation : Contained} :
    operation ∈ operations unit definition ↔
      operation ∈ unit.contents definition ∧ operation.kind = .operation := by
  simp [operations]

theorem mem_data_members {definition : ι} {member : Contained} :
    member ∈ dataMembers unit definition ↔
      member ∈ unit.contents definition ∧ member.kind = .dataMember := by
  simp [dataMembers]

theorem all_data_members_above {definition ancestor : ι} {member : Contained}
    (above : Above unit definition ancestor) (isClass : unit.isInterface ancestor = false)
    (isMember : member ∈ dataMembers unit ancestor) : member ∈ allDataMembers unit definition := by
  have derived := (above_class above isClass).2
  clear above
  have deep : ∀ depth, unit.order definition < depth → member ∈ dataMembersTo unit depth definition := by
    induction derived using ReflTransGen.head_induction_on with
    | refl =>
        intro depth enough
        obtain ⟨depth, rfl⟩ := Nat.exists_eq_succ_of_ne_zero (Nat.ne_zero_of_lt enough)
        exact List.mem_append_right _ isMember
    | @head lower base derives _ ih =>
        intro depth enough
        obtain ⟨depth, rfl⟩ := Nat.exists_eq_succ_of_ne_zero (Nat.ne_zero_of_lt enough)
        have earlier := unit.ordered lower base derives.1
        have first := class_first (unit.implemented lower) derives.1 derives.2
        rw [dataMembersTo, first]
        apply List.mem_append_left
        simp only [derives.2, Bool.false_eq_true, ↓reduceIte]
        exact ih depth (by omega)
  exact deep _ (Nat.lt_succ_self _)

section Inherited

variable [DecidableEq ι] {definition : ι} {ignRedefs : Bool}

variable {ancestor : ι} {before after : List Contained}

theorem all_operations_above {operation : Contained} (above : Above unit definition ancestor)
    (isOperation : operation ∈ operations unit ancestor) :
    (ancestor, operation) ∈ allOperations unit definition := by
  have deep : ∀ depth, unit.order definition < depth →
      (ancestor, operation) ∈ operationsTo unit depth definition := by
    induction above using ReflTransGen.head_induction_on with
    | refl =>
        intro depth enough
        obtain ⟨depth, rfl⟩ := Nat.exists_eq_succ_of_ne_zero (Nat.ne_zero_of_lt enough)
        rw [operationsTo, List.mem_dedup]
        apply List.mem_append_left
        exact List.mem_map_of_mem isOperation
    | @head lower base isBase _ ih =>
        intro depth enough
        obtain ⟨depth, rfl⟩ := Nat.exists_eq_succ_of_ne_zero (Nat.ne_zero_of_lt enough)
        have earlier := unit.ordered lower base isBase
        rw [operationsTo, List.mem_dedup]
        apply List.mem_append_right
        exact List.mem_flatMap_of_mem isBase (ih depth (by omega))
  exact deep _ (Nat.lt_succ_self _)

theorem inherited_above {base : ι} {contained : Contained} (isBase : base ∈ unit.bases definition)
    (above : Above unit base ancestor) (defined : contained ∈ unit.contents ancestor)
    (proper : contained.kind = .dataMember → unit.isInterface ancestor = false) :
    contained ∈ inherited unit definition := by
  apply List.mem_flatMap_of_mem isBase
  cases kind : contained.kind with
  | operation =>
      have isOperation := mem_operations.mpr ⟨defined, kind⟩
      apply List.mem_append_left
      exact List.mem_map_of_mem (f := Prod.snd) (all_operations_above above isOperation)
  | dataMember =>
      have isMember := mem_data_members.mpr ⟨defined, kind⟩
      apply List.mem_append_right
      exact all_data_members_above above (proper kind) isMember

structure Fresh (unit : Definitions ι) (definition : ι) (contained : Contained) : Prop where
  named : ∀ q ∈ inherited unit definition, toLower q.name ≠ toLower contained.name
  placed : contained.kind = .dataMember → unit.isInterface definition = false

theorem and_then_nil {first next : Checked} (nothing : (first.andThen next).1 = [])
    (goes : (first.andThen next).2 = false) : first.1 = [] ∧ next.1 = [] ∧ next.2 = false := by
  rw [Checked.andThen] at nothing goes
  by_cases ends : first.2 = true
  · rw [if_pos ends] at goes
    rw [ends] at goes
    cases goes
  · rw [if_neg ends] at nothing goes
    exact ⟨(List.append_eq_nil_iff.mp nothing).1, (List.append_eq_nil_iff.mp nothing).2, goes⟩

theorem check_inherited_nil {kind : Kind} {name : Str} {bases : List Contained}
    (nothing : (checkInherited kind name bases).1 = []) :
    ∀ q ∈ bases, toLower q.name ≠ toLower name := by
  induction bases with
  | nil => simp
  | cons q rest ih =>
      rw [checkInherited] at nothing
      by_cases equal : q.name = name
      · rw [if_pos equal] at nothing
        cases nothing
      · rw [if_neg equal] at nothing
        by_cases alike : toLower q.name = toLower name
        · rw [if_pos alike] at nothing
          cases nothing
        · rw [if_neg alike] at nothing
          exact List.forall_mem_cons.mpr ⟨alike, ih nothing⟩

theorem check_names_nil {request : Request} (nothing : (checkNames unit definition request).1 = [])
    (goes : (checkNames unit definition request).2 = false) :
    ∀ q ∈ inherited unit definition, toLower q.name ≠ toLower request.name := by
  obtain ⟨_, quiet, on⟩ := and_then_nil nothing goes
  exact check_inherited_nil (and_then_nil quiet on).1

theorem create_fresh {request : Request}
    (made : create unit ignRedefs definition before request = ([], after)) :
    ∀ contained ∈ after, contained ∈ before ∨ Fresh unit definition contained := by
  -- the checks that do not return end with those of the names
  have appended : ∀ checked : Checked, created before request checked = ([], after) →
      (checked.1 = [] → checked.2 = false → Fresh unit definition ⟨request.kind, request.name⟩) →
      ∀ contained ∈ after, contained ∈ before ∨ Fresh unit definition contained := by
    intro checked result fresh contained listed
    obtain ⟨errors, contents⟩ := Prod.mk.inj result
    subst contents
    by_cases ends : checked.2 = true
    · rw [if_pos ends] at listed
      exact .inl listed
    · rw [if_neg ends] at listed
      rcases List.mem_append.mp listed with old | new
      · exact .inl old
      · rw [List.mem_singleton.mp new]
        exact .inr (fresh errors (Bool.eq_false_of_not_eq_true ends))
  rw [create] at made
  cases kind : request.kind with
  | operation =>
      rw [kind] at made
      apply appended _ made
      intro nothing goes
      obtain ⟨_, quiet, on⟩ := and_then_nil nothing goes
      obtain ⟨_, named, ended⟩ := and_then_nil quiet on
      exact ⟨check_names_nil named ended, fun member => by rw [kind] at member; cases member⟩
  | dataMember =>
      rw [kind] at made
      apply appended _ made
      intro nothing goes
      obtain ⟨_, quiet, on⟩ := and_then_nil nothing goes
      cases excluded : request.excluded with
      | some message =>
          rw [excluded] at quiet
          cases quiet
      | none =>
          rw [excluded] at quiet on
          by_cases interface : unit.isInterface definition = true
          · simp only [interface, ↓reduceIte] at quiet
            cases quiet
          · simp only [interface, Bool.false_eq_true, ↓reduceIte] at quiet on
            obtain ⟨_, named, ended⟩ := and_then_nil quiet on
            exact ⟨check_names_nil named ended, fun _ => Bool.eq_false_of_not_eq_true interface⟩

theorem create_all_fresh {requests : List Request}
    (made : createAll unit ignRedefs definition before requests = ([], after))
    (fresh : ∀ contained ∈ before, Fresh unit definition contained) :
    ∀ contained ∈ after, Fresh unit definition contained := by
  induction requests generalizing before with
  | nil => exact (Prod.mk.inj made).2 ▸ fresh
  | cons request rest ih =>
      rw [createAll] at made
      obtain ⟨nothing, final⟩ := Prod.mk.inj made
      obtain ⟨here, later⟩ := List.append_eq_nil_iff.mp nothing
      apply ih (Prod.ext later final)
      intro contained listed
      rcases create_fresh (Prod.ext here rfl) contained listed with old | new
      · exact fresh contained old
      · exact new

section

variable (accepted : Accepted unit ignRedefs definition)

include accepted

theorem accepted_fresh :
    ∀ contained ∈ unit.contents definition, Fresh unit definition contained := by
  cases accepted with
  | defined _ requests _ _ contents => exact create_all_fresh contents (by simp)

theorem accepted_above (above : Above unit definition ancestor) :
    Accepted unit ignRedefs ancestor := by
  induction above with
  | refl => exact accepted
  | tail _ isBase ih =>
      cases ih with
      | defined _ _ bases _ _ => exact bases _ isBase

/-- Nothing that an accepted definition contains has the name of what an ancestor contains. -/
theorem accepted_apart (above : Above unit definition ancestor) (distinct : definition ≠ ancestor)
    {one other : Contained} (isOne : one ∈ unit.contents definition)
    (isOther : other ∈ unit.contents ancestor) : toLower one.name ≠ toLower other.name := by
  have placed := (accepted_fresh (accepted_above accepted above) other isOther).placed
  rcases above.cases_head with equal | ⟨base, isBase, upTo⟩
  · exact absurd equal distinct
  · apply Ne.symm
    exact (accepted_fresh accepted one isOne).named other (inherited_above isBase upTo isOther placed)

theorem accepted_unambiguous : ¬ OperationsClash unit [definition] := by
  induction accepted with
  | defined definition requests bases legal contents ih =>
      have accepted : Accepted unit ignRedefs definition := .defined definition requests bases legal contents
      have upwards : ∀ ancestor, Reached unit [definition] ancestor → Above unit definition ancestor := by
        rintro ancestor ⟨base, listed, above⟩
        exact List.mem_singleton.mp listed ▸ above
      rintro ⟨first, second, toFirst, toSecond, distinct, one, isOne, other, isOther, same⟩
      have here := (mem_operations.mp isOne).1
      have there := (mem_operations.mp isOther).1
      rcases (upwards first toFirst).cases_head with rfl | ⟨base, isBase, upTo⟩
      · exact accepted_apart accepted (upwards second toSecond) distinct here there same
      · rcases (upwards second toSecond).cases_head with rfl | ⟨next, isNext, nextUpTo⟩
        · exact accepted_apart accepted (upwards first toFirst) (Ne.symm distinct) there here same.symm
        · have clash : OperationsClash unit (unit.bases definition) :=
            ⟨first, second, ⟨base, isBase, upTo⟩, ⟨next, isNext, nextUpTo⟩, distinct,
              one, isOne, other, isOther, same⟩
          obtain ⟨error, listed, _⟩ := (reports_operations_clash ih).mpr clash
          rw [legal] at listed
          cases listed

end

/-- Besides two operations, only a data member and an operation of unrelated definitions clash. -/
theorem ambiguous_iff {bases : List ι} (accepted : ∀ base ∈ bases, Accepted unit ignRedefs base)
    (implemented : ∀ base ∈ bases.tail, unit.isInterface base = true) :
    Ambiguous unit bases ↔ OperationsClash unit bases ∨ Crossed unit bases := by
  have reached : ∀ definition, Reached unit bases definition → Accepted unit ignRedefs definition := by
    rintro definition ⟨base, listed, above⟩
    exact accepted_above (accepted base listed) above
  -- a data member clashes with an operation of an unrelated interface only
  have member : ∀ first second, Reached unit bases first → Reached unit bases second →
      first ≠ second → ∀ one ∈ unit.contents first, ∀ other ∈ unit.contents second,
      one.kind = .dataMember → toLower one.name = toLower other.name → Crossed unit bases := by
    intro first second toFirst toSecond distinct one isOne other isOther kind same
    have firstClass := (accepted_fresh (reached first toFirst) one isOne).placed kind
    have notAbove : ¬ Above unit first second := fun above =>
      accepted_apart (reached first toFirst) above distinct isOne isOther same
    have notBelow : ¬ Above unit second first := fun above =>
      accepted_apart (reached second toSecond) above (Ne.symm distinct) isOther isOne same.symm
    have interface : unit.isInterface second = true := by
      by_contra notInterface
      have secondClass := Bool.eq_false_of_not_eq_true notInterface
      rcases classes_chained implemented toFirst toSecond firstClass secondClass with above | below
      · exact notAbove above
      · exact notBelow below
    have operation : other.kind = .operation := by
      cases otherKind : other.kind with
      | operation => rfl
      | dataMember =>
          have placed := (accepted_fresh (reached second toSecond) other isOther).placed otherKind
          rw [interface] at placed
          cases placed
    exact ⟨first, second, toFirst, toSecond, firstClass, interface, notAbove, notBelow,
      one, mem_data_members.mpr ⟨isOne, kind⟩, other, mem_operations.mpr ⟨isOther, operation⟩, same⟩
  constructor
  · rintro ⟨first, second, toFirst, toSecond, distinct, one, isOne, other, isOther, same⟩
    cases oneKind : one.kind with
    | dataMember =>
        exact .inr (member first second toFirst toSecond distinct one isOne other isOther oneKind same)
    | operation =>
        cases otherKind : other.kind with
        | dataMember =>
            exact .inr (member second first toSecond toFirst (Ne.symm distinct) other isOther one isOne
              otherKind same.symm)
        | operation =>
            exact .inl ⟨first, second, toFirst, toSecond, distinct,
              one, mem_operations.mpr ⟨isOne, oneKind⟩, other, mem_operations.mpr ⟨isOther, otherKind⟩, same⟩
  · rintro (⟨first, second, toFirst, toSecond, distinct, one, isOne, other, isOther, same⟩ |
      ⟨first, second, toFirst, toSecond, isClass, interface, _, _, one, isOne, other, isOther, same⟩)
    · exact ⟨first, second, toFirst, toSecond, distinct, one, (mem_operations.mp isOne).1,
        other, (mem_operations.mp isOther).1, same⟩
    · have distinct : first ≠ second := by
        rintro rfl
        rw [isClass] at interface
        cases interface
      exact ⟨first, second, toFirst, toSecond, distinct, one, (mem_data_members.mp isOne).1,
        other, (mem_operations.mp isOther).1, same⟩

/-- An ambiguity is reported exactly where there is one, unless the only clashes are those of a
data member of a class and an operation of an interface unrelated to it. -/
theorem ambiguity_reported_iff {ignRedefs : Bool} {bases : List ι} (name : Str)
    (isInterface isLocal : Bool) (accepted : ∀ base ∈ bases, Accepted unit ignRedefs base)
    (implemented : ∀ base ∈ bases.tail, unit.isInterface base = true) :
    (Reports unit name isInterface isLocal bases ↔ Ambiguous unit bases) ↔
      (Crossed unit bases → OperationsClash unit bases) := by
  have found : Reports unit name isInterface isLocal bases ↔ OperationsClash unit bases :=
    reports_operations_clash fun base listed => accepted_unambiguous (accepted base listed)
  rw [found, ambiguous_iff accepted implemented]
  constructor
  · intro exact crossed
    exact exact.mpr (.inr crossed)
  · intro covered
    exact ⟨.inl, fun either => either.elim id covered⟩

end Inherited

/-- Two definitions with one name each: `interface I { void x(); }` and, before it,
`class B { int x; }` or `interface B { void x(); }`. -/
def sharedName (kind : Kind) : Definitions Bool where
  name definition := if definition then text "I" else text "B"
  isInterface definition := definition || kind = .operation
  isLocal _ := false
  bases _ := []
  contents definition := [⟨if definition then .operation else kind, text "x"⟩]
  order _ := 0
  ordered := by simp
  extended := by simp
  implemented := by simp

theorem shared_name_accepted (kind : Kind) (definition : Bool) :
    Accepted (sharedName kind) false definition := by
  apply Accepted.defined definition [⟨if definition then .operation else kind, text "x", none, [], []⟩]
  · simp [sharedName]
  · cases kind <;> cases definition <;> decide
  · cases kind <;> cases definition <;> decide

theorem shared_name_ambiguous (kind : Kind) : Ambiguous (sharedName kind) [false, true] :=
  ⟨false, true, ⟨false, by simp, .refl⟩, ⟨true, by simp, .refl⟩, by simp,
    ⟨kind, text "x"⟩, by simp [sharedName], ⟨.operation, text "x"⟩, by simp [sharedName], rfl⟩

/-- The class that extends the class and implements the interface is accepted. -/
theorem member_and_operation_unreported :
    (∀ base ∈ [false, true], Accepted (sharedName .dataMember) false base) ∧
      (∀ base ∈ [false, true].tail, (sharedName .dataMember).isInterface base = true) ∧
      ¬ (Reports (sharedName .dataMember) (text "C") false false [false, true] ↔
        Ambiguous (sharedName .dataMember) [false, true]) := by
  have unreported :
      checkBasesAreLegal (sharedName .dataMember) (text "C") false false [false, true] = [] := by
    decide
  refine ⟨fun base _ => shared_name_accepted .dataMember base, by decide, ?_⟩
  intro exact
  obtain ⟨error, listed, _⟩ := exact.mpr (shared_name_ambiguous .dataMember)
  rw [unreported] at listed
  cases listed

/-- The two operations are reported. -/
theorem two_operations_reported :
    Ambiguous (sharedName .operation) [false, true] ∧
      (Reports (sharedName .operation) (text "C") true false [false, true] ↔
        Ambiguous (sharedName .operation) [false, true]) := by
  apply And.intro (shared_name_ambiguous .operation)
  have clash : OperationsClash (sharedName .operation) [false, true] :=
    ⟨false, true, ⟨false, by simp, .refl⟩, ⟨true, by simp, .refl⟩, by simp,
      ⟨.operation, text "x"⟩, by decide, ⟨.operation, text "x"⟩, by decide, rfl⟩
  apply (ambiguity_reported_iff (text "C") true false
    (fun base _ => shared_name_accepted .operation base) (by decide)).mpr
  exact fun _ => clash

end IceTouch.Slice.Classes

import Mathlib.Data.List.Sort

/-!
# Sets as sorted sequences

Sorting, removal of duplicates and difference of sorted sequences, as the algorithms of that name
do it. A comparison orders the elements by a view of them; elements with the same view
are not told apart.
-/

namespace IceTouch.SortedSets

variable {α κ : Type}

/-- `less` is a strict total order on the values of `view`. -/
structure OrderedBy (less : α → α → Bool) (view : α → κ) : Prop where
  irreflexive : ∀ {first second}, view first = view second → less first second = false
  transitive : ∀ {first second third}, less first second = true → less second third = true →
    less first third = true
  total : ∀ {first second}, view first ≠ view second →
    less first second = true ∨ less second first = true

namespace OrderedBy

variable {less : α → α → Bool} {view : α → κ}

section

variable (ordered : OrderedBy less view)

include ordered

variable {first second : α}

theorem view_ne (before : less first second = true) : view first ≠ view second := by
  intro same
  rw [ordered.irreflexive same] at before
  cases before

theorem asymmetric (before : less first second = true) : less second first = false := by
  cases after : less second first with
  | false => rfl
  | true =>
      have loop := ordered.transitive before after
      rw [ordered.irreflexive rfl] at loop
      cases loop

theorem view_eq (before : less first second = false) (after : less second first = false) :
    view first = view second := by
  by_contra different
  obtain one | two := ordered.total different
  · rw [before] at one
    cases one
  · rw [after] at two
    cases two

/-- What is not after `second` is before all that is after `second`. -/
theorem trans_left {third : α} (before : less second first = false)
    (after : less second third = true) : less first third = true := by
  by_cases same : view first = view third
  · cases back : less third first with
    | true =>
        rw [ordered.transitive after back] at before
        cases before
    | false =>
        have apart : view first ≠ view second := by
          rw [same]
          exact (ordered.view_ne after).symm
        obtain one | two := ordered.total apart
        · exact ordered.transitive one after
        · rw [before] at two
          cases two
  · obtain one | two := ordered.total same
    · exact one
    · rw [ordered.transitive after two] at before
      cases before

end

/-- Ranks that are alike where the views are. -/
theorem of_rank {ρ : Type} [LinearOrder ρ] {rank : α → ρ} {view : α → κ}
    (tells : ∀ first second, rank first = rank second ↔ view first = view second) :
    OrderedBy (fun first second => rank first < rank second) view where
  irreflexive same := decide_eq_false (((tells _ _).mpr same).not_lt)
  transitive one two := decide_eq_true ((of_decide_eq_true one).trans (of_decide_eq_true two))
  total {first second} different := by
    have apart : rank first ≠ rank second := fun same => different ((tells _ _).mp same)
    exact (lt_or_gt_of_ne apart).imp decide_eq_true decide_eq_true
end OrderedBy

/-- Sorted, and without duplicates. -/
def Sorted (less : α → α → Bool) (items : List α) : Prop :=
  items.Pairwise fun first second => less first second = true

def sort (less : α → α → Bool) (items : List α) : List α :=
  items.insertionSort fun first second => less second first = false

/-- What is left of the items that follow `last`. -/
def uniqueAfter (equal : α → α → Bool) (last : α) : List α → List α
  | [] => []
  | item :: items =>
      if equal last item then uniqueAfter equal last items
      else item :: uniqueAfter equal item items

def unique (equal : α → α → Bool) : List α → List α
  | [] => []
  | item :: items => item :: uniqueAfter equal item items

/-- The step of `setDifference` for the first element, with what follows it given. -/
def differenceWith (less : α → α → Bool) (item : α) (items : List α)
    (rest : List α → List α) : List α → List α
  | [] => item :: items
  | other :: others =>
      if less item other then item :: rest (other :: others)
      else if less other item then differenceWith less item items rest others
      else rest others

def setDifference (less : α → α → Bool) : List α → List α → List α
  | [] => fun _ => []
  | item :: items => differenceWith less item items (setDifference less items)

def unionWith (less : α → α → Bool) (item : α) (items : List α)
    (rest : List α → List α) : List α → List α
  | [] => item :: items
  | other :: others =>
      if less item other then item :: rest (other :: others)
      else if less other item then other :: unionWith less item items rest others
      else item :: rest others

def setUnion (less : α → α → Bool) : List α → List α → List α
  | [] => fun others => others
  | item :: items => unionWith less item items (setUnion less items)

variable {less : α → α → Bool} {view : α → κ} {equal : α → α → Bool} {items others : List α}

variable {item : α}

theorem mem_sort : item ∈ sort less items ↔ item ∈ items :=
  List.mem_insertionSort _

theorem sort_pairwise (ordered : OrderedBy less view) :
    (sort less items).Pairwise fun first second => less second first = false := by
  have : Std.Total fun first second => less second first = false := by
    constructor
    intro first second
    cases before : less first second with
    | false => exact .inr rfl
    | true => exact .inl (ordered.asymmetric before)
  have : IsTrans α fun first second => less second first = false := by
    constructor
    intro first second third one two
    cases back : less third first with
    | false => rfl
    | true =>
        rw [ordered.trans_left two back] at one
        cases one
  exact List.pairwise_insertionSort _ _

/-- Items with different views are sorted into a set. -/
theorem sort_sorted (ordered : OrderedBy less view) (nodup : items.Nodup)
    (distinct : ∀ first ∈ items, ∀ second ∈ items, view first = view second → first = second) :
    Sorted less (sort less items) := by
  have apart : (sort less items).Nodup := (List.perm_insertionSort _ items).nodup_iff.mpr nodup
  have both := (sort_pairwise ordered).and apart
  apply List.Pairwise.imp_of_mem _ both
  rintro first second one two ⟨notAfter, different⟩
  have views : view first ≠ view second := fun same =>
    different (distinct first (mem_sort.mp one) second (mem_sort.mp two) same)
  obtain ahead | behind := ordered.total views
  · exact ahead
  · rw [notAfter] at behind
    cases behind

theorem mem_of_unique_after {last : α} (inside : item ∈ uniqueAfter equal last items) :
    item ∈ items := by
  induction items generalizing last with
  | nil => cases inside
  | cons first items ih =>
      rw [uniqueAfter] at inside
      split at inside
      · exact List.mem_cons_of_mem first (ih inside)
      · cases inside with
        | head => exact List.mem_cons_self
        | tail _ later => exact List.mem_cons_of_mem first (ih later)

theorem mem_of_unique (inside : item ∈ unique equal items) : item ∈ items := by
  cases items with
  | nil => cases inside
  | cons first items =>
      cases inside with
      | head => exact List.mem_cons_self
      | tail _ later => exact List.mem_cons_of_mem first (mem_of_unique_after later)

section

variable (same : ∀ first second, equal first second = true ↔ view first = view second)

include same

theorem unique_after_view {last item : α} (inside : item ∈ items) :
    view item = view last ∨ ∃ kept ∈ uniqueAfter equal last items, view kept = view item := by
  induction items generalizing last with
  | nil => cases inside
  | cons first items ih =>
      rw [uniqueAfter]
      split
      · next repeated =>
          cases inside with
          | head => exact .inl ((same last item).mp repeated).symm
          | tail _ later => exact ih later
      · right
        cases inside with
        | head => exact ⟨item, List.mem_cons_self, rfl⟩
        | tail _ later =>
            obtain here | ⟨kept, inside, viewed⟩ := @ih first later
            · exact ⟨first, List.mem_cons_self, here.symm⟩
            · exact ⟨kept, List.mem_cons_of_mem first inside, viewed⟩

theorem unique_view {item : α} (inside : item ∈ items) :
    ∃ kept ∈ unique equal items, view kept = view item := by
  cases items with
  | nil => cases inside
  | cons first items =>
      cases inside with
      | head => exact ⟨item, List.mem_cons_self, rfl⟩
      | tail _ later =>
          obtain here | ⟨kept, inside, viewed⟩ := @unique_after_view _ _ _ _ _ same first item later
          · exact ⟨first, List.mem_cons_self, here.symm⟩
          · exact ⟨kept, List.mem_cons_of_mem first inside, viewed⟩

theorem unique_after_sorted (ordered : OrderedBy less view) {last : α}
    (sorted : (last :: items).Pairwise fun first second => less second first = false) :
    Sorted less (last :: uniqueAfter equal last items) := by
  induction items generalizing last with
  | nil => exact List.pairwise_singleton _ last
  | cons first items ih =>
      obtain ⟨before, tail⟩ := List.pairwise_cons.mp sorted
      rw [uniqueAfter]
      split
      · apply ih
        apply List.pairwise_cons.mpr
        exact ⟨fun item inside => before item (List.mem_cons_of_mem first inside),
          (List.pairwise_cons.mp tail).2⟩
      · next different =>
          have kept := ih tail
          have next : less last first = true := by
            have apart : view last ≠ view first := fun viewed =>
              different ((same last first).mpr viewed)
            obtain one | two := ordered.total apart
            · exact one
            · rw [before first List.mem_cons_self] at two
              cases two
          apply List.pairwise_cons.mpr
          refine ⟨?_, kept⟩
          intro item inside
          cases inside with
          | head => exact next
          | tail _ later =>
              exact ordered.transitive next ((List.pairwise_cons.mp kept).1 item later)

theorem unique_sorted (ordered : OrderedBy less view)
    (sorted : items.Pairwise fun first second => less second first = false) :
    Sorted less (unique equal items) := by
  cases items with
  | nil => exact List.Pairwise.nil
  | cons first items => exact unique_after_sorted same ordered sorted

end

theorem difference_sublist : (setDifference less items others).Sublist items := by
  induction items generalizing others with
  | nil => exact List.Sublist.refl []
  | cons item items ih =>
      induction others with
      | nil => exact List.Sublist.refl _
      | cons other others inner =>
          rw [setDifference, differenceWith]
          split
          · exact ih.cons_cons item
          · split
            · exact inner
            · exact ih.cons item

theorem mem_difference (ordered : OrderedBy less view) (sorted : Sorted less items)
    (sortedOthers : Sorted less others) {sought : α} :
    sought ∈ setDifference less items others ↔
      sought ∈ items ∧ ∀ other ∈ others, view other ≠ view sought := by
  induction items generalizing others with
  | nil => simp [setDifference]
  | cons item items ih =>
      obtain ⟨first, tail⟩ := List.pairwise_cons.mp sorted
      induction others with
      | nil => simp [setDifference, differenceWith]
      | cons other others inner =>
          obtain ⟨firstOther, tailOther⟩ := List.pairwise_cons.mp sortedOthers
          rw [setDifference, differenceWith]
          split
          · next before =>
              -- `item` is before all of the others.
              have apart : ∀ found ∈ other :: others, view found ≠ view item := by
                intro found inside
                apply Ne.symm
                cases inside with
                | head => exact ordered.view_ne before
                | tail _ later =>
                    exact ordered.view_ne (ordered.transitive before (firstOther found later))
              rw [List.mem_cons, ih tail sortedOthers, List.mem_cons]
              constructor
              · rintro (rfl | ⟨inside, rest⟩)
                · exact ⟨.inl rfl, apart⟩
                · exact ⟨.inr inside, rest⟩
              · rintro ⟨rfl | inside, rest⟩
                · exact .inl rfl
                · exact .inr ⟨inside, rest⟩
          · next notBefore =>
              have notBefore : less item other = false := Bool.eq_false_iff.mpr notBefore
              split
              · next after =>
                  -- `other` is before all of the items.
                  have apart : ∀ found ∈ item :: items, view other ≠ view found := by
                    intro found inside
                    cases inside with
                    | head => exact ordered.view_ne after
                    | tail _ later =>
                        exact ordered.view_ne (ordered.transitive after (first found later))
                  have recursion := inner tailOther
                  rw [setDifference] at recursion
                  rw [recursion]
                  constructor
                  · rintro ⟨inside, rest⟩
                    refine ⟨inside, ?_⟩
                    intro found among
                    cases among with
                    | head => exact apart sought inside
                    | tail _ later => exact rest found later
                  · rintro ⟨inside, rest⟩
                    exact ⟨inside, fun found later => rest found (List.mem_cons_of_mem other later)⟩
              · next notAfter =>
                  have notAfter : less other item = false := Bool.eq_false_iff.mpr notAfter
                  have same := ordered.view_eq notBefore notAfter
                  rw [ih tail tailOther]
                  constructor
                  · rintro ⟨inside, rest⟩
                    refine ⟨List.mem_cons_of_mem item inside, ?_⟩
                    intro found among
                    cases among with
                    | head =>
                        rw [← same]
                        exact ordered.view_ne (first sought inside)
                    | tail _ later => exact rest found later
                  · rintro ⟨inside, rest⟩
                    refine ⟨?_, fun found later => rest found (List.mem_cons_of_mem other later)⟩
                    cases inside with
                    | head => exact absurd same.symm (rest other List.mem_cons_self)
                    | tail _ later => exact later

theorem mem_of_union {sought : α} (inside : sought ∈ setUnion less items others) :
    sought ∈ items ∨ sought ∈ others := by
  induction items generalizing others with
  | nil => exact .inr inside
  | cons item items ih =>
      induction others with
      | nil => exact .inl inside
      | cons other others inner =>
          rw [setUnion, unionWith] at inside
          split at inside
          · obtain rfl | later := List.mem_cons.mp inside
            · exact .inl List.mem_cons_self
            · exact (ih later).imp_left (List.mem_cons_of_mem item)
          · split at inside
            · obtain rfl | later := List.mem_cons.mp inside
              · exact .inr List.mem_cons_self
              · exact (inner later).imp_right (List.mem_cons_of_mem other)
            · obtain rfl | later := List.mem_cons.mp inside
              · exact .inl List.mem_cons_self
              · exact (ih later).imp (List.mem_cons_of_mem item) (List.mem_cons_of_mem other)

theorem mem_union_left {sought : α} (inside : sought ∈ items) :
    sought ∈ setUnion less items others := by
  induction items generalizing others with
  | nil => cases inside
  | cons item items ih =>
      induction others with
      | nil => exact inside
      | cons other others inner =>
          rw [setUnion, unionWith]
          obtain rfl | later := List.mem_cons.mp inside
          · split
            · exact List.mem_cons_self
            · split
              · exact List.mem_cons_of_mem other inner
              · exact List.mem_cons_self
          · split
            · exact List.mem_cons_of_mem item (ih later)
            · split
              · exact List.mem_cons_of_mem other inner
              · exact List.mem_cons_of_mem item (ih later)

theorem union_view (ordered : OrderedBy less view) {sought : α} (inside : sought ∈ others) :
    ∃ kept ∈ setUnion less items others, view kept = view sought := by
  induction items generalizing others with
  | nil => exact ⟨sought, inside, rfl⟩
  | cons item items ih =>
      induction others with
      | nil => cases inside
      | cons other others inner =>
          rw [setUnion, unionWith]
          split
          · obtain ⟨kept, among, same⟩ := ih inside
            exact ⟨kept, List.mem_cons_of_mem item among, same⟩
          · next notBefore =>
              split
              · cases inside with
                | head => exact ⟨sought, List.mem_cons_self, rfl⟩
                | tail _ later =>
                    obtain ⟨kept, among, same⟩ := inner later
                    exact ⟨kept, List.mem_cons_of_mem other among, same⟩
              · next notAfter =>
                  cases inside with
                  | head =>
                      have same := ordered.view_eq (Bool.eq_false_iff.mpr notBefore)
                        (Bool.eq_false_iff.mpr notAfter)
                      exact ⟨item, List.mem_cons_self, same⟩
                  | tail _ later =>
                      obtain ⟨kept, among, same⟩ := ih later
                      exact ⟨kept, List.mem_cons_of_mem item among, same⟩

theorem union_sorted (ordered : OrderedBy less view) (sorted : Sorted less items)
    (sortedOthers : Sorted less others) : Sorted less (setUnion less items others) := by
  induction items generalizing others with
  | nil => exact sortedOthers
  | cons item items ih =>
      obtain ⟨first, tail⟩ := List.pairwise_cons.mp sorted
      induction others with
      | nil => exact sorted
      | cons other others inner =>
          obtain ⟨firstOther, tailOther⟩ := List.pairwise_cons.mp sortedOthers
          rw [setUnion, unionWith]
          split
          · next before =>
              refine List.pairwise_cons.mpr ⟨?_, ih tail sortedOthers⟩
              intro found inside
              obtain mine | theirs := mem_of_union inside
              · exact first found mine
              · cases theirs with
                | head => exact before
                | tail _ later => exact ordered.transitive before (firstOther found later)
          · next notBefore =>
              have notBefore : less item other = false := Bool.eq_false_iff.mpr notBefore
              split
              · next after =>
                  refine List.pairwise_cons.mpr ⟨?_, inner tailOther⟩
                  intro found inside
                  obtain mine | theirs := @mem_of_union _ _ (item :: items) _ _ inside
                  · cases mine with
                    | head => exact after
                    | tail _ later => exact ordered.transitive after (first found later)
                  · exact firstOther found theirs
              · refine List.pairwise_cons.mpr ⟨?_, ih tail tailOther⟩
                intro found inside
                obtain mine | theirs := mem_of_union inside
                · exact first found mine
                · exact ordered.trans_left (Bool.eq_false_iff.mpr ‹¬_›) (firstOther found theirs)
/-- A finer order that a coarser one restricts sorts alike where the coarser view is distinct. -/
theorem sorted_restrict {coarse : α → α → Bool} {ι : Type} {identity : α → ι}
    (ordered : OrderedBy less view) (orderedCoarse : OrderedBy coarse identity)
    (restricts : ∀ {first second}, coarse first second = true → less first second = true)
    (distinct : ∀ first ∈ items, ∀ second ∈ items, identity first = identity second →
      view first = view second)
    (sorted : Sorted less items) : Sorted coarse items := by
  apply List.Pairwise.imp_of_mem _ sorted
  intro first second one two before
  have apart : identity first ≠ identity second := fun same =>
    ordered.view_ne before (distinct first one second two same)
  obtain ahead | behind := orderedCoarse.total apart
  · exact ahead
  · have loop := ordered.asymmetric before
    rw [restricts behind] at loop
    cases loop

end IceTouch.SortedSets

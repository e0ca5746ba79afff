import IceTouch.Metrics.Clearing

/-!
# The maps of one view

Whether an update leaves a map of a view as it is, and what an update of all of them leaves
behind: they are settled afterwards exactly where every map that was created was created clean.
-/

namespace IceTouch.Metrics

open Bytes ByteOrder WireTypes Escape OrderedMap
open Properties
open Proxies (dot)

variable {names : PropertyNames} {compile : Compiler} {viewName mapName : Str}
  {factory : MetricsMapFactory} {properties : PropertiesI names} {site : Site names}

def snapshot (mapName : Str) (maps : MetricsViewI) : Option (List (Str × Str)) :=
  (find mapName maps).map fun map => map.map.properties

/-- The map is as its properties want it. -/
def Settled (viewName mapName : Str) (properties : PropertiesI names) (maps : MetricsViewI) :
    Prop :=
  snapshot mapName maps = (wanted viewName mapName properties).map Prod.snd

def Creatable (compile : Compiler) (viewName mapName : Str) (factory : MetricsMapFactory)
    (properties : PropertiesI names) (maps : MetricsViewI) : Prop :=
  ∀ mapPrefix mapProps, wanted viewName mapName properties = some (mapPrefix, mapProps) →
    snapshot mapName maps ≠ some mapProps → Clean compile factory mapPrefix properties

section wanted

theorem map_prefix_under (viewName mapName : Str) (properties : PropertiesI names) :
    viewPrefix viewName <+: mapPrefixOf viewName mapName properties := by
  rw [mapPrefixOf]
  split
  · exact List.prefix_refl _
  · rw [mapsPrefix, List.append_assoc, List.append_assoc]
    exact List.prefix_append _ _

variable {mapProps : List (Str × Str)} {base : Str}

theorem wanted_under {mapPrefix : Str}
    (found : wanted viewName mapName properties = some (mapPrefix, mapProps)) :
    mapPrefix = mapPrefixOf viewName mapName properties ∧
      mapProps = properties.getPropertiesForPrefix mapPrefix := by
  rw [wanted] at found
  split at found
  · cases found
  · split at found
    · cases found
    · simp only [Option.some.injEq, Prod.mk.injEq] at found
      exact ⟨found.1.symm, by rw [← found.2, found.1]⟩

variable {before after : PropertiesI names}

theorem find_shrunk (shrinks : Shrinks base before after) (key : Str) :
    find key after.properties = find key before.properties ∨ find key after.properties = none := by
  cases found : find key after.properties with
  | none => exact .inr rfl
  | some value =>
      left
      have inside := shrinks.mem (mem_of_find found)
      exact (find_of_mem before.sorted inside).symm

theorem Shrinks.for_prefix_empty (shrinks : Shrinks base before after) {other : Str}
    (empty : before.getPropertiesForPrefix other = []) :
    after.getPropertiesForPrefix other = [] := by
  rw [List.eq_nil_iff_forall_not_mem] at empty ⊢
  intro entry inside
  obtain ⟨known, under⟩ := mem_prefix_entries.mp inside
  exact empty entry (mem_prefix_entries.mpr ⟨shrinks.mem known, under⟩)

theorem int_shrunk (shrinks : Shrinks base before after) {key : Str}
    (positive : 0 < getPropertyAsIntWithDefault key 0 after) :
    0 < getPropertyAsIntWithDefault key 0 before := by
  rw [getPropertyAsIntWithDefault] at positive ⊢
  obtain same | gone := find_shrunk shrinks key
  · rw [← same]
    exact positive
  · rw [gone] at positive
    exact absurd positive (by decide)

theorem map_prefix_shrunk (shrinks : Shrinks (mapPrefixOf viewName mapName before) before after)
    (left : after.getPropertiesForPrefix (mapPrefixOf viewName mapName before) ≠ []) :
    mapPrefixOf viewName mapName after = mapPrefixOf viewName mapName before ∧
      (after.getPropertiesForPrefix (mapsPrefix viewName)).isEmpty =
        (before.getPropertiesForPrefix (mapsPrefix viewName)).isEmpty := by
  by_cases empty : (before.getPropertiesForPrefix (mapsPrefix viewName)).isEmpty
  · have emptyToo : (after.getPropertiesForPrefix (mapsPrefix viewName)).isEmpty :=
      List.isEmpty_iff.mpr (shrinks.for_prefix_empty (List.isEmpty_iff.mp empty))
    rw [mapPrefixOf, mapPrefixOf, if_pos empty, if_pos emptyToo, empty, emptyToo]
    exact ⟨rfl, rfl⟩
  · have under : mapsPrefix viewName <+: mapsPrefix viewName ++ mapName ++ [dot] := by
      rw [List.append_assoc]
      exact List.prefix_append _ _
    rw [mapPrefixOf, if_neg empty] at left
    have someLeft := for_prefix_nonempty under left
    have notEmpty : ¬ (after.getPropertiesForPrefix (mapsPrefix viewName)).isEmpty := by
      rw [List.isEmpty_iff]
      exact someLeft
    rw [mapPrefixOf, mapPrefixOf, if_neg empty, if_neg notEmpty]
    exact ⟨rfl, (Bool.eq_false_iff.mpr notEmpty).trans (Bool.eq_false_iff.mpr empty).symm⟩

theorem still_wanted {mapPrefix : Str}
    (found : wanted viewName mapName before = some (mapPrefix, mapProps))
    (shrinks : Shrinks mapPrefix before after) (left : after.getPropertiesForPrefix mapPrefix ≠ []) :
    wanted viewName mapName after ≠ none := by
  rw [(wanted_under found).1] at shrinks left
  obtain ⟨samePrefix, sameUse⟩ := map_prefix_shrunk shrinks left
  rw [wanted] at found ⊢
  rw [samePrefix, sameUse]
  have notEmpty : (after.getPropertiesForPrefix
      (mapPrefixOf viewName mapName before)).isEmpty = false := by
    rw [Bool.eq_false_iff, ne_eq, List.isEmpty_iff]
    exact left
  rw [notEmpty, Bool.and_false]
  split at found
  · cases found
  · split at found
    · cases found
    · next enabled =>
        rw [if_neg Bool.false_ne_true, if_neg fun disabled => enabled (int_shrunk shrinks disabled)]
        simp

end wanted

section one

theorem add_or_update_settled
    (settled : Settled viewName mapName site.properties site.maps) :
    addOrUpdateMap compile viewName mapName factory site = (false, site) := by
  rw [Settled, snapshot] at settled
  rw [addOrUpdateMap]
  cases found : wanted viewName mapName site.properties with
  | none =>
      rw [found, Option.map_none, Option.map_eq_none_iff] at settled
      simp [settled]
  | some pair =>
      obtain ⟨mapPrefix, mapProps⟩ := pair
      rw [found, Option.map_some] at settled
      simp [settled]

theorem settled_of_unchanged
    (unchanged : (addOrUpdateMap compile viewName mapName factory site).1 = false) :
    Settled viewName mapName site.properties site.maps := by
  rw [Settled, snapshot]
  rw [addOrUpdateMap] at unchanged
  cases found : wanted viewName mapName site.properties with
  | none =>
      rw [found] at unchanged
      dsimp only at unchanged
      split at unchanged
      · cases unchanged
      · next absent => simpa using absent
  | some pair =>
      obtain ⟨mapPrefix, mapProps⟩ := pair
      rw [found] at unchanged
      dsimp only at unchanged
      split at unchanged
      · next same => exact same
      · split at unchanged
        · cases unchanged
        · cases unchanged

theorem shrinks_add_or_update (compile : Compiler) (viewName mapName : Str)
    (factory : MetricsMapFactory) (site : Site names) : Shrinks (viewPrefix viewName)
      site.properties (addOrUpdateMap compile viewName mapName factory site).2.properties := by
  rw [addOrUpdateMap]
  cases found : wanted viewName mapName site.properties with
  | none =>
      dsimp only
      split
      · exact shrinks_refl _ _
      · exact shrinks_refl _ _
  | some pair =>
      obtain ⟨mapPrefix, mapProps⟩ := pair
      have under := map_prefix_under viewName mapName site.properties
      rw [← (wanted_under found).1] at under
      have shrinks := shrinks_create compile factory site.created mapPrefix site.properties
      dsimp only
      split
      · exact shrinks_refl _ _
      · cases created : factory.create compile site.created mapPrefix site.properties with
        | mk result left =>
            rw [created] at shrinks
            cases result with
            | error message => exact shrinks.widen under
            | ok map => exact shrinks.widen under

theorem find_add_or_update {other : Str} (different : other ≠ mapName) :
    find other (addOrUpdateMap compile viewName mapName factory site).2.maps =
      find other site.maps := by
  rw [addOrUpdateMap]
  split
  · split
    · exact find_erase_ne different _
    · rfl
  · split
    · rfl
    · split
      · exact find_erase_ne different _
      · exact find_assign_ne different _ _

theorem settled_of_creatable
    (creatable : Creatable compile viewName mapName factory site.properties site.maps) :
    (addOrUpdateMap compile viewName mapName factory site).2.properties = site.properties ∧
      Settled viewName mapName site.properties
        (addOrUpdateMap compile viewName mapName factory site).2.maps := by
  by_cases settled : Settled viewName mapName site.properties site.maps
  · rw [add_or_update_settled settled]
    exact ⟨rfl, settled⟩
  · rw [addOrUpdateMap]
    rw [Settled, snapshot] at settled ⊢
    cases found : wanted viewName mapName site.properties with
    | none =>
        rw [found, Option.map_none, Option.map_eq_none_iff] at settled
        have present := Option.isSome_iff_ne_none.mpr settled
        dsimp only
        rw [if_pos present]
        exact ⟨rfl, by simp [find_erase]⟩
    | some pair =>
        obtain ⟨mapPrefix, mapProps⟩ := pair
        rw [found, Option.map_some] at settled
        have clean := creatable mapPrefix mapProps found settled
        obtain ⟨map, created⟩ : ∃ map, factory.create compile site.created mapPrefix
            site.properties = (.ok map, site.properties) := create_clean.mpr clean
        have snapshot := created_properties (congrArg Prod.fst created)
        dsimp only
        rw [if_neg settled, created]
        refine ⟨rfl, ?_⟩
        dsimp only
        rw [find_assign, Option.map_some, snapshot, Option.map_some, (wanted_under found).2]

theorem creatable_of_settled
    (settled : Settled viewName mapName
      (addOrUpdateMap compile viewName mapName factory site).2.properties
      (addOrUpdateMap compile viewName mapName factory site).2.maps) :
    Creatable compile viewName mapName factory site.properties site.maps := by
  intro mapPrefix mapProps found changed
  rw [addOrUpdateMap, found] at settled
  dsimp only at settled
  rw [snapshot] at changed
  rw [if_neg changed] at settled
  have shrinks := shrinks_create compile factory site.created mapPrefix site.properties
  cases created : factory.create compile site.created mapPrefix site.properties with
  | mk result left =>
      rw [created] at settled shrinks
      rw [Settled, snapshot] at settled
      cases result with
      | error message =>
          have some := create_failed (congrArg Prod.fst created)
          rw [created] at some
          dsimp only at settled
          rw [find_erase, Option.map_none, eq_comm, Option.map_eq_none_iff] at settled
          exact absurd settled (still_wanted found shrinks some)
      | ok map =>
          have properties := created_properties (congrArg Prod.fst created)
          dsimp only at settled
          rw [find_assign, Option.map_some, properties, eq_comm] at settled
          obtain ⟨⟨after, props⟩, foundAfter, same⟩ := Option.map_eq_some_iff.mp settled
          dsimp only at same
          have unchanged : left = site.properties := by
            by_contra removed
            obtain ⟨entry, inside, gone⟩ := shrinks.removed removed
            rw [← same, (wanted_under foundAfter).2] at inside
            exact gone (mem_prefix_entries.mp inside).1
          rw [unchanged] at created
          exact create_clean.mp ⟨map, created⟩

end one

section all

variable {factories : List (Str × MetricsMapFactory)}

theorem shrinks_update_maps (compile : Compiler) (viewName : Str)
    (factories : List (Str × MetricsMapFactory)) (site : Site names) : Shrinks (viewPrefix viewName)
      site.properties (updateMaps compile viewName factories site).2.properties := by
  induction factories generalizing site with
  | nil => exact shrinks_refl _ _
  | cons entry rest ih =>
      have first := shrinks_add_or_update compile viewName entry.1 entry.2 site
      exact first.trans (ih _)

theorem find_update_maps {other : Str} (absent : other ∉ keys factories) :
    find other (updateMaps compile viewName factories site).2.maps = find other site.maps := by
  induction factories generalizing site with
  | nil => rfl
  | cons entry rest ih =>
      rw [keys, List.map_cons, List.mem_cons, not_or] at absent
      exact (ih absent.2).trans (find_add_or_update absent.1)

theorem update_maps_settled :
    (updateMaps compile viewName factories site).1 = [] ↔
      ∀ mapName ∈ keys factories, Settled viewName mapName site.properties site.maps := by
  induction factories generalizing site with
  | nil => simp [updateMaps, keys]
  | cons entry rest ih =>
      rw [keys, List.map_cons, List.forall_mem_cons, updateMaps]
      dsimp only
      cases first : (addOrUpdateMap compile viewName entry.1 entry.2 site).1 with
      | true =>
          constructor
          · intro none
            cases none
          · intro all
            rw [add_or_update_settled all.1] at first
            cases first
      | false =>
          have settled := settled_of_unchanged first
          rw [add_or_update_settled settled, if_neg Bool.false_ne_true]
          dsimp only
          rw [ih]
          exact ⟨fun others => ⟨settled, others⟩, fun both => both.2⟩

theorem update_maps_same
    (settled : ∀ mapName ∈ keys factories, Settled viewName mapName site.properties site.maps) :
    (updateMaps compile viewName factories site).2 = site := by
  induction factories with
  | nil => rfl
  | cons entry rest ih =>
      rw [keys, List.map_cons, List.forall_mem_cons] at settled
      rw [updateMaps]
      dsimp only
      rw [add_or_update_settled settled.1]
      exact ih settled.2

variable {second : MetricsViewI}

theorem creatable_other {mapName : Str} {first : MetricsViewI}
    (same : find mapName first = find mapName second)
    (creatable : Creatable compile viewName mapName factory properties first) :
    Creatable compile viewName mapName factory properties second := by
  rw [Creatable, snapshot, same] at creatable
  exact creatable

theorem settled_other {mapName : Str} {first : MetricsViewI}
    (same : find mapName first = find mapName second)
    (settled : Settled viewName mapName properties first) :
    Settled viewName mapName properties second := by
  rw [Settled, snapshot, same] at settled
  exact settled

theorem settled_after_update (distinct : (keys factories).Nodup)
    (creatable : ∀ entry ∈ factories,
      Creatable compile viewName entry.1 entry.2 site.properties site.maps) :
    (updateMaps compile viewName factories site).2.properties = site.properties ∧
      ∀ mapName ∈ keys factories, Settled viewName mapName site.properties
        (updateMaps compile viewName factories site).2.maps := by
  induction factories generalizing site with
  | nil => exact ⟨rfl, by simp [keys]⟩
  | cons entry rest ih =>
      rw [keys, List.map_cons, List.nodup_cons] at distinct
      rw [List.forall_mem_cons] at creatable
      obtain ⟨left, settled⟩ := settled_of_creatable creatable.1
      have others : ∀ other ∈ rest, Creatable compile viewName other.1 other.2
          (addOrUpdateMap compile viewName entry.1 entry.2 site).2.properties
          (addOrUpdateMap compile viewName entry.1 entry.2 site).2.maps := by
        intro other inside
        have different : other.1 ≠ entry.1 := by
          intro same
          apply distinct.1
          rw [← same]
          exact List.mem_map.mpr ⟨other, inside, rfl⟩
        rw [left]
        exact creatable_other (find_add_or_update different).symm (creatable.2 other inside)
      obtain ⟨leftAll, settledAll⟩ := ih distinct.2 others
      rw [left] at leftAll settledAll
      rw [updateMaps]
      refine ⟨leftAll, ?_⟩
      rw [keys, List.map_cons, List.forall_mem_cons]
      exact ⟨settled_other (find_update_maps distinct.1).symm settled, settledAll⟩

/-- Where all maps are settled with the properties that are left, each was created clean. -/
theorem creatable_before_update (distinct : (keys factories).Nodup)
    (settled : ∀ mapName ∈ keys factories, Settled viewName mapName
      (updateMaps compile viewName factories site).2.properties
      (updateMaps compile viewName factories site).2.maps) :
    (updateMaps compile viewName factories site).2.properties = site.properties ∧
      ∀ entry ∈ factories,
        Creatable compile viewName entry.1 entry.2 site.properties site.maps := by
  induction factories generalizing site with
  | nil => exact ⟨rfl, by simp⟩
  | cons entry rest ih =>
      rw [keys, List.map_cons, List.nodup_cons] at distinct
      rw [keys, List.map_cons, List.forall_mem_cons, updateMaps] at settled
      dsimp only at settled
      obtain ⟨left, others⟩ := ih distinct.2 settled.2
      have first := settled_other (find_update_maps distinct.1) settled.1
      rw [left] at first
      have creatable := creatable_of_settled first
      have leftFirst := (settled_of_creatable creatable).1
      rw [updateMaps]
      dsimp only
      rw [left, leftFirst, List.forall_mem_cons]
      refine ⟨rfl, creatable, ?_⟩
      intro other inside
      have different : other.1 ≠ entry.1 := by
        intro same
        apply distinct.1
        rw [← same]
        exact List.mem_map.mpr ⟨other, inside, rfl⟩
      have creatableOther := others other inside
      rw [leftFirst] at creatableOther
      exact creatable_other (find_add_or_update different) creatableOther

end all

end IceTouch.Metrics

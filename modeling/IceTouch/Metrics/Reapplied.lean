import IceTouch.Metrics.Settling

/-!
# Views that are updated again

The views do not see each other's properties, so the walk over all of them is an update of each
one, and a second walk finds what the first one has left.
-/

namespace IceTouch.Metrics

open Bytes ByteOrder WireTypes Escape OrderedMap
open Properties
open Proxies (dot)

variable {names : PropertyNames} {compile : Compiler} {viewName mapName : Str}
  {properties other : PropertiesI names}

structure Alike (viewName : Str) (properties other : PropertiesI names) : Prop where
  same : properties.getPropertiesForPrefix (viewPrefix viewName) =
    other.getPropertiesForPrefix (viewPrefix viewName)
  warns : warns properties = warns other

namespace Alike

theorem symm (alike : Alike viewName properties other) : Alike viewName other properties :=
  ⟨alike.same.symm, alike.warns.symm⟩

theorem trans {third : PropertiesI names} (first : Alike viewName properties other)
    (second : Alike viewName other third) : Alike viewName properties third :=
  ⟨first.same.trans second.same, first.warns.trans second.warns⟩

theorem mem (alike : Alike viewName properties other) {entry : Str × Str}
    (under : viewPrefix viewName <+: entry.1) :
    entry ∈ properties.properties ↔ entry ∈ other.properties := by
  have same : entry ∈ properties.getPropertiesForPrefix (viewPrefix viewName) ↔
      entry ∈ other.getPropertiesForPrefix (viewPrefix viewName) := by
    rw [alike.same]
  rw [mem_prefix_entries, mem_prefix_entries] at same
  exact ⟨fun inside => (same.mp ⟨inside, under⟩).1, fun inside => (same.mpr ⟨inside, under⟩).1⟩

theorem for_prefix (alike : Alike viewName properties other) {longer : Str}
    (under : viewPrefix viewName <+: longer) :
    properties.getPropertiesForPrefix longer = other.getPropertiesForPrefix longer := by
  have narrow : ∀ properties : PropertiesI names, properties.getPropertiesForPrefix longer =
      (properties.getPropertiesForPrefix (viewPrefix viewName)).filter
        fun entry => longer.isPrefixOf entry.1 := by
    intro properties
    rw [PropertiesI.getPropertiesForPrefix, PropertiesI.getPropertiesForPrefix,
      List.filter_filter]
    apply List.filter_congr
    intro entry _
    by_cases inside : longer.isPrefixOf entry.1
    · have above := under.trans (List.isPrefixOf_iff_prefix.mp inside)
      rw [inside, List.isPrefixOf_iff_prefix.mpr above]
      rfl
    · rw [Bool.eq_false_iff.mpr inside, Bool.false_and]
  rw [narrow, narrow other, alike.same]

variable {key : Str} {factory : MetricsMapFactory}

section

variable (alike : Alike viewName properties other)

include alike

theorem find (under : viewPrefix viewName <+: key) :
    find key properties.properties = find key other.properties := by
  have narrow : ∀ properties : PropertiesI names, OrderedMap.find key properties.properties =
      OrderedMap.find key (properties.getPropertiesForPrefix (viewPrefix viewName)) := by
    intro properties
    have keeps : (viewPrefix viewName).isPrefixOf key = true :=
      List.isPrefixOf_iff_prefix.mpr under
    exact (find_filter keeps properties.properties).symm
  rw [narrow, narrow other, alike.same]

theorem int (under : viewPrefix viewName <+: key) (value : Int) :
    getPropertyAsIntWithDefault key value properties =
      getPropertyAsIntWithDefault key value other := by
  rw [getPropertyAsIntWithDefault, getPropertyAsIntWithDefault, alike.find under]

theorem is_disabled : isDisabled viewName properties = isDisabled viewName other := by
  rw [isDisabled, isDisabled, alike.int (List.prefix_append _ _)]

theorem wanted (mapName : Str) :
    wanted viewName mapName properties = wanted viewName mapName other := by
  have maps : properties.getPropertiesForPrefix (mapsPrefix viewName) =
      other.getPropertiesForPrefix (mapsPrefix viewName) :=
    alike.for_prefix (List.prefix_append _ _)
  have before : mapPrefixOf viewName mapName properties = mapPrefixOf viewName mapName other := by
    rw [mapPrefixOf, mapPrefixOf, maps]
  have under := map_prefix_under viewName mapName other
  rw [Metrics.wanted, Metrics.wanted, before, maps, alike.for_prefix under,
    alike.int (under.trans (List.prefix_append _ _))]

theorem settled {maps : MetricsViewI} (settled : Settled viewName mapName properties maps) :
    Settled viewName mapName other maps := by
  rw [Settled, alike.wanted] at settled
  exact settled

theorem retained {before : Str} (retained : Retained before properties key) :
    Retained before other key := by
  rw [Retained, alike.warns] at retained
  exact retained

theorem sound {mapPrefix : Str} (under : viewPrefix viewName <+: mapPrefix)
    (sound : Sound compile mapPrefix properties) : Sound compile mapPrefix other := by
  obtain ⟨rules, known⟩ := sound
  have longer : ∀ name, viewPrefix viewName <+: mapPrefix ++ name ++ [dot] := by
    intro name
    rw [List.append_assoc]
    exact under.trans (List.prefix_append _ _)
  rw [Rules, Compiles, Compiles, alike.for_prefix (longer _), alike.for_prefix (longer _)] at rules
  refine ⟨rules, ?_⟩
  intro entry inside warned above
  have before := (alike.mem (under.trans above)).mpr inside
  exact (alike.retained (known entry before)) warned above

theorem clean {mapPrefix : Str} (under : viewPrefix viewName <+: mapPrefix)
    (clean : Clean compile factory mapPrefix properties) :
    Clean compile factory mapPrefix other := by
  obtain ⟨sound, subMaps⟩ := clean
  refine ⟨alike.sound under sound, ?_⟩
  intro subMap inside before found
  apply alike.sound (under.trans (sub_map_prefix_under found))
  apply subMaps subMap inside before
  have longer : viewPrefix viewName <+: mapPrefix ++ text "Map." :=
    under.trans (List.prefix_append _ _)
  have longest : viewPrefix viewName <+: mapPrefix ++ text "Map." ++ subMap ++ [dot] := by
    rw [List.append_assoc]
    exact longer.trans (List.prefix_append _ _)
  rw [subMapPrefix] at found ⊢
  rw [alike.for_prefix longest, alike.for_prefix longer]
  exact found

theorem creatable {maps : MetricsViewI}
    (creatable : Creatable compile viewName mapName factory properties maps) :
    Creatable compile viewName mapName factory other maps := by
  intro mapPrefix mapProps found changed
  have under := map_prefix_under viewName mapName other
  rw [← (wanted_under found).1] at under
  rw [← alike.wanted] at found
  exact alike.clean under (creatable mapPrefix mapProps found changed)

end

end Alike

def Named (viewName : Str) (properties : PropertiesI names) : Prop :=
  ∃ entry ∈ properties.properties, viewsPrefix <+: entry.1 ∧ viewNameOf entry.1 = viewName

variable {key first second : Str} {before after : PropertiesI names}

theorem name_of_under (dotless : dot ∉ viewName) (under : viewPrefix viewName <+: key) :
    viewNameOf key = viewName := by
  obtain ⟨rest, same⟩ := under
  rw [← same, viewPrefix, viewNameOf, List.append_assoc, List.append_assoc,
    List.drop_left, List.takeWhile_append_of_pos]
  · simp
  · intro char inside
    apply decide_eq_true
    intro isDot
    rw [isDot] at inside
    exact dotless inside

theorem name_dotless (key : Str) : dot ∉ viewNameOf key := by
  intro inside
  have passed := List.mem_takeWhile_imp inside
  simp at passed

/-- A property that names the view is under its prefix or has the name of the view itself. -/
theorem under_or_exact (under : viewsPrefix <+: key) :
    viewPrefix (viewNameOf key) <+: key ∨ key = viewsPrefix ++ viewNameOf key := by
  obtain ⟨rest, same⟩ := under
  subst same
  rw [viewNameOf, List.drop_left]
  have parts : rest.takeWhile (fun char => decide (char ≠ dot)) ++
      rest.dropWhile (fun char => decide (char ≠ dot)) = rest := List.takeWhile_append_dropWhile
  have stops := List.head?_dropWhile_not (fun char => decide (char ≠ dot)) rest
  cases after : rest.dropWhile fun char => decide (char ≠ dot) with
  | nil =>
      right
      rw [after, List.append_nil] at parts
      rw [parts]
  | cons char tail =>
      left
      rw [after] at stops parts
      have isDot : char = dot := by simpa using stops
      refine ⟨tail, ?_⟩
      rw [viewPrefix, List.append_assoc, List.append_assoc]
      apply congrArg (viewsPrefix ++ ·)
      rw [isDot] at parts
      exact parts

theorem views_apart (dotless : dot ∉ first) (dotlessToo : dot ∉ second)
    (under : viewPrefix first <+: key) (underToo : viewPrefix second <+: key) : first = second := by
  rw [← name_of_under dotless under, name_of_under dotlessToo underToo]

theorem exact_outside (dotless : dot ∉ first) : ¬ viewPrefix second <+: viewsPrefix ++ first := by
  intro under
  rw [viewPrefix, List.append_assoc, List.prefix_append_right_inj] at under
  obtain ⟨rest, same⟩ := under
  apply dotless
  rw [← same]
  simp

theorem warn_outside (viewName : Str) :
    ¬ viewPrefix viewName <+: text "Ice.Warn.UnknownProperties" := by
  intro under
  have views : viewsPrefix <+: text "Ice.Warn.UnknownProperties" := by
    apply List.IsPrefix.trans _ under
    rw [viewPrefix, List.append_assoc]
    exact List.prefix_append _ _
  exact absurd views (by decide)

theorem Shrinks.warns (shrinks : Shrinks (viewPrefix viewName) before after) :
    warns after = warns before := by
  rw [Metrics.warns, Metrics.warns, getPropertyAsIntWithDefault, getPropertyAsIntWithDefault,
    shrinks.find_outside (warn_outside viewName)]

theorem Shrinks.alike (shrinks : Shrinks (viewPrefix first) before after) (dotless : dot ∉ first)
    (dotlessToo : dot ∉ second) (different : second ≠ first) : Alike second after before where
  same := shrinks.for_prefix_outside fun _ under underToo =>
    different (views_apart dotlessToo dotless under underToo)
  warns := shrinks.warns

theorem validate_entries (before : Str) (properties : PropertiesI names) :
    (validateProperties before properties).getPropertiesForPrefix before =
      (properties.getPropertiesForPrefix before).filter
        fun entry => !warns properties || isValid before entry.1 := by
  obtain ⟨kept, _, shape⟩ := shrinks_validate before properties
  rw [PropertiesI.getPropertiesForPrefix, PropertiesI.getPropertiesForPrefix, shape,
    List.filter_filter, List.filter_filter]
  apply List.filter_congr
  intro entry inside
  by_cases under : before <+: entry.1
  · have known := mem_validate before properties entry
    rw [shape, List.mem_filter] at known
    have same : kept entry.1 = true ↔ Retained before properties entry.1 :=
      ⟨fun keeps => (known.mp ⟨inside, keeps⟩).2, fun retained => (known.mpr ⟨inside, retained⟩).2⟩
    rw [List.isPrefixOf_iff_prefix.mpr under, Bool.true_and, Bool.and_true, Bool.eq_iff_iff, same,
      Retained]
    cases warns properties with
    | true => simp [under]
    | false => simp
  · have notUnder : before.isPrefixOf entry.1 = false := by
      rw [Bool.eq_false_iff]
      intro isPrefixed
      exact under (List.isPrefixOf_iff_prefix.mp isPrefixed)
    rw [notUnder, Bool.false_and, Bool.and_false]

/-- What a view sees of its properties once they are validated depends on what it has seen. -/
theorem Alike.validated (alike : Alike viewName properties other) :
    Alike viewName (validateProperties (viewPrefix viewName) properties)
      (validateProperties (viewPrefix viewName) other) where
  same := by
    rw [validate_entries, validate_entries, alike.same, alike.warns]
  warns := by
    rw [(shrinks_validate (viewPrefix viewName) properties).warns,
      (shrinks_validate (viewPrefix viewName) other).warns, alike.warns]

/-- Where the update of the maps of a view begins, once its properties are validated. -/
def siteOf (admin : MetricsAdminI names) (viewName : Str) (properties : PropertiesI names)
    (created : Nat) : Site names :=
  { properties, maps := (find viewName admin.views).getD [], created }

def update (compile : Compiler) (admin : MetricsAdminI names) (viewName : Str)
    (properties : PropertiesI names) (created : Nat) : List Str × Site names :=
  updateMaps compile viewName admin.factories (siteOf admin viewName properties created)

/-- The view has been disabled, or its maps have been updated. -/
inductive Outcome (compile : Compiler) (admin : MetricsAdminI names) (viewName : Str)
    (walk : Walk names) : Prop
  | disabled {properties : PropertiesI names}
      (alike : Alike viewName properties
        (validateProperties (viewPrefix viewName) admin.properties))
      (isDisabled : isDisabled viewName properties = true)
      (left : Alike viewName walk.properties properties)
      (inside : viewName ∈ walk.disabledViews) (absent : find viewName walk.views = none)
  | updated {properties : PropertiesI names} {created : Nat}
      (alike : Alike viewName properties
        (validateProperties (viewPrefix viewName) admin.properties))
      (enabled : isDisabled viewName properties = false)
      (left : Alike viewName walk.properties
        (update compile admin viewName properties created).2.properties)
      (outside : viewName ∉ walk.disabledViews)
      (present : find viewName walk.views =
        some (update compile admin viewName properties created).2.maps)
      (quiet : walk.updatedMaps = [] → (update compile admin viewName properties created).1 = [])

/-- The views in `done` have had their turn. -/
structure Walked (compile : Compiler) (admin : MetricsAdminI names) (done : List Str)
    (walk : Walk names) : Prop where
  seen : ∀ viewName, viewName ∈ done ↔
    (find viewName walk.views).isSome ∨ viewName ∈ walk.disabledViews
  dotless : ∀ viewName ∈ done, dot ∉ viewName
  pending : ∀ viewName, viewName ∉ done → dot ∉ viewName →
    Alike viewName walk.properties admin.properties
  warned : warns walk.properties = warns admin.properties
  exact_names : ∀ viewName, dot ∉ viewName →
    find (viewsPrefix ++ viewName) walk.properties.properties =
      find (viewsPrefix ++ viewName) admin.properties.properties
  outcomes : ∀ viewName ∈ done, Outcome compile admin viewName walk
  updates : ∀ mapName ∈ walk.updatedMaps, ∃ viewName ∈ done,
    ∃ (properties : PropertiesI names) (created : Nat),
      Alike viewName properties (validateProperties (viewPrefix viewName) admin.properties) ∧
        isDisabled viewName properties = false ∧
          mapName ∈ (update compile admin viewName properties created).1

variable {admin : MetricsAdminI names} {done : List Str} {walk : Walk names}

theorem Outcome.kept {later : Walk names} (outcome : Outcome compile admin viewName walk)
    (alike : Alike viewName later.properties walk.properties)
    (views : find viewName later.views = find viewName walk.views)
    (disabledViews : viewName ∈ later.disabledViews ↔ viewName ∈ walk.disabledViews)
    (quiet : later.updatedMaps = [] → walk.updatedMaps = []) :
    Outcome compile admin viewName later := by
  cases outcome with
  | disabled seen isDisabled left inside absent =>
      exact .disabled seen isDisabled (alike.trans left) (disabledViews.mpr inside)
        (views.trans absent)
  | updated seen enabled left outside present calm =>
      exact .updated seen enabled (alike.trans left) (fun inside => outside (disabledViews.mp inside))
        (views.trans present) fun none => calm (quiet none)

theorem walked_start (compile : Compiler) (admin : MetricsAdminI names) :
    Walked compile admin []
      { properties := admin.properties
        views := []
        disabledViews := []
        updatedMaps := []
        created := admin.created } where
  seen := by simp [find]
  dotless := by simp
  pending := fun _ _ _ => ⟨rfl, rfl⟩
  warned := rfl
  exact_names := fun _ _ => rfl
  outcomes := by simp
  updates := by simp

theorem Outcome.seen (outcome : Outcome compile admin viewName walk) :
    (find viewName walk.views).isSome ∨ viewName ∈ walk.disabledViews := by
  cases outcome with
  | disabled _ _ _ inside _ => exact .inr inside
  | updated _ _ _ _ present _ =>
      left
      rw [present]
      rfl

section

variable (walked : Walked compile admin done walk)

include walked

theorem Walked.extend (dotless : dot ∉ viewName) (fresh : viewName ∉ done) {later : Walk names}
    {more : List Str} (shrinks : Shrinks (viewPrefix viewName) walk.properties later.properties)
    (views : ∀ other, other ≠ viewName → find other later.views = find other walk.views)
    (disabledViews : ∀ other, other ≠ viewName →
      (other ∈ later.disabledViews ↔ other ∈ walk.disabledViews))
    (appended : later.updatedMaps = walk.updatedMaps ++ more)
    (outcome : Outcome compile admin viewName later)
    (updates : ∀ mapName ∈ more, ∃ (properties : PropertiesI names) (created : Nat),
      Alike viewName properties (validateProperties (viewPrefix viewName) admin.properties) ∧
        isDisabled viewName properties = false ∧
          mapName ∈ (update compile admin viewName properties created).1) :
    Walked compile admin (viewName :: done) later where
  seen := by
    intro other
    rw [List.mem_cons]
    by_cases same : other = viewName
    · rw [same]
      exact ⟨fun _ => outcome.seen, fun _ => .inl rfl⟩
    · rw [views other same, disabledViews other same, ← walked.seen other]
      simp [same]
  dotless := by
    intro other inside
    obtain same | before := List.mem_cons.mp inside
    · rw [same]
      exact dotless
    · exact walked.dotless other before
  pending := by
    intro other later plain
    rw [List.mem_cons, not_or] at later
    exact (shrinks.alike dotless plain later.1).trans (walked.pending other later.2 plain)
  warned := shrinks.warns.trans walked.warned
  exact_names := by
    intro other plain
    rw [shrinks.find_outside (exact_outside plain)]
    exact walked.exact_names other plain
  outcomes := by
    intro other inside
    obtain same | before := List.mem_cons.mp inside
    · rw [same]
      exact outcome
    · have different : other ≠ viewName := fun same => fresh (same ▸ before)
      apply (walked.outcomes other before).kept
      · exact shrinks.alike dotless (walked.dotless other before) different
      · exact views other different
      · exact disabledViews other different
      · intro none
        rw [appended] at none
        exact (List.append_eq_nil_iff.mp none).1
  updates := by
    intro mapName inside
    rw [appended] at inside
    obtain before | new := List.mem_append.mp inside
    · obtain ⟨other, there, found⟩ := walked.updates mapName before
      exact ⟨other, List.mem_cons_of_mem _ there, found⟩
    · exact ⟨viewName, List.mem_cons_self, updates mapName new⟩

theorem Walked.turn (dotless : dot ∉ viewName) (fresh : viewName ∉ done) :
    Walked compile admin (viewName :: done) (configure compile admin viewName walk) := by
  have alike := (walked.pending viewName fresh dotless).validated
  have unseen := (walked.seen viewName).not.mp fresh
  rw [not_or] at unseen
  have absent : find viewName walk.views = none := by simpa using unseen.1
  have validation := shrinks_validate (viewPrefix viewName) walk.properties
  rw [configure]
  by_cases disabled :
      isDisabled viewName (validateProperties (viewPrefix viewName) walk.properties) = true
  · rw [if_pos disabled]
    refine walked.extend dotless fresh validation ?_ ?_ (List.append_nil _).symm ?_ ?_
    · intro other _
      rfl
    · intro other different
      simp [different]
    · exact .disabled alike disabled ⟨rfl, rfl⟩ List.mem_cons_self absent
    · simp
  · rw [if_neg disabled]
    have enabled := Bool.eq_false_iff.mpr disabled
    apply walked.extend dotless fresh
    · exact validation.trans (shrinks_update_maps compile viewName admin.factories _)
    · intro other different
      exact find_insert_ne different _ _
    · intro other _
      exact Iff.rfl
    · rfl
    · apply Outcome.updated alike enabled
      · exact ⟨rfl, rfl⟩
      · exact unseen.2
      · exact find_insert _ absent
      · exact fun none => (List.append_eq_nil_iff.mp none).2
    · intro mapName inside
      exact ⟨_, walk.created, alike, enabled, inside⟩

theorem Walked.run (all : List Str) :
    ∃ after, Walked compile admin after (all.foldl (visit compile admin) walk) ∧
      ∀ viewName, viewName ∈ after ↔ viewName ∈ done ∨ ∃ key ∈ all, viewNameOf key = viewName := by
  induction all generalizing done walk with
  | nil => exact ⟨done, walked, by simp⟩
  | cons key rest ih =>
      rw [List.foldl_cons]
      by_cases known : viewNameOf key ∈ done
      · have same : visit compile admin walk key = walk := by
          rw [visit, if_pos ((walked.seen _).mp known)]
        rw [same]
        obtain ⟨after, final, members⟩ := ih walked
        refine ⟨after, final, ?_⟩
        intro viewName
        rw [members, List.exists_mem_cons_iff]
        constructor
        · rintro (before | later)
          · exact .inl before
          · exact .inr (.inr later)
        · rintro (before | here | later)
          · exact .inl before
          · exact .inl (here ▸ known)
          · exact .inr later
      · have step : visit compile admin walk key =
            configure compile admin (viewNameOf key) walk := by
          rw [visit, if_neg ((walked.seen _).not.mp known)]
        rw [step]
        obtain ⟨after, final, members⟩ := ih (walked.turn (name_dotless key) known)
        refine ⟨after, final, ?_⟩
        intro viewName
        rw [members, List.exists_mem_cons_iff, List.mem_cons]
        constructor
        · rintro ((here | before) | later)
          · exact .inr (.inl here.symm)
          · exact .inl before
          · exact .inr (.inr later)
        · rintro (before | here | later)
          · exact .inl (.inr before)
          · exact .inl (.inl here.symm)
          · exact .inr later

end

theorem walked_all (compile : Compiler) (admin : MetricsAdminI names) :
    ∃ after, Walked compile admin after (walked compile admin) ∧
      ∀ viewName, viewName ∈ after ↔ Named viewName admin.properties := by
  obtain ⟨after, final, members⟩ := (walked_start compile admin).run
    ((admin.properties.getPropertiesForPrefix viewsPrefix).map Prod.fst)
  refine ⟨after, final, ?_⟩
  intro viewName
  rw [members, Named]
  constructor
  · rintro (none | ⟨key, inside, name⟩)
    · cases none
    · obtain ⟨entry, there, same⟩ := List.mem_map.mp inside
      obtain ⟨known, under⟩ := mem_prefix_entries.mp there
      exact ⟨entry, known, under, same ▸ name⟩
  · rintro ⟨entry, known, under, name⟩
    right
    exact ⟨entry.1, List.mem_map.mpr ⟨entry, mem_prefix_entries.mpr ⟨known, under⟩, rfl⟩, name⟩

/-- A property that stays names the view, and unless it is disabled its maps can be created
clean or need not be. -/
structure Reapplies (compile : Compiler) (admin : MetricsAdminI names) (viewName : Str) : Prop where
  persists : ∃ entry ∈ admin.properties.properties, viewsPrefix <+: entry.1 ∧
    viewNameOf entry.1 = viewName ∧ Retained (viewPrefix viewName) admin.properties entry.1
  creatable : isDisabled viewName (validateProperties (viewPrefix viewName) admin.properties) =
      false → ∀ entry ∈ admin.factories, Creatable compile viewName entry.1 entry.2
        (validateProperties (viewPrefix viewName) admin.properties)
        ((find viewName admin.views).getD [])

section names

theorem Named.dotless (named : Named viewName properties) : dot ∉ viewName := by
  obtain ⟨entry, _, _, name⟩ := named
  rw [← name]
  exact name_dotless entry.1

/-- A property that names the view is one that the view sees, or it has the name of the view. -/
theorem named_iff (dotless : dot ∉ viewName) : Named viewName properties ↔
    properties.getPropertiesForPrefix (viewPrefix viewName) ≠ [] ∨
      find (viewsPrefix ++ viewName) properties.properties ≠ none := by
  constructor
  · rintro ⟨entry, inside, under, name⟩
    obtain seen | same := under_or_exact under
    · rw [name] at seen
      exact .inl (List.ne_nil_of_mem (mem_prefix_entries.mpr ⟨inside, seen⟩))
    · right
      rw [name] at same
      rw [find_of_mem properties.sorted (by rw [← same]; exact inside)]
      simp
  · rintro (seen | exact_)
    · obtain ⟨entry, there⟩ := List.exists_mem_of_ne_nil _ seen
      obtain ⟨inside, under⟩ := mem_prefix_entries.mp there
      refine ⟨entry, inside, ?_, name_of_under dotless under⟩
      apply List.IsPrefix.trans _ under
      rw [viewPrefix, List.append_assoc]
      exact List.prefix_append _ _
    · obtain ⟨value, found⟩ := Option.ne_none_iff_exists'.mp exact_
      refine ⟨_, mem_of_find found, List.prefix_append _ _, ?_⟩
      rw [viewNameOf, List.drop_left, List.takeWhile_eq_self_iff]
      intro char inside
      apply decide_eq_true
      intro isDot
      rw [isDot] at inside
      exact dotless inside

end names

section twice

/-- What a view sees after the update is part of what it sees once its properties are valid. -/
theorem Outcome.seen_after (outcome : Outcome compile admin viewName walk) {entry : Str × Str}
    (inside : entry ∈ walk.properties.properties) (under : viewPrefix viewName <+: entry.1) :
    entry ∈ (validateProperties (viewPrefix viewName) admin.properties).properties := by
  cases outcome with
  | disabled alike _ left _ _ =>
      exact (alike.mem under).mp ((left.mem under).mp inside)
  | updated alike _ left _ _ _ =>
      have before := (shrinks_update_maps compile viewName admin.factories _).mem
        ((left.mem under).mp inside)
      exact (alike.mem under).mp before

theorem Walked.valid (walked : Walked compile admin done walk) (inside : viewName ∈ done) :
    validateProperties (viewPrefix viewName) walk.properties = walk.properties := by
  rw [validate_same]
  intro entry there warned under
  have before := (walked.outcomes viewName inside).seen_after there under
  rw [walked.warned] at warned
  exact ((mem_validate _ _ _).mp before).2 warned under

/-- Where its maps can be created clean, a view keeps its valid properties, and its maps are
settled. -/
theorem Outcome.settled (outcome : Outcome compile admin viewName walk)
    (reapplies : Reapplies compile admin viewName) :
    Alike viewName walk.properties
        (validateProperties (viewPrefix viewName) admin.properties) ∧
      (isDisabled viewName walk.properties = true →
        viewName ∈ walk.disabledViews ∧ find viewName walk.views = none) ∧
      (isDisabled viewName walk.properties = false → viewName ∉ walk.disabledViews ∧
        ∃ maps, find viewName walk.views = some maps ∧
          ∀ mapName ∈ keys admin.factories, Settled viewName mapName walk.properties maps) := by
  cases outcome with
  | disabled alike disabled left inside absent =>
      refine ⟨left.trans alike, fun _ => ⟨inside, absent⟩, ?_⟩
      intro enabled
      rw [left.is_disabled, disabled] at enabled
      cases enabled
  | @updated properties created alike enabled left outside present quiet =>
      have creatable : ∀ entry ∈ admin.factories, Creatable compile viewName entry.1 entry.2
          (siteOf admin viewName properties created).properties
          (siteOf admin viewName properties created).maps := by
        intro entry inside
        rw [alike.is_disabled] at enabled
        exact alike.symm.creatable (reapplies.creatable enabled entry inside)
      obtain ⟨same, settled⟩ := settled_after_update (keys_nodup admin.registered) creatable
      have kept : (update compile admin viewName properties created).2.properties = properties :=
        same
      rw [kept] at left
      refine ⟨left.trans alike, ?_, ?_⟩
      · intro disabled
        rw [left.is_disabled, enabled] at disabled
        cases disabled
      · intro _
        refine ⟨outside, _, present, ?_⟩
        intro mapName inside
        exact left.symm.settled (settled mapName inside)

section

variable (walked : Walked compile admin done walk)

include walked

theorem Walked.persists (inside : viewName ∈ done) (named : Named viewName walk.properties) :
    ∃ entry ∈ admin.properties.properties, viewsPrefix <+: entry.1 ∧
      viewNameOf entry.1 = viewName ∧ Retained (viewPrefix viewName) admin.properties entry.1 := by
  have dotless := walked.dotless viewName inside
  obtain ⟨entry, there, under, name⟩ := named
  obtain seen | same := under_or_exact under
  · rw [name] at seen
    have before := (walked.outcomes viewName inside).seen_after there seen
    obtain ⟨known, retained⟩ := (mem_validate _ _ _).mp before
    exact ⟨entry, known, under, name, retained⟩
  · rw [name] at same
    have kept := walked.exact_names viewName dotless
    rw [← same, find_of_mem walk.properties.sorted (show (entry.1, entry.2) ∈ _ from there)] at kept
    refine ⟨entry, mem_of_find kept.symm, under, name, ?_⟩
    intro _ outside
    rw [same] at outside
    exact absurd outside (exact_outside dotless)

theorem Walked.still_named (inside : viewName ∈ done) (reapplies : Reapplies compile admin viewName) :
    Named viewName walk.properties := by
  have dotless := walked.dotless viewName inside
  obtain ⟨entry, known, under, name, retained⟩ := reapplies.persists
  rw [named_iff dotless]
  obtain seen | same := under_or_exact under
  · left
    rw [name] at seen
    have valid := (mem_validate (viewPrefix viewName) admin.properties entry).mpr ⟨known, retained⟩
    have alike := ((walked.outcomes viewName inside).settled reapplies).1
    have left := (alike.mem seen).mpr valid
    exact List.ne_nil_of_mem (mem_prefix_entries.mpr ⟨left, seen⟩)
  · right
    rw [name] at same
    rw [walked.exact_names viewName dotless, ← same,
      find_of_mem admin.properties.sorted (show (entry.1, entry.2) ∈ _ from known)]
    simp

theorem Walked.pending_named
    (members : ∀ viewName, viewName ∈ done ↔ Named viewName admin.properties)
    (named : Named viewName walk.properties) : viewName ∈ done := by
  by_contra later
  have dotless := named.dotless
  apply later
  rw [members, named_iff dotless]
  rw [named_iff dotless, (walked.pending viewName later dotless).same,
    walked.exact_names viewName dotless] at named
  exact named

end

theorem removed_none {before after : List (Str × MetricsViewI)}
    (same : ∀ viewName, find viewName after = find viewName before) :
    removedMaps before after = [] := by
  rw [removedMaps, List.flatMap_eq_nil_iff]
  intro view inside
  obtain ⟨there, absent⟩ := List.mem_filter.mp inside
  rw [same, Option.isNone_iff_eq_none, find_eq_none] at absent
  exact absurd (List.mem_map.mpr ⟨view, there, rfl⟩) absent

structure Leaves (admin : MetricsAdminI names) (walk : Walk names) (next : MetricsAdminI names) :
    Prop where
  properties : next.properties = walk.properties
  views : next.views = walk.views
  disabledViews : next.disabledViews = walk.disabledViews
  factories : next.factories = admin.factories

theorem update_leaves (compile : Compiler) (admin : MetricsAdminI names) :
    Leaves admin (walked compile admin) (admin.updateViews compile).2 :=
  ⟨rfl, rfl, rfl, rfl⟩

variable {next : MetricsAdminI names} {again : Walk names}

section

variable (walked : Walked compile admin done walk)

include walked

/-- The second update of a view starts from what the first has left, and has nothing to do. -/
theorem Walked.settles (leaves : Leaves admin walk next) (inside : viewName ∈ done)
    (reapplies : Reapplies compile admin viewName) {properties : PropertiesI names} (created : Nat)
    (alike : Alike viewName properties (validateProperties (viewPrefix viewName) next.properties))
    (enabled : isDisabled viewName properties = false) :
    (update compile next viewName properties created).1 = [] ∧
      find viewName walk.views =
        some (update compile next viewName properties created).2.maps ∧
      viewName ∉ walk.disabledViews := by
  rw [leaves.properties, walked.valid inside] at alike
  have outcome := (walked.outcomes viewName inside).settled reapplies
  rw [alike.is_disabled] at enabled
  obtain ⟨outside, maps, present, all⟩ := outcome.2.2 enabled
  have start : (siteOf next viewName properties created).maps = maps := by
    rw [siteOf, leaves.views, present]
    rfl
  have settled : ∀ mapName ∈ keys next.factories, Settled viewName mapName
      (siteOf next viewName properties created).properties
      (siteOf next viewName properties created).maps := by
    intro mapName known
    rw [leaves.factories] at known
    rw [start]
    exact alike.symm.settled (all mapName known)
  refine ⟨update_maps_settled.mpr settled, ?_, outside⟩
  rw [update, update_maps_same settled, start]
  exact present

theorem Walked.same_outcome (leaves : Leaves admin walk next) (inside : viewName ∈ done)
    (reapplies : Reapplies compile admin viewName) (outcome : Outcome compile next viewName again) :
    find viewName again.views = find viewName walk.views ∧
      (viewName ∈ again.disabledViews ↔ viewName ∈ walk.disabledViews) := by
  cases outcome with
  | disabled alike disabled left there absent =>
      rw [leaves.properties, walked.valid inside] at alike
      rw [alike.is_disabled] at disabled
      have before := ((walked.outcomes viewName inside).settled reapplies).2.1 disabled
      exact ⟨absent.trans before.2.symm, fun _ => before.1, fun _ => there⟩
  | @updated properties created alike enabled left outside present quiet =>
      obtain ⟨_, before, outsideBefore⟩ := walked.settles leaves inside reapplies created alike enabled
      exact ⟨present.trans before.symm, fun there => absurd there outside,
        fun there => absurd there outsideBefore⟩

theorem Walked.not_seen (outside : viewName ∉ done) :
    find viewName walk.views = none ∧ viewName ∉ walk.disabledViews := by
  have unseen := (walked.seen viewName).not.mp outside
  rw [not_or] at unseen
  exact ⟨by simpa using unseen.1, unseen.2⟩

end

/-- The views, their maps and the disabled views are the same, and no updater is called. -/
structure Unchanged (first : MetricsAdminI names) (second : List Str × MetricsAdminI names) :
    Prop where
  views : ∀ viewName, find viewName second.2.views = find viewName first.views
  disabledViews : ∀ viewName, viewName ∈ second.2.disabledViews ↔ viewName ∈ first.disabledViews
  updatedMaps : second.1 = []

theorem unchanged_of_reapplies (admin : MetricsAdminI names)
    (reapplies : ∀ viewName, Named viewName admin.properties → Reapplies compile admin viewName) :
    Unchanged (admin.updateViews compile).2
      ((admin.updateViews compile).2.updateViews compile) := by
  obtain ⟨done, first, members⟩ := walked_all compile admin
  obtain ⟨again, second, membersAgain⟩ := walked_all compile (admin.updateViews compile).2
  have leaves := update_leaves compile admin
  have reapplied : ∀ viewName ∈ done, Reapplies compile admin viewName :=
    fun viewName inside => reapplies viewName ((members viewName).mp inside)
  have turns : ∀ viewName, viewName ∈ again ↔ viewName ∈ done := by
    intro viewName
    rw [membersAgain]
    exact ⟨fun named => first.pending_named members named,
      fun inside => first.still_named inside (reapplied viewName inside)⟩
  have same : ∀ viewName,
      find viewName (walked compile (admin.updateViews compile).2).views =
          find viewName (walked compile admin).views ∧
        (viewName ∈ (walked compile (admin.updateViews compile).2).disabledViews ↔
          viewName ∈ (walked compile admin).disabledViews) := by
    intro viewName
    by_cases inside : viewName ∈ done
    · exact first.same_outcome leaves inside (reapplied viewName inside)
        (second.outcomes viewName ((turns viewName).mpr inside))
    · have before := first.not_seen inside
      have after := second.not_seen fun turn => inside ((turns viewName).mp turn)
      exact ⟨after.1.trans before.1.symm, fun there => absurd there after.2,
        fun there => absurd there before.2⟩
  have quiet : (walked compile (admin.updateViews compile).2).updatedMaps = [] := by
    rw [List.eq_nil_iff_forall_not_mem]
    intro mapName inside
    obtain ⟨viewName, turn, properties, created, alike, enabled, called⟩ :=
      second.updates mapName inside
    have before := (turns viewName).mp turn
    rw [(first.settles leaves before (reapplied viewName before) created alike enabled).1] at called
    cases called
  refine ⟨fun viewName => (same viewName).1, fun viewName => (same viewName).2, ?_⟩
  have removed := removed_none fun viewName => (same viewName).1
  exact List.append_eq_nil_iff.mpr ⟨quiet, removed⟩

/-- Where the second update of a view has nothing to do, the first has created its maps clean. -/
theorem Walked.created_clean (walked : Walked compile admin done walk)
    (leaves : Leaves admin walk next) (inside : viewName ∈ done)
    (outcome : Outcome compile next viewName again)
    (views : find viewName again.views = find viewName walk.views)
    (quiet : again.updatedMaps = [])
    (enabled : isDisabled viewName (validateProperties (viewPrefix viewName) admin.properties) =
      false) :
    ∀ entry ∈ admin.factories, Creatable compile viewName entry.1 entry.2
      (validateProperties (viewPrefix viewName) admin.properties)
      ((find viewName admin.views).getD []) := by
  cases walked.outcomes viewName inside with
  | disabled alike disabled _ _ _ =>
      rw [alike.is_disabled, enabled] at disabled
      cases disabled
  | @updated properties created alike _ left _ present _ =>
      cases outcome with
      | disabled _ _ _ _ absent =>
          rw [views, present] at absent
          cases absent
      | @updated later createdLater alikeLater _ _ _ _ calm =>
          rw [leaves.properties, walked.valid inside] at alikeLater
          have settledLater := update_maps_settled.mp (calm quiet)
          have start : (siteOf next viewName later createdLater).maps =
              (update compile admin viewName properties created).2.maps := by
            rw [siteOf, leaves.views, present]
            rfl
          rw [leaves.factories, start] at settledLater
          have settled : ∀ mapName ∈ keys admin.factories, Settled viewName mapName
              (update compile admin viewName properties created).2.properties
              (update compile admin viewName properties created).2.maps :=
            fun mapName known => (alikeLater.trans left).settled (settledLater mapName known)
          have creatable := (creatable_before_update (keys_nodup admin.registered) settled).2
          exact fun entry known => alike.creatable (creatable entry known)

theorem reapplies_of_unchanged (admin : MetricsAdminI names)
    (unchanged : Unchanged (admin.updateViews compile).2
      ((admin.updateViews compile).2.updateViews compile)) (named : Named viewName admin.properties) :
    Reapplies compile admin viewName := by
  obtain ⟨done, first, members⟩ := walked_all compile admin
  obtain ⟨again, second, membersAgain⟩ := walked_all compile (admin.updateViews compile).2
  have inside : viewName ∈ done := (members viewName).mpr named
  have views : find viewName (walked compile (admin.updateViews compile).2).views =
      find viewName (walked compile admin).views := unchanged.views viewName
  have disabledViews : viewName ∈ (walked compile (admin.updateViews compile).2).disabledViews ↔
      viewName ∈ (walked compile admin).disabledViews := unchanged.disabledViews viewName
  have turn : viewName ∈ again := by
    rw [second.seen, views, disabledViews]
    exact (first.outcomes viewName inside).seen
  have quiet := (List.append_eq_nil_iff.mp unchanged.updatedMaps).1
  have leaves := update_leaves compile admin
  exact
    { persists := first.persists inside ((membersAgain viewName).mp turn)
      creatable := first.created_clean leaves inside (second.outcomes viewName turn) views quiet }

end twice

/-- A second update changes nothing exactly where every view that is named keeps a property
that names it, and creates no map that cannot be created or whose unknown properties are
cleared. -/
theorem update_again_iff (compile : Compiler) (admin : MetricsAdminI names) :
    Unchanged (admin.updateViews compile).2
        ((admin.updateViews compile).2.updateViews compile) ↔
      ∀ viewName, Named viewName admin.properties → Reapplies compile admin viewName :=
  ⟨fun unchanged _ named => reapplies_of_unchanged admin unchanged named,
    unchanged_of_reapplies admin⟩

/-- A table without names replaces none. -/
def noNames : PropertyNames := { validProps := [], replacements := by simp }

def misspelt : PropertiesI noNames where
  properties :=
    [(text "IceMX.Metrics.Debug.Map.Thread.GroupBi", text "parent"),
      (text "IceMX.Metrics.Debug.Map.Thread.RetainDetached", text "5")]
  sorted := by
    unfold Sorted
    decide
  accepted := by
    intro entry inside
    simp only [List.mem_cons, List.not_mem_nil, or_false] at inside
    obtain same | same := inside
    · rw [same]
      exact ⟨by decide, by decide, by decide⟩
    · rw [same]
      exact ⟨by decide, by decide, by decide⟩
  nonempty := by decide

def debugAdmin : MetricsAdminI noNames where
  properties := misspelt
  views := []
  disabledViews := []
  factories := [(text "Thread", { subMaps := [] })]
  registered := by
    unfold Sorted
    decide
  created := 0

def permissive : Compiler := fun _ => some fun _ => true

/-- The map is created again, as its properties no longer hold the one that has been cleared. -/
theorem misspelt_updated_again :
    ¬ Unchanged (debugAdmin.updateViews permissive).2
      ((debugAdmin.updateViews permissive).2.updateViews permissive) := by
  intro unchanged
  have none := unchanged.updatedMaps
  revert none
  decide +kernel

end IceTouch.Metrics

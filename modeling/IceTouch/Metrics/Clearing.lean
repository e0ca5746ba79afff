import IceTouch.Metrics.Views

/-!
# What the construction of maps clears

Validation, and so the construction of a map, only removes properties under a prefix. A map is
constructed and nothing is removed exactly where its rules compile and its properties are known.
-/

namespace IceTouch.Metrics

open Bytes ByteOrder WireTypes Escape OrderedMap
open Properties
open Proxies (dot)

variable {names : PropertyNames}

/-- Properties under `base` have been removed. -/
def Shrinks (base : Str) (before after : PropertiesI names) : Prop :=
  ∃ kept : Str → Bool, (∀ key, ¬ base <+: key → kept key = true) ∧
    after.properties = before.properties.filter fun entry => kept entry.1

section shrinking

variable {base : Str} {before middle after : PropertiesI names}

theorem shrinks_refl (base : Str) (properties : PropertiesI names) :
    Shrinks base properties properties :=
  ⟨fun _ => true, fun _ _ => rfl, (List.filter_true _).symm⟩

theorem Shrinks.trans (first : Shrinks base before middle) (second : Shrinks base middle after) :
    Shrinks base before after := by
  obtain ⟨kept, outside, shape⟩ := first
  obtain ⟨keptToo, outsideToo, shapeToo⟩ := second
  refine ⟨fun key => kept key && keptToo key, ?_, ?_⟩
  · intro key apart
    dsimp only
    rw [outside key apart, outsideToo key apart]
    rfl
  · rw [shapeToo, shape, List.filter_filter]
    simp only [Bool.and_comm]

theorem Shrinks.widen {wider : Str} (shrinks : Shrinks base before after) (inside : wider <+: base) :
    Shrinks wider before after := by
  obtain ⟨kept, outside, shape⟩ := shrinks
  exact ⟨kept, fun key apart => outside key fun under => apart (inside.trans under), shape⟩

theorem Shrinks.mem (shrinks : Shrinks base before after) {entry : Str × Str}
    (inside : entry ∈ after.properties) : entry ∈ before.properties := by
  obtain ⟨kept, _, shape⟩ := shrinks
  rw [shape] at inside
  exact List.mem_of_mem_filter inside

theorem find_filter {key : Str} {kept : Str → Bool} (keeps : kept key = true)
    (entries : List (Str × Str)) :
    find key (entries.filter fun entry => kept entry.1) = find key entries := by
  induction entries with
  | nil => rfl
  | cons entry rest ih =>
      by_cases same : entry.1 = key
      · rw [List.filter_cons, same, if_pos keeps, find, find, if_pos same, if_pos same]
      · rw [List.filter_cons]
        split
        · rw [find, find, if_neg same, if_neg same, ih]
        · rw [find, if_neg same, ih]

theorem Shrinks.find_outside (shrinks : Shrinks base before after) {key : Str}
    (apart : ¬ base <+: key) : find key after.properties = find key before.properties := by
  obtain ⟨kept, outside, shape⟩ := shrinks
  rw [shape, find_filter (outside key apart)]

theorem mem_prefix_entries {properties : PropertiesI names} {entry : Str × Str} :
    entry ∈ properties.getPropertiesForPrefix base ↔
      entry ∈ properties.properties ∧ base <+: entry.1 := by
  simp [PropertiesI.getPropertiesForPrefix]

section

variable (shrinks : Shrinks base before after)

include shrinks

theorem Shrinks.for_prefix_outside {other : Str} (apart : ∀ key, other <+: key → ¬ base <+: key) :
    after.getPropertiesForPrefix other = before.getPropertiesForPrefix other := by
  obtain ⟨kept, outside, shape⟩ := shrinks
  rw [PropertiesI.getPropertiesForPrefix, PropertiesI.getPropertiesForPrefix, shape,
    List.filter_filter]
  apply List.filter_congr
  intro entry _
  by_cases under : other <+: entry.1
  · rw [outside entry.1 (apart entry.1 under), Bool.and_true]
  · have notUnder : other.isPrefixOf entry.1 = false := by
      rw [Bool.eq_false_iff]
      intro isPrefixed
      exact under (List.isPrefixOf_iff_prefix.mp isPrefixed)
    rw [notUnder, Bool.false_and]

theorem Shrinks.unchanged
    (all : ∀ entry ∈ before.properties, base <+: entry.1 → entry ∈ after.properties) :
    after = before := by
  obtain ⟨kept, outside, shape⟩ := shrinks
  apply properties_ext
  rw [shape, List.filter_eq_self]
  intro entry inside
  by_cases under : base <+: entry.1
  · have still := all entry inside under
    rw [shape] at still
    exact (List.mem_filter.mp still).2
  · exact outside entry.1 under

theorem Shrinks.removed (changed : after ≠ before) :
    ∃ entry ∈ before.getPropertiesForPrefix base, entry ∉ after.properties := by
  by_contra none
  apply changed
  apply shrinks.unchanged
  intro entry inside under
  by_contra gone
  exact none ⟨entry, mem_prefix_entries.mpr ⟨inside, under⟩, gone⟩

end

end shrinking

section validation

theorem shrinks_clear {base key : Str} (under : base <+: key) (properties : PropertiesI names) :
    Shrinks base properties (clear key properties) := by
  refine ⟨fun other => decide (other ≠ key), ?_, ?_⟩
  · intro other apart
    apply decide_eq_true
    intro same
    rw [same] at apart
    exact apart under
  · simp [clear, erase]

theorem mem_cleared (unknown : List Str) (properties : PropertiesI names) (entry : Str × Str) :
    entry ∈ (unknown.foldl (fun properties key => clear key properties) properties).properties ↔
      entry ∈ properties.properties ∧ entry.1 ∉ unknown := by
  induction unknown generalizing properties with
  | nil => simp
  | cons key rest ih =>
      rw [List.foldl_cons, ih (clear key properties), List.mem_cons, not_or]
      have cleared := mem_erase key properties.properties entry
      rw [clear, cleared, and_assoc]

theorem shrinks_cleared {base : Str} {unknown : List Str} (under : ∀ key ∈ unknown, base <+: key)
    (properties : PropertiesI names) : Shrinks base properties
      (unknown.foldl (fun properties key => clear key properties) properties) := by
  induction unknown generalizing properties with
  | nil => exact shrinks_refl base properties
  | cons key rest ih =>
      have first := shrinks_clear (under key List.mem_cons_self) properties
      exact first.trans (ih (fun other inside => under other (List.mem_cons_of_mem key inside)) _)

theorem mem_unknown {before : Str} {properties : PropertiesI names} {key : Str} :
    key ∈ unknownProps before properties ↔
      (∃ value, (key, value) ∈ properties.properties) ∧ before <+: key ∧
        isValid before key = false := by
  simp only [unknownProps, List.mem_filter, List.mem_map, mem_prefix_entries, Bool.not_eq_true']
  constructor
  · rintro ⟨⟨entry, ⟨inside, under⟩, same⟩, unknown⟩
    subst same
    exact ⟨⟨entry.2, inside⟩, under, unknown⟩
  · rintro ⟨⟨value, inside⟩, under, unknown⟩
    exact ⟨⟨(key, value), ⟨inside, under⟩, rfl⟩, unknown⟩

theorem shrinks_validate (before : Str) (properties : PropertiesI names) :
    Shrinks before properties (validateProperties before properties) := by
  rw [validateProperties]
  split
  · exact shrinks_cleared (fun key inside => (mem_unknown.mp inside).2.1) properties
  · exact shrinks_refl before properties

def Retained (before : Str) (properties : PropertiesI names) (key : Str) : Prop :=
  warns properties = true → before <+: key → isValid before key = true

theorem mem_validate (before : Str) (properties : PropertiesI names) (entry : Str × Str) :
    entry ∈ (validateProperties before properties).properties ↔
      entry ∈ properties.properties ∧ Retained before properties entry.1 := by
  rw [validateProperties]
  by_cases clears : unknownProps before properties ≠ [] ∧ warns properties = true
  · rw [if_pos clears, mem_cleared]
    constructor
    · rintro ⟨inside, known⟩
      refine ⟨inside, ?_⟩
      intro _ under
      by_contra invalid
      exact known (mem_unknown.mpr ⟨⟨entry.2, inside⟩, under, by simpa using invalid⟩)
    · rintro ⟨inside, retained⟩
      refine ⟨inside, ?_⟩
      intro unknown
      obtain ⟨_, under, invalid⟩ := mem_unknown.mp unknown
      rw [retained clears.2 under] at invalid
      cases invalid
  · rw [if_neg clears]
    constructor
    · intro inside
      refine ⟨inside, ?_⟩
      intro warned under
      by_contra invalid
      apply clears
      refine ⟨?_, warned⟩
      intro none
      have unknown : entry.1 ∈ unknownProps before properties :=
        mem_unknown.mpr ⟨⟨entry.2, inside⟩, under, by simpa using invalid⟩
      rw [none] at unknown
      cases unknown
    · exact fun both => both.1

theorem validate_same {before : Str} {properties : PropertiesI names} :
    validateProperties before properties = properties ↔
      ∀ entry ∈ properties.properties, Retained before properties entry.1 := by
  constructor
  · intro same entry inside
    rw [← same] at inside
    exact ((mem_validate before properties entry).mp inside).2
  · intro retained
    apply (shrinks_validate before properties).unchanged
    intro entry inside _
    exact (mem_validate before properties entry).mpr ⟨inside, retained entry inside⟩

end validation

section construction

variable (compile : Compiler)

def Compiles (name : Str) (properties : PropertiesI names) : Prop :=
  ∀ entry ∈ properties.getPropertiesForPrefix (name ++ [dot]), (compile entry.2).isSome = true

def Rules (mapPrefix : Str) (properties : PropertiesI names) : Prop :=
  Compiles compile (mapPrefix ++ text "Accept") properties ∧
    Compiles compile (mapPrefix ++ text "Reject") properties

/-- The rules compile, and there is nothing to be cleared under the prefix. -/
def Sound (mapPrefix : Str) (properties : PropertiesI names) : Prop :=
  Rules compile mapPrefix properties ∧
    ∀ entry ∈ properties.properties, Retained mapPrefix properties entry.1

/-- A map and its sub-maps can be created without a warning. -/
def Clean (factory : MetricsMapFactory) (mapPrefix : Str) (properties : PropertiesI names) :
    Prop :=
  Sound compile mapPrefix properties ∧ ∀ subMap ∈ factory.subMaps, ∀ before,
    subMapPrefix mapPrefix subMap properties = some before → Sound compile before properties

variable {compile} {properties : PropertiesI names}

theorem compile_rules_cases (compile : Compiler) (name : Str) (entries : List (Str × Str)) :
    (∃ rules, compileRules compile name entries = .ok rules ∧
        ∀ entry ∈ entries, (compile entry.2).isSome = true) ∨
      ∃ message, compileRules compile name entries = .error message ∧
        ∃ entry ∈ entries, (compile entry.2).isSome = false := by
  induction entries with
  | nil => exact .inl ⟨[], rfl, by simp⟩
  | cons entry rest ih =>
      obtain ⟨key, value⟩ := entry
      rw [compileRules]
      cases found : compile value with
      | none => exact .inr ⟨_, rfl, (key, value), List.mem_cons_self, by simp [found]⟩
      | some regex =>
          obtain ⟨rules, done, all⟩ | ⟨message, failed, entry, inside, bad⟩ := ih
          · left
            rw [done]
            refine ⟨_, rfl, ?_⟩
            intro entry inside
            obtain here | later := List.mem_cons.mp inside
            · rw [here]
              simp [found]
            · exact all entry later
          · right
            rw [failed]
            exact ⟨message, rfl, entry, List.mem_cons_of_mem _ inside, bad⟩

theorem parse_rule_cases (compile : Compiler) (name : Str) (properties : PropertiesI names) :
    (∃ rules, parseRule compile properties name = .ok rules ∧ Compiles compile name properties) ∨
      ∃ message, parseRule compile properties name = .error message ∧
        ¬ Compiles compile name properties ∧
          properties.getPropertiesForPrefix (name ++ [dot]) ≠ [] := by
  obtain done | ⟨message, failed, entry, inside, bad⟩ :=
    compile_rules_cases compile name (properties.getPropertiesForPrefix (name ++ [dot]))
  · exact .inl done
  · right
    refine ⟨message, failed, ?_, List.ne_nil_of_mem inside⟩
    intro compiles
    rw [compiles entry inside] at bad
    cases bad

theorem for_prefix_nonempty {before longer : Str} (inside : before <+: longer)
    (some : properties.getPropertiesForPrefix longer ≠ []) :
    properties.getPropertiesForPrefix before ≠ [] := by
  obtain ⟨entry, there⟩ := List.exists_mem_of_ne_nil _ some
  obtain ⟨known, under⟩ := mem_prefix_entries.mp there
  exact List.ne_nil_of_mem (mem_prefix_entries.mpr ⟨known, inside.trans under⟩)

/-- A map is constructed and its properties validated, or one of its rules does not compile. -/
theorem construct_cases (compile : Compiler) (mapPrefix : Str) (properties : PropertiesI names) :
    (∃ map, construct compile mapPrefix properties =
        (.ok map, validateProperties mapPrefix properties) ∧
          map.properties = properties.getPropertiesForPrefix mapPrefix ∧
          Rules compile mapPrefix properties) ∨
      ∃ message, construct compile mapPrefix properties = (.error message, properties) ∧
        ¬ Rules compile mapPrefix properties ∧
          properties.getPropertiesForPrefix mapPrefix ≠ [] := by
  rw [construct]
  obtain ⟨accept, accepted, compiles⟩ | ⟨message, failed, bad, some⟩ :=
    parse_rule_cases compile (mapPrefix ++ text "Accept") properties
  · rw [accepted]
    obtain ⟨reject, rejected, compilesToo⟩ | ⟨message, failed, bad, some⟩ :=
      parse_rule_cases compile (mapPrefix ++ text "Reject") properties
    · left
      rw [rejected]
      exact ⟨_, rfl, rfl, compiles, compilesToo⟩
    · right
      rw [failed]
      refine ⟨message, rfl, fun rules => bad rules.2, ?_⟩
      apply for_prefix_nonempty _ some
      rw [List.append_assoc]
      exact List.prefix_append _ _
  · right
    rw [failed]
    refine ⟨message, rfl, fun rules => bad rules.1, ?_⟩
    apply for_prefix_nonempty _ some
    rw [List.append_assoc]
    exact List.prefix_append _ _

theorem sub_map_prefix_under {mapPrefix subMap before : Str}
    (found : subMapPrefix mapPrefix subMap properties = some before) : mapPrefix <+: before := by
  rw [subMapPrefix] at found
  split at found
  · split at found
    · cases found
      exact List.prefix_refl _
    · cases found
  · rw [← Option.some.inj found, List.append_assoc, List.append_assoc]
    exact List.prefix_append _ _

theorem Shrinks.antisymm {base other : Str} {before after : PropertiesI names}
    (shrinks : Shrinks base before after) (back : Shrinks other after before) : after = before :=
  shrinks.unchanged fun _ inside _ => back.mem inside

theorem shrinks_sub_maps (compile : Compiler) (mapPrefix : Str) (subMaps : List Str)
    (properties : PropertiesI names) :
    Shrinks mapPrefix properties (createSubMaps compile mapPrefix subMaps properties).2 := by
  induction subMaps generalizing properties with
  | nil => exact shrinks_refl _ _
  | cons subMap rest ih =>
      rw [createSubMaps]
      cases found : subMapPrefix mapPrefix subMap properties with
      | none => exact ih properties
      | some before =>
          obtain ⟨map, done, _, _⟩ | ⟨message, failed, _, _⟩ :=
            construct_cases compile before properties
          · dsimp only
            rw [done]
            have first := (shrinks_validate before properties).widen (sub_map_prefix_under found)
            exact first.trans (ih _)
          · dsimp only
            rw [failed]
            exact shrinks_refl _ _

theorem sub_maps_failed {mapPrefix : Str} {subMaps : List Str}
    (failed : ∃ message,
      (createSubMaps compile mapPrefix subMaps properties).1 = .error message) :
    (createSubMaps compile mapPrefix subMaps properties).2.getPropertiesForPrefix mapPrefix ≠
      [] := by
  induction subMaps generalizing properties with
  | nil =>
      obtain ⟨message, failed⟩ := failed
      cases failed
  | cons subMap rest ih =>
      rw [createSubMaps] at failed ⊢
      cases found : subMapPrefix mapPrefix subMap properties with
      | none =>
          rw [found] at failed
          exact ih failed
      | some before =>
          rw [found] at failed
          obtain ⟨map, done, _, _⟩ | ⟨_, construction, _, some⟩ :=
            construct_cases compile before properties
          · dsimp only at failed ⊢
            rw [done] at failed ⊢
            dsimp only at failed ⊢
            cases others : (createSubMaps compile mapPrefix rest
                (validateProperties before properties)).1 with
            | error cause => exact ih ⟨cause, others⟩
            | ok maps =>
                obtain ⟨message, failed⟩ := failed
                rw [others] at failed
                cases failed
          · dsimp only
            rw [construction]
            exact for_prefix_nonempty (sub_map_prefix_under found) some

theorem sub_maps_clean {mapPrefix : Str} {subMaps : List Str} :
    (∃ maps, createSubMaps compile mapPrefix subMaps properties = (.ok maps, properties)) ↔
      ∀ subMap ∈ subMaps, ∀ before, subMapPrefix mapPrefix subMap properties = some before →
        Sound compile before properties := by
  induction subMaps with
  | nil => simp [createSubMaps]
  | cons subMap rest ih =>
      rw [createSubMaps, List.forall_mem_cons]
      cases found : subMapPrefix mapPrefix subMap properties with
      | none =>
          dsimp only
          rw [ih]
          simp
      | some before =>
          dsimp only
          obtain ⟨map, done, _, rules⟩ | ⟨message, failed, bad, _⟩ :=
            construct_cases compile before properties
          · rw [done]
            dsimp only
            constructor
            · rintro ⟨maps, all⟩
              have left := congrArg Prod.snd all
              dsimp only at left
              have rest := shrinks_sub_maps compile mapPrefix rest
                (validateProperties before properties)
              rw [left] at rest
              have same := (shrinks_validate before properties).antisymm rest
              refine ⟨?_, ih.mp ?_⟩
              · intro other isOther
                rw [← Option.some.inj isOther]
                exact ⟨rules, validate_same.mp same⟩
              · rw [same] at all left
                obtain ⟨others, made, _⟩ := Results.map_ok (congrArg Prod.fst all)
                exact ⟨others, Prod.ext made left⟩
            · rintro ⟨sound, others⟩
              have same := validate_same.mpr (sound before rfl).2
              obtain ⟨maps, made⟩ := ih.mpr others
              rw [same, made]
              exact ⟨_, rfl⟩
          · rw [failed]
            constructor
            · rintro ⟨maps, all⟩
              cases congrArg Prod.fst all
            · rintro ⟨sound, _⟩
              exact absurd (sound before rfl).1 bad

variable {factory : MetricsMapFactory} {serial : Nat} {mapPrefix : Str}

theorem shrinks_create (compile : Compiler) (factory : MetricsMapFactory) (serial : Nat)
    (mapPrefix : Str) (properties : PropertiesI names) :
    Shrinks mapPrefix properties (factory.create compile serial mapPrefix properties).2 := by
  rw [MetricsMapFactory.create]
  obtain ⟨map, done, _, _⟩ | ⟨message, failed, _, _⟩ :=
    construct_cases compile mapPrefix properties
  · rw [done]
    exact (shrinks_validate mapPrefix properties).trans (shrinks_sub_maps compile mapPrefix _ _)
  · rw [failed]
    exact shrinks_refl _ _

theorem created_properties {map : MapObject}
    (created : (factory.create compile serial mapPrefix properties).1 = .ok map) :
    map.map.properties = properties.getPropertiesForPrefix mapPrefix := by
  rw [MetricsMapFactory.create] at created
  obtain ⟨base, done, snapshot, _⟩ | ⟨message, failed, _, _⟩ :=
    construct_cases compile mapPrefix properties
  · rw [done] at created
    obtain ⟨subMaps, _, same⟩ := Results.map_ok created
    rw [← same]
    exact snapshot
  · rw [failed] at created
    cases created

theorem create_failed {message : Str}
    (failed : (factory.create compile serial mapPrefix properties).1 = .error message) :
    (factory.create compile serial mapPrefix properties).2.getPropertiesForPrefix mapPrefix ≠
      [] := by
  rw [MetricsMapFactory.create] at failed ⊢
  obtain ⟨base, done, _, _⟩ | ⟨_, construction, _, some⟩ :=
    construct_cases compile mapPrefix properties
  · rw [done] at failed ⊢
    dsimp only at failed ⊢
    cases made : (createSubMaps compile mapPrefix factory.subMaps
        (validateProperties mapPrefix properties)).1 with
    | error cause => exact sub_maps_failed ⟨cause, made⟩
    | ok subMaps =>
        rw [made] at failed
        cases failed
  · rw [construction]
    exact some

theorem create_clean : (∃ map, factory.create compile serial mapPrefix properties =
    (.ok map, properties)) ↔ Clean compile factory mapPrefix properties := by
  rw [MetricsMapFactory.create, Clean]
  obtain ⟨base, done, _, rules⟩ | ⟨message, failed, bad, _⟩ :=
    construct_cases compile mapPrefix properties
  · rw [done]
    dsimp only
    constructor
    · rintro ⟨map, all⟩
      have left := congrArg Prod.snd all
      dsimp only at left
      have rest := shrinks_sub_maps compile mapPrefix factory.subMaps
        (validateProperties mapPrefix properties)
      rw [left] at rest
      have same := (shrinks_validate mapPrefix properties).antisymm rest
      rw [same] at all left
      obtain ⟨subMaps, made, _⟩ := Results.map_ok (congrArg Prod.fst all)
      exact ⟨⟨rules, validate_same.mp same⟩, sub_maps_clean.mp ⟨subMaps, Prod.ext made left⟩⟩
    · rintro ⟨sound, others⟩
      have same := validate_same.mpr sound.2
      obtain ⟨subMaps, made⟩ := sub_maps_clean.mpr others
      rw [same, made]
      exact ⟨_, rfl⟩
  · rw [failed]
    constructor
    · rintro ⟨map, all⟩
      cases congrArg Prod.fst all
    · rintro ⟨sound, _⟩
      exact absurd sound.1 bad

end construction

end IceTouch.Metrics

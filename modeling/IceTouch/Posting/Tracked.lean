import IceTouch.Decoder
import Mathlib.Data.List.Nodup
import Mathlib.Data.List.Perm.Basic
import Mathlib.Data.Set.Insert

/-!
# Instances that are completed, posted and deferred

`EncapsDecoder::unmarshal` calls `ice_postUnmarshal` at once or puts the instance on
`_objectList`, which is worked off when the patch map is empty. `Tracked` is the invariant
behind it. Every instance has been posted, or is on the list, or is still being built, and is
in one of these places once; every cell has been asked for once, or its reader still owes it a
value; and the list is empty whenever the patch map is. What has been asked for waits in the
patch map or is there.
-/

namespace IceTouch.Posting

open WireTypes Classes Decoder

variable {κ ρ : Type}

theorem mem_of_lookup {α β : Type} [BEq α] [LawfulBEq α] {map : List (α × β)} {key : α} {value : β}
    (found : map.lookup key = some value) : (key, value) ∈ map := by
  obtain ⟨before, after, rfl, -⟩ := List.lookup_eq_some_iff.mp found
  simp

theorem prefix_get {α : Type} {small large : List α} (grown : small <+: large) {position : Nat}
    {item : α} (found : small[position]? = some item) : large[position]? = some item := by
  obtain ⟨more, rfl⟩ := grown
  obtain ⟨bound, _⟩ := List.getElem?_eq_some_iff.mp found
  rw [List.getElem?_append_left bound, found]

theorem patch_all_handles (id : ObjectId) (handles : List Handle) (decoder : EncapsDecoder κ)
    (handle : Handle) (bound : handle < decoder.handles.length) :
    (decoder.patchAll id handles).handles[handle]? =
      if handle ∈ handles then some (some id) else decoder.handles[handle]? := by
  induction handles generalizing decoder with
  | nil => rfl
  | cons first rest ih =>
      rw [EncapsDecoder.patchAll, ih (decoder.patch first id) (by simpa [EncapsDecoder.patch] using bound)]
      by_cases later : handle ∈ rest
      · simp [later]
      · by_cases same : first = handle
        · subst same
          simp [later, EncapsDecoder.patch, bound]
        · simp [later, EncapsDecoder.patch, same, Ne.symm same]

@[simp] theorem patch_all_fields (id : ObjectId) (handles : List Handle) (decoder : EncapsDecoder κ) :
    (decoder.patchAll id handles).handles.length = decoder.handles.length ∧
    (decoder.patchAll id handles).patchMap = decoder.patchMap ∧
    (decoder.patchAll id handles).unmarshaledMap = decoder.unmarshaledMap ∧
    (decoder.patchAll id handles).objectList = decoder.objectList ∧
    (decoder.patchAll id handles).typeIdMap = decoder.typeIdMap ∧
    (decoder.patchAll id handles).objects = decoder.objects ∧
    (decoder.patchAll id handles).posted = decoder.posted ∧
    (decoder.patchAll id handles).asked = decoder.asked ∧
    (decoder.patchAll id handles).own = decoder.own := by
  induction handles generalizing decoder with
  | nil => simp [EncapsDecoder.patchAll]
  | cons first rest ih => simpa [EncapsDecoder.patchAll, EncapsDecoder.patch] using ih (decoder.patch first id)

def classRefs {ρ : Type} : (type : WireType) → Value ρ type → List ρ
  | .sequence element => fun (items : List (Value ρ element)) => items.flatMap (classRefs element)
  | .dictionary key value => fun (entries : List (Value ρ key × Value ρ value)) =>
      entries.flatMap fun entry => classRefs key entry.1 ++ classRefs value entry.2
  | .struct last => classRefs last
  | .structCons first rest => fun (members : Value ρ first × Value ρ rest) =>
      classRefs first members.1 ++ classRefs rest members.2
  | .cls => fun (ref : ρ) => [ref]
  | .bool | .byte | .short | .int | .long | .float | .double | .string | .enum _ | .proxy =>
      fun _ => []

def memberRefs : (types : List WireType) → Members ρ types → List ρ
  | [] => fun _ => []
  | type :: types => fun (members : Value ρ type × Members ρ types) =>
      classRefs type members.1 ++ memberRefs types members.2

def optionalRefs : (defs : List (Nat × WireType)) → Optionals ρ defs → List ρ
  | [] => fun _ => []
  | (_, type) :: rest => fun (members : Option (Value ρ type) × Optionals ρ rest) =>
      members.1.toList.flatMap (classRefs type) ++ optionalRefs rest members.2

def sliceRefs (inst : SliceInst ρ) : List ρ :=
  memberRefs inst.slice.members inst.members ++ optionalRefs inst.slice.optionals inst.optionals

/-- The cells of the class-typed members of an instance, and of its preserved slices. -/
def cells (obj : Obj ρ ρ) : List ρ :=
  obj.slices.flatMap sliceRefs ++ obj.preserved.flatMap SliceInfo.objects

/-- What a number stands for: nil, or the instance with the number. -/
def target (unmarshaledMap : List (Nat × ObjectId)) (index : Nat) : Option (Option ObjectId) :=
  if index = 0 then some none else (unmarshaledMap.lookup index).map some

def Answered (unmarshaledMap : List (Nat × ObjectId)) (handles : List (Option ObjectId))
    (entry : Handle × Nat) : Prop :=
  ∃ held, target unmarshaledMap entry.2 = some held ∧ handles[entry.1]? = some held

/-- The call is not early: nothing is left to patch, the instance has its members, and each
class-typed member has been set to its target. -/
structure Timely (posted : Posted) : Prop where
  resolved : posted.patchMap = []
  set : ∃ obj, posted.objects[posted.id]? = some (some obj) ∧ ∀ handle ∈ cells obj,
    ∃ index, (handle, index) ∈ posted.asked ∧
      Answered posted.unmarshaledMap posted.handles (handle, index)

/-- The call has been made exactly once on every instance created, and never early. -/
structure Delivered (decoder : EncapsDecoder κ) : Prop where
  once : (decoder.posted.map Posted.id).Perm (List.range decoder.objects.length)
  timely : ∀ posted ∈ decoder.posted, Timely posted

/-- The instance has its members, and all of them have been asked for. -/
def Filled (decoder : EncapsDecoder κ) (id : ObjectId) : Prop :=
  ∃ obj, decoder.objects[id]? = some (some obj) ∧
    ∀ handle ∈ cells obj, handle ∈ decoder.asked.map Prod.fst

/-- `building` has the instances that are not complete, with their numbers, `ready` those that
are to be posted, and `owed` the cells that a reader has allocated and not asked for yet. -/
structure Kept (building : List (Nat × ObjectId)) (ready : List ObjectId) (owed : List Handle)
    (decoder : EncapsDecoder κ) : Prop where
  instances : (decoder.posted.map Posted.id ++ ready ++ building.map Prod.snd).Perm
    (List.range decoder.objects.length)
  allocated : (owed ++ decoder.asked.map Prod.fst).Perm (List.range decoder.handles.length)
  nil : ∀ handle ∈ owed, decoder.handles[handle]? = some none
  waiting : ∀ index handle, (index, handle) ∈ decoder.patchMap →
    index ≠ 0 ∧ (handle, index) ∈ decoder.asked ∧
      ∀ id, decoder.unmarshaledMap.lookup index = some id → (index, id) ∈ building
  answered : ∀ entry ∈ decoder.asked, (entry.2, entry.1) ∈ decoder.patchMap ∨
    Answered decoder.unmarshaledMap decoder.handles entry
  filled : ∀ id ∈ ready, Filled decoder id
  timely : ∀ posted ∈ decoder.posted, Timely posted

structure Tracked (building : List (Nat × ObjectId)) (owed : List Handle)
    (decoder : EncapsDecoder κ) : Prop extends Kept building decoder.objectList owed decoder where
  deferred : decoder.patchMap = [] → decoder.objectList = []

variable {map : List (Nat × ObjectId)}

theorem target_found {index : Nat} {id : ObjectId} (numbered : index ≠ 0)
    (found : map.lookup index = some id) : target map index = some (some id) := by
  rw [target, if_neg numbered, found]
  rfl

theorem target_append {more : List (Nat × ObjectId)} {index : Nat} {held : Option ObjectId}
    (same : target map index = some held) : target (map ++ more) index = some held := by
  unfold target at same ⊢
  split
  case isTrue zero => rwa [if_pos zero] at same
  case isFalse numbered =>
    rw [if_neg numbered] at same
    obtain ⟨id, found, rfl⟩ := Option.map_eq_some_iff.mp same
    rw [List.lookup_append, found]
    rfl

namespace Tracked

variable {building : List (Nat × ObjectId)} {owed : List Handle} {decoder : EncapsDecoder κ}

theorem initial (own : κ) : Tracked [] [] (EncapsDecoder.fresh own) where
  instances := List.Perm.refl _
  allocated := List.Perm.refl _
  deferred := fun _ => rfl
  nil := by simp
  waiting := by simp [EncapsDecoder.fresh]
  answered := by simp [EncapsDecoder.fresh]
  filled := by simp [EncapsDecoder.fresh]
  timely := by simp [EncapsDecoder.fresh]

theorem restate {κ' : Type} (tracked : Tracked building owed decoder) (own : κ') (typeIds : List Str) :
    Tracked building owed
      { patchMap := decoder.patchMap
        unmarshaledMap := decoder.unmarshaledMap
        objectList := decoder.objectList
        typeIdMap := typeIds
        handles := decoder.handles
        objects := decoder.objects
        posted := decoder.posted
        asked := decoder.asked
        own := own } where
  instances := tracked.instances
  allocated := tracked.allocated
  deferred := tracked.deferred
  nil := tracked.nil
  waiting := tracked.waiting
  answered := tracked.answered
  filled := tracked.filled
  timely := tracked.timely

theorem reorder {other : List Handle} (tracked : Tracked building owed decoder)
    (same : other.Perm owed) : Tracked building other decoder where
  instances := tracked.instances
  allocated := (same.append_right _).trans tracked.allocated
  deferred := tracked.deferred
  nil := fun handle member => tracked.nil handle (same.mem_iff.mp member)
  waiting := tracked.waiting
  answered := tracked.answered
  filled := tracked.filled
  timely := tracked.timely

theorem distinct (tracked : Tracked building owed decoder) :
    (owed ++ decoder.asked.map Prod.fst).Nodup :=
  tracked.allocated.nodup_iff.mpr List.nodup_range

variable {handle : Handle}

section

variable (tracked : Tracked building owed decoder)

include tracked

theorem owed_lt (member : handle ∈ owed) : handle < decoder.handles.length :=
  List.mem_range.mp (tracked.allocated.mem_iff.mp (List.mem_append_left _ member))

theorem asked_of_not_owed (bound : handle < decoder.handles.length) (notOwed : handle ∉ owed) :
    handle ∈ decoder.asked.map Prod.fst := by
  have member := tracked.allocated.mem_iff.mpr (List.mem_range.mpr bound)
  exact (List.mem_append.mp member).resolve_left notOwed

theorem asked_unique {one two : Nat} (first : (handle, one) ∈ decoder.asked)
    (second : (handle, two) ∈ decoder.asked) : one = two := by
  have keys : (decoder.asked.map Prod.fst).Nodup := (List.nodup_append.mp tracked.distinct).2.1
  exact congrArg Prod.snd (List.inj_on_of_nodup_map keys first second rfl)

theorem newCell :
    Tracked building (decoder.handles.length :: owed)
      { decoder with handles := decoder.handles ++ [none] } where
  instances := tracked.instances
  allocated := by
    rw [List.length_append, List.length_singleton, List.range_succ, List.cons_append]
    exact (tracked.allocated.cons _).trans (List.perm_append_singleton _ _).symm
  deferred := tracked.deferred
  nil := by
    intro handle member
    rcases List.mem_cons.mp member with rfl | member
    · simp
    · exact prefix_get (List.prefix_append _ _) (tracked.nil handle member)
  waiting := tracked.waiting
  answered := by
    intro entry member
    rcases tracked.answered entry member with waits | ⟨held, known, there⟩
    · exact Or.inl waits
    · exact Or.inr ⟨held, known, prefix_get (List.prefix_append _ _) there⟩
  filled := tracked.filled
  timely := tracked.timely

end

theorem filled_ask {index : Nat} {id : ObjectId} (filled : Filled decoder id) :
    Filled (decoder.ask handle index) id := by
  obtain ⟨obj, stored, asked⟩ := filled
  refine ⟨obj, stored, fun other member => ?_⟩
  rw [EncapsDecoder.ask, List.map_append]
  exact List.mem_append_left _ (asked other member)

section

variable (tracked : Tracked building (handle :: owed) decoder)

include tracked

theorem allocated_ask (index : Nat) :
    (owed ++ (decoder.ask handle index).asked.map Prod.fst).Perm
      (List.range decoder.handles.length) := by
  have moved : (owed ++ (decoder.asked.map Prod.fst ++ [handle])).Perm
      (handle :: owed ++ decoder.asked.map Prod.fst) := by
    rw [← List.append_assoc, List.cons_append]
    exact List.perm_append_singleton _ _
  rw [EncapsDecoder.ask, List.map_append]
  exact moved.trans tracked.allocated

theorem patchNil :
    Tracked building owed (decoder.ask handle 0) where
  instances := tracked.instances
  allocated := tracked.allocated_ask 0
  deferred := tracked.deferred
  nil := fun other member => tracked.nil other (List.mem_cons_of_mem _ member)
  waiting := by
    intro index other member
    obtain ⟨numbered, asked, unfinished⟩ := tracked.waiting index other member
    exact ⟨numbered, List.mem_append_left _ asked, unfinished⟩
  answered := by
    intro entry member
    rcases List.mem_append.mp member with member | member
    · exact tracked.answered entry member
    · obtain rfl := List.mem_singleton.mp member
      exact Or.inr ⟨none, rfl, tracked.nil handle List.mem_cons_self⟩
  filled := fun id member => filled_ask (tracked.filled id member)
  timely := tracked.timely

theorem patch {index : Nat} {id : ObjectId} (numbered : index ≠ 0)
    (found : decoder.unmarshaledMap.lookup index = some id) :
    Tracked building owed ((decoder.ask handle index).patch handle id) := by
  have bound := tracked.owed_lt List.mem_cons_self
  obtain ⟨fresh, -⟩ := List.nodup_cons.mp tracked.distinct
  have untouched : ∀ {other : Handle}, other ≠ handle →
      (decoder.handles.set handle (some id))[other]? = decoder.handles[other]? := by
    intro other different
    rw [List.getElem?_set_ne different.symm]
  refine ⟨⟨tracked.instances, ?_, ?_, ?_, ?_, ?_, tracked.timely⟩, tracked.deferred⟩
  · rw [EncapsDecoder.patch, List.length_set]
    exact tracked.allocated_ask index
  · intro other member
    have different : other ≠ handle := by
      rintro rfl
      exact fresh (List.mem_append_left _ member)
    exact (untouched different).trans (tracked.nil other (List.mem_cons_of_mem _ member))
  · intro other waiter member
    obtain ⟨positive, asked, unfinished⟩ := tracked.waiting other waiter member
    exact ⟨positive, List.mem_append_left _ asked, unfinished⟩
  · intro entry member
    rcases List.mem_append.mp member with member | member
    · rcases tracked.answered entry member with waits | ⟨held, known, there⟩
      · exact Or.inl waits
      · have different : entry.1 ≠ handle := by
          intro same
          rw [← same] at fresh
          exact fresh (List.mem_append_right _ (List.mem_map_of_mem member))
        exact Or.inr ⟨held, known, (untouched different).trans there⟩
    · obtain rfl := List.mem_singleton.mp member
      exact Or.inr ⟨some id, target_found numbered found, List.getElem?_set_self bound⟩
  · exact fun other member => filled_ask (tracked.filled other member)

theorem addEntry {index : Nat} (numbered : index ≠ 0) :
    Tracked building owed (decoder.addEntry index handle) := by
  unfold EncapsDecoder.addEntry
  split
  case h_1 id found => exact tracked.patch numbered found
  case h_2 absent =>
    refine ⟨⟨tracked.instances, tracked.allocated_ask index, ?_, ?_, ?_, ?_, tracked.timely⟩,
      fun empty => absurd empty (List.append_ne_nil_of_right_ne_nil _ (List.cons_ne_nil _ _))⟩
    · exact fun other member => tracked.nil other (List.mem_cons_of_mem _ member)
    · intro other waiter member
      rcases List.mem_append.mp member with member | member
      · obtain ⟨positive, asked, unfinished⟩ := tracked.waiting other waiter member
        exact ⟨positive, List.mem_append_left _ asked, unfinished⟩
      · obtain ⟨rfl, rfl⟩ := Prod.mk.inj (List.mem_singleton.mp member)
        refine ⟨numbered, List.mem_append_right _ List.mem_cons_self, fun id found => ?_⟩
        exact absurd (absent.symm.trans found) (Option.some_ne_none id).symm
    · intro entry member
      rcases List.mem_append.mp member with member | member
      · exact (tracked.answered entry member).imp_left fun waits => List.mem_append_left _ waits
      · obtain rfl := List.mem_singleton.mp member
        exact Or.inl (List.mem_append_right _ List.mem_cons_self)
    · exact fun id member => filled_ask (tracked.filled id member)

end

theorem allocate (tracked : Tracked building owed decoder) (index : Nat) :
    Tracked ((index, decoder.objects.length) :: building) owed (decoder.allocate index) where
  instances := by
    rw [EncapsDecoder.allocate, List.length_append, List.length_singleton, List.range_succ,
      List.map_cons]
    have moved : (decoder.posted.map Posted.id ++ decoder.objectList ++
        decoder.objects.length :: building.map Prod.snd).Perm (decoder.objects.length ::
          (decoder.posted.map Posted.id ++ decoder.objectList ++ building.map Prod.snd)) :=
      List.perm_middle
    exact (moved.trans (tracked.instances.cons _)).trans (List.perm_append_singleton _ _).symm
  allocated := tracked.allocated
  deferred := tracked.deferred
  nil := tracked.nil
  waiting := by
    intro other handle member
    obtain ⟨numbered, asked, unfinished⟩ := tracked.waiting other handle member
    refine ⟨numbered, asked, fun id found => ?_⟩
    rw [EncapsDecoder.allocate, List.lookup_append] at found
    cases known : decoder.unmarshaledMap.lookup other with
    | some before =>
        rw [known] at found
        obtain rfl := Option.some_inj.mp found
        exact List.mem_cons_of_mem _ (unfinished before known)
    | none =>
        rw [known, Option.none_or] at found
        obtain ⟨rfl, rfl⟩ := Prod.mk.inj (List.mem_singleton.mp (mem_of_lookup found))
        exact List.mem_cons_self
  answered := by
    intro entry member
    rcases tracked.answered entry member with waits | ⟨held, known, there⟩
    · exact Or.inl waits
    · exact Or.inr ⟨held, target_append known, there⟩
  filled := by
    intro id member
    obtain ⟨obj, stored, asked⟩ := tracked.filled id member
    exact ⟨obj, prefix_get (List.prefix_append _ _) stored, asked⟩
  timely := tracked.timely

end Tracked

section Complete

variable {building : List (Nat × ObjectId)} {owed : List Handle} {decoder : EncapsDecoder κ}
variable {index : Nat} {id : ObjectId} {obj : Obj Handle Handle}

theorem complete_handles {handle : Handle} (bound : handle < decoder.handles.length) :
    (decoder.complete index id obj).handles[handle]? =
      if (index, handle) ∈ decoder.patchMap then some (some id) else decoder.handles[handle]? := by
  rw [EncapsDecoder.complete, patch_all_handles id _ decoder handle bound]
  simp

@[simp] theorem complete_fields (decoder : EncapsDecoder κ) (index : Nat) (id : ObjectId)
    (obj : Obj Handle Handle) :
    (decoder.complete index id obj).handles.length = decoder.handles.length ∧
    (decoder.complete index id obj).patchMap = decoder.patchMap.filter (fun entry => entry.1 ≠ index) ∧
    (decoder.complete index id obj).unmarshaledMap = decoder.unmarshaledMap ∧
    (decoder.complete index id obj).objectList = decoder.objectList ∧
    (decoder.complete index id obj).objects = decoder.objects.set id (some obj) ∧
    (decoder.complete index id obj).posted = decoder.posted ∧
    (decoder.complete index id obj).asked = decoder.asked ∧
    (decoder.complete index id obj).own = decoder.own := by
  simp [EncapsDecoder.complete]

theorem Tracked.building_fresh (tracked : Tracked ((index, id) :: building) owed decoder) :
    id < decoder.objects.length ∧ id ∉ decoder.objectList := by
  constructor
  · exact List.mem_range.mp (tracked.instances.mem_iff.mp (by simp))
  · intro listed
    have distinct := tracked.instances.nodup_iff.mpr List.nodup_range
    have apart := (List.nodup_append.mp distinct).2.2 id (List.mem_append_right _ listed) id
      List.mem_cons_self
    exact apart rfl

/-- The members of an instance have been read, and the cells that waited for it are patched. -/
theorem Tracked.complete (tracked : Tracked ((index, id) :: building) owed decoder)
    (own : ∀ handle, (index, handle) ∈ decoder.patchMap →
      decoder.unmarshaledMap.lookup index = some id)
    (full : ∀ handle ∈ cells obj, handle ∈ decoder.asked.map Prod.fst) :
    Kept building (decoder.objectList ++ [id]) owed (decoder.complete index id obj) := by
  obtain ⟨length, patchMap, unmarshaledMap, -, objects, posted, asked, -⟩ :=
    complete_fields decoder index id obj
  obtain ⟨bound, unlisted⟩ := tracked.building_fresh
  refine ⟨?_, ?_, ?_, ?_, ?_, ?_, ?_⟩
  · rw [posted, objects, List.length_set]
    simpa using tracked.instances
  · rw [asked, length]
    exact tracked.allocated
  · intro handle member
    rw [complete_handles (tracked.owed_lt member), if_neg, tracked.nil handle member]
    intro waits
    have other := List.mem_map_of_mem (f := Prod.fst) (tracked.waiting index handle waits).2.1
    exact (List.nodup_append.mp tracked.distinct).2.2 handle member handle other rfl
  · intro number handle member
    rw [patchMap, List.mem_filter, decide_eq_true_eq] at member
    obtain ⟨numbered, known, unfinished⟩ := tracked.waiting number handle member.1
    rw [asked, unmarshaledMap]
    refine ⟨numbered, known, fun place found => ?_⟩
    refine (List.mem_cons.mp (unfinished place found)).resolve_left fun same => ?_
    exact member.2 (congrArg Prod.fst same)
  · intro entry member
    rw [asked] at member
    have inside : entry.1 < decoder.handles.length := List.mem_range.mp
      (tracked.allocated.mem_iff.mp (List.mem_append_right _ (List.mem_map_of_mem member)))
    rw [patchMap, unmarshaledMap, List.mem_filter, decide_eq_true_eq]
    by_cases same : entry.2 = index
    · subst same
      refine Or.inr ?_
      rcases tracked.answered entry member with waits | ⟨held, known, there⟩
      · refine ⟨some id, target_found (tracked.waiting _ _ waits).1 (own _ waits), ?_⟩
        rw [complete_handles inside, if_pos waits]
      · refine ⟨held, known, ?_⟩
        rw [complete_handles inside]
        split
        case isTrue waits =>
          rw [target_found (tracked.waiting _ _ waits).1 (own _ waits)] at known
          exact known
        case isFalse => exact there
    · rcases tracked.answered entry member with waits | ⟨held, known, there⟩
      · exact Or.inl ⟨waits, same⟩
      · refine Or.inr ⟨held, known, ?_⟩
        rw [complete_handles inside, if_neg, there]
        intro waits
        exact same (tracked.asked_unique member (tracked.waiting index _ waits).2.1)
  · intro other member
    rw [Filled, objects, asked]
    rcases List.mem_append.mp member with member | member
    · obtain ⟨content, stored, known⟩ := tracked.filled other member
      have different : id ≠ other := by
        rintro rfl
        exact unlisted member
      exact ⟨content, (List.getElem?_set_ne different).trans stored, known⟩
    · obtain rfl := List.mem_singleton.mp member
      exact ⟨obj, List.getElem?_set_self bound, full⟩
  · rw [posted]
    exact tracked.timely

variable {ready : List ObjectId}

theorem Kept.post (kept : Kept building ready owed decoder) (resolved : decoder.patchMap = []) :
    Tracked building owed { decoder.post ready with objectList := [] } where
  instances := by
    rw [EncapsDecoder.post, List.map_append, List.map_map]
    have same : ready.map (Posted.id ∘ fun id => (⟨id, decoder.patchMap, decoder.unmarshaledMap,
        decoder.handles, decoder.objects, decoder.asked⟩ : Posted)) = ready := List.map_id ready
    rw [same, List.append_nil]
    exact kept.instances
  allocated := kept.allocated
  nil := kept.nil
  waiting := kept.waiting
  answered := kept.answered
  filled := by simp
  timely := by
    intro posted member
    rcases List.mem_append.mp member with before | now
    · exact kept.timely posted before
    · obtain ⟨id, listed, rfl⟩ := List.mem_map.mp now
      obtain ⟨obj, stored, asked⟩ := kept.filled id listed
      refine ⟨resolved, obj, stored, fun handle inside => ?_⟩
      obtain ⟨entry, noted, rfl⟩ := List.mem_map.mp (asked handle inside)
      refine ⟨entry.2, noted, (kept.answered entry noted).resolve_left ?_⟩
      rw [resolved]
      exact List.not_mem_nil
  deferred := fun _ => rfl

theorem Kept.defer (kept : Kept building ready owed decoder) (unresolved : decoder.patchMap ≠ []) :
    Tracked building owed { decoder with objectList := ready } where
  instances := kept.instances
  allocated := kept.allocated
  nil := kept.nil
  waiting := kept.waiting
  answered := kept.answered
  filled := kept.filled
  timely := kept.timely
  deferred := fun resolved => absurd resolved unresolved

theorem post_idle (idle : decoder.objectList = []) (ids : List ObjectId) :
    decoder.post ids = { decoder.post ids with objectList := [] } := by
  unfold EncapsDecoder.post
  rw [idle]

theorem Tracked.finish (tracked : Tracked ((index, id) :: building) owed decoder)
    (own : ∀ handle, (index, handle) ∈ decoder.patchMap →
      decoder.unmarshaledMap.lookup index = some id)
    (full : ∀ handle ∈ cells obj, handle ∈ decoder.asked.map Prod.fst) :
    Tracked building owed ((decoder.complete index id obj).postUnmarshal id) := by
  have kept := tracked.complete own full
  have listed : (decoder.complete index id obj).objectList = decoder.objectList := by simp
  rw [← listed] at kept
  unfold EncapsDecoder.postUnmarshal
  split
  case isTrue idle =>
    have posted := kept.post idle.2
    rw [idle.1] at posted
    rw [post_idle idle.1]
    exact posted
  case isFalse =>
    dsimp only
    split
    case isTrue resolved => exact kept.post resolved
    case isFalse unresolved => exact kept.defer unresolved

theorem Tracked.delivered (tracked : Tracked [] owed decoder) (resolved : decoder.patchMap = []) :
    Delivered decoder where
  once := by
    have counted := tracked.instances
    rwa [tracked.deferred resolved, List.append_nil, List.map_nil, List.append_nil] at counted
  timely := tracked.timely

end Complete

end IceTouch.Posting

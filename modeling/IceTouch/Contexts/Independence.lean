import IceTouch.Contexts.PerThreadImplicitContext
import IceTouch.Library.Lists
import IceTouch.Library.Results

/-!
# Independent contexts

What the implicit contexts of threads are for: each pair of a live instance and a thread has a
map of its own, on which the calls do what they do on a shared context. The slot vectors are
such maps: a slot holds the map of the instance that owns it, and the map of every other one that
has its index is empty.
-/

namespace IceTouch.Contexts

open ByteOrder WireTypes OrderedMap Machine

def slotAt (vector : Option (List Slot)) (index : Nat) : Option (Context × Int) :=
  (vector.bind fun slots => slots[index]?).bind fun slot =>
    slot.context.map fun context => (context, slot.owner)

def contents (this : PerThreadImplicitContext) (vector : Option (List Slot)) : Context :=
  match slotAt vector this.index with
  | none => []
  | some (context, owner) => if owner = this.id then context else []

/-- The slot of the instance is its own or empty, and `context` is its map. -/
def Holds (this : PerThreadImplicitContext) (context : Context) (vector : Option (List Slot)) :
    Prop :=
  (slotAt vector this.index = none ∧ context = []) ∨
    slotAt vector this.index = some (context, (this.id : Int))

def Spares (this : PerThreadImplicitContext) (vector after : Option (List Slot)) : Prop :=
  ∀ index, index ≠ this.index → slotAt after index = slotAt vector index

theorem Spares.trans {this : PerThreadImplicitContext} {vector middle after : Option (List Slot)}
    (first : Spares this vector middle) (second : Spares this middle after) :
    Spares this vector after :=
  fun index other => (second index other).trans (first index other)

theorem Holds.contents {this : PerThreadImplicitContext} {context : Context}
    {vector : Option (List Slot)} (holds : Holds this context vector) :
    contents this vector = context := by
  unfold Contexts.contents
  obtain ⟨nothing, empty⟩ | owned := holds
  · rw [nothing, empty]
  · rw [owned]
    exact if_pos rfl

theorem slot_at_set (slots : List Slot) (slot : Slot) {index : Nat} (inside : index < slots.length)
    (other : Nat) :
    slotAt (some (slots.set index slot)) other =
      if other = index then slot.context.map fun context => (context, slot.owner)
      else slotAt (some slots) other := by
  unfold slotAt
  by_cases same : other = index
  · subst same
    simp [inside]
  · simp [List.getElem?_set_ne (Ne.symm same), same]

theorem slot_at_resize (slots : List Slot) {size : Nat} (longer : slots.length ≤ size)
    (index : Nat) : slotAt (some (resize size slots)) index = slotAt (some slots) index := by
  unfold slotAt resize
  rw [List.take_of_length_le longer]
  by_cases inside : index < slots.length
  · simp [List.getElem?_append_left inside]
  · have outside := Nat.le_of_not_lt inside
    rw [Option.bind_some, Option.bind_some, List.getElem?_append_right outside,
      List.getElem?_eq_none outside, List.getElem?_replicate]
    split <;> rfl

theorem slot_at_new (size index : Nat) :
    slotAt (some (List.replicate size Slot.empty)) index = none := by
  unfold slotAt
  rw [Option.bind_some, List.getElem?_replicate]
  split <;> rfl

theorem slot_at_get {slots : List Slot} {index : Nat} (inside : index < slots.length) :
    slotAt (some slots) index =
      (slots.getD index .empty).context.map fun context =>
        (context, (slots.getD index .empty).owner) := by
  simp [slotAt, List.getD_eq_getElem?_getD, List.getElem?_eq_getElem inside]

theorem slot_at_trimmed (slots : List Slot) (index : Nat) :
    slotAt (some (slots.rdropWhile fun slot => slot.context.isNone)) index =
      slotAt (some slots) index := by
  induction slots using List.reverseRecOn with
  | nil => rfl
  | append_singleton slots last ih =>
      cases context : last.context with
      | some held => rw [List.rdropWhile_concat_neg _ _ _ (by simp [context])]
      | none =>
          rw [List.rdropWhile_concat_pos _ _ _ (by simp [context]), ih]
          unfold slotAt
          rw [Option.bind_some, Option.bind_some]
          by_cases inside : index < slots.length
          · rw [List.getElem?_append_left inside]
          · have outside := Nat.le_of_not_lt inside
            rw [List.getElem?_append_right outside, List.getElem?_eq_none outside]
            by_cases here : index - slots.length = 0
            · simp [here, context]
            · simp [here]

namespace PerThreadImplicitContext

/-- What `getThreadContext` returns and leaves. -/
structure Found (this : PerThreadImplicitContext) (allocate : Bool)
    (vector : Option (List Slot)) (found : Option Context × Option (List Slot)) : Prop where
  spares : Spares this vector found.2
  missing : found.1 = none → allocate = false ∧ contents this vector = [] ∧
    slotAt found.2 this.index = none
  there : ∀ context, found.1 = some context → context = contents this vector ∧
    slotAt found.2 this.index = some (context, (this.id : Int))

theorem use_slot_found (this : PerThreadImplicitContext) (allocate : Bool) {slots : List Slot}
    (inside : this.index < slots.length) :
    Found this allocate (some slots) (useSlot this allocate slots) := by
  have here := slot_at_get inside
  have placed := slot_at_set slots ⟨some [], this.id⟩ inside
  have taken : slotAt (some (slots.set this.index ⟨some [], this.id⟩)) this.index =
      some ([], (this.id : Int)) := by
    rw [placed, if_pos rfl]
    rfl
  have others : Spares this (some slots) (some (slots.set this.index ⟨some [], this.id⟩)) := by
    intro index other
    rw [placed, if_neg other]
  unfold useSlot
  cases context : (slots.getD this.index .empty).context with
  | none =>
      rw [context] at here
      have nothing : contents this (some slots) = [] := by
        unfold contents
        rw [here]
        rfl
      cases allocate with
      | false =>
          simp only [context]
          exact {
            spares := fun _ _ => rfl
            missing := fun _ => ⟨rfl, nothing, here⟩
            there := fun _ none => by cases none }
      | true =>
          simp only [context]
          exact {
            spares := others
            missing := fun none => by cases none
            there := fun found same => by
              cases same
              exact ⟨nothing.symm, taken⟩ }
  | some held =>
      rw [context] at here
      simp only [context]
      by_cases own : (slots.getD this.index .empty).owner = this.id
      · rw [if_neg (not_not.mpr own)]
        have kept : contents this (some slots) = held := by
          unfold contents
          rw [here]
          exact if_pos own
        exact {
          spares := fun _ _ => rfl
          missing := fun none => by cases none
          there := fun found same => by
            cases same
            refine ⟨kept.symm, ?_⟩
            rw [here, ← own]
            rfl }
      · rw [if_pos own]
        have nothing : contents this (some slots) = [] := by
          unfold contents
          rw [here]
          exact if_neg own
        exact {
          spares := others
          missing := fun none => by cases none
          there := fun found same => by
            cases same
            exact ⟨nothing.symm, taken⟩ }

variable {this : PerThreadImplicitContext} {vector : Option (List Slot)}

variable {found : Option Context × Option (List Slot)}

theorem Found.of_slots {allocate : Bool} {vector' : Option (List Slot)}
    (same : ∀ index, slotAt vector' index = slotAt vector index)
    (there : Found this allocate vector' found) : Found this allocate vector found := by
  have equal : contents this vector' = contents this vector := by
    unfold contents
    rw [same]
  exact {
    spares := fun index other => (there.spares index other).trans (same index)
    missing := equal ▸ there.missing
    there := equal ▸ there.there }

theorem get_thread_context (this : PerThreadImplicitContext) (allocate : Bool)
    (vector : Option (List Slot)) :
    Found this allocate vector (getThreadContext this allocate vector) := by
  have absent (vector : Option (List Slot)) (none : slotAt vector this.index = none) :
      Found this false vector (Option.none, vector) := {
    spares := fun _ _ => rfl
    missing := fun _ => ⟨rfl, by rw [contents, none], none⟩
    there := fun _ none => by cases none }
  unfold getThreadContext
  cases vector with
  | none =>
      cases allocate with
      | false => exact absent Option.none rfl
      | true =>
          have inside : this.index < (List.replicate (this.index + 1) Slot.empty).length := by simp
          exact (use_slot_found this true inside).of_slots fun index => slot_at_new _ index
  | some slots =>
      simp only
      by_cases short : slots.length ≤ this.index
      · rw [if_pos short]
        cases allocate with
        | false =>
            apply absent
            simp [slotAt, List.getElem?_eq_none short]
        | true =>
            have inside : this.index < (resize (this.index + 1) slots).length := by
              simp [resize]
              omega
            exact (use_slot_found this true inside).of_slots
              fun index => slot_at_resize slots (by omega) index
      · rw [if_neg short]
        exact use_slot_found this allocate (Nat.lt_of_not_le short)

theorem Found.holds {allocate : Bool} (there : Found this allocate vector found) :
    Holds this (contents this vector) found.2 := by
  cases pointed : found.1 with
  | none =>
      have missing := there.missing pointed
      exact .inl ⟨missing.2.2, missing.2.1⟩
  | some context =>
      have known := there.there context pointed
      exact .inr (known.1 ▸ known.2)

theorem assign_context {before : Context} (context : Context)
    (owned : slotAt vector this.index = some (before, (this.id : Int))) :
    slotAt (assignContext this context vector) this.index = some (context, (this.id : Int)) ∧
      Spares this vector (assignContext this context vector) := by
  cases vector with
  | none => simp [slotAt] at owned
  | some slots =>
      have inside : this.index < slots.length := by
        by_contra outside
        simp [slotAt, List.getElem?_eq_none (Nat.le_of_not_lt outside)] at owned
      have owner : (slots.getD this.index .empty).owner = this.id := by
        rw [slot_at_get inside, Option.map_eq_some_iff] at owned
        obtain ⟨held, -, same⟩ := owned
        exact congrArg Prod.snd same
      have placed := slot_at_set slots
        { slots.getD this.index .empty with context := some context } inside
      constructor
      · rw [assignContext, placed, if_pos rfl, ← owner]
        rfl
      · intro index other
        rw [assignContext, placed, if_neg other]

theorem clear_thread_context (this : PerThreadImplicitContext) (vector : Option (List Slot)) :
    slotAt (clearThreadContext this vector) this.index = none ∧
      Spares this vector (clearThreadContext this vector) := by
  cases vector with
  | none => exact ⟨rfl, fun _ _ => rfl⟩
  | some slots =>
      unfold clearThreadContext
      simp only
      by_cases inside : this.index < slots.length
      · rw [if_pos inside]
        let cleared := slots.set this.index { slots.getD this.index .empty with context := none }
        have placed := slot_at_set slots
          { slots.getD this.index .empty with context := none } inside
        have trimmed : ∀ index,
            slotAt (if (cleared.rdropWhile fun slot => slot.context.isNone).isEmpty then none
              else some (cleared.rdropWhile fun slot => slot.context.isNone)) index =
                slotAt (some cleared) index := by
          intro index
          by_cases nothing : (cleared.rdropWhile fun slot => slot.context.isNone).isEmpty
          · rw [if_pos nothing, ← slot_at_trimmed, List.isEmpty_iff.mp nothing]
            rfl
          · rw [if_neg nothing, slot_at_trimmed]
        constructor
        · rw [trimmed, placed, if_pos rfl]
          rfl
        · intro index other
          rw [trimmed, placed, if_neg other]
      · rw [if_neg inside]
        refine ⟨?_, fun _ _ => rfl⟩
        simp [slotAt, List.getElem?_eq_none (Nat.le_of_not_lt inside)]

theorem combined_shared {proxyCtx context : Context} {pointed : Option Context}
    (same : pointed.getD [] = context) :
    combined proxyCtx pointed = SharedImplicitContext.combined proxyCtx context := by
  subst same
  cases pointed with
  | none =>
      cases proxyCtx with
      | nil => rfl
      | cons entry entries => rfl
  | some threadCtx =>
      cases threadCtx with
      | nil =>
          cases proxyCtx with
          | nil => rfl
          | cons entry entries => rfl
      | cons entry entries =>
          cases proxyCtx with
          | nil => rfl
          | cons first rest => rfl

/-- A call does on the map of the instance what it does on a shared context, and leaves the other
slots alone. -/
theorem call_shared (this : PerThreadImplicitContext) (vector : Option (List Slot)) (call : Call) :
    ∃ after, this.call vector call =
        .ok ((SharedImplicitContext.call (contents this vector) call).1, after) ∧
      Holds this (SharedImplicitContext.call (contents this vector) call).2 after ∧
      Spares this vector after := by
  have reading := get_thread_context this false vector
  have writing := get_thread_context this true vector
  have pointed : (getThreadContext this false vector).1.getD [] = contents this vector := by
    cases found : (getThreadContext this false vector).1 with
    | none => exact (reading.missing found).2.1.symm
    | some context => exact (reading.there context found).1
  cases call with
  | getContext =>
      refine ⟨_, ?_, reading.holds, reading.spares⟩
      rw [PerThreadImplicitContext.call, pointed]
      rfl
  | setContext newContext =>
      by_cases empty : newContext.isEmpty
      · have cleared := clear_thread_context this vector
        refine ⟨_, ?_, .inl ⟨cleared.1, List.isEmpty_iff.mp empty⟩, cleared.2⟩
        rw [PerThreadImplicitContext.call, setContext, if_pos empty]
        rfl
      · cases found : (getThreadContext this true vector).1 with
        | none => cases (writing.missing found).1
        | some context =>
            have assigned := assign_context newContext (writing.there context found).2
            refine ⟨_, ?_, .inr assigned.1, writing.spares.trans assigned.2⟩
            rw [PerThreadImplicitContext.call, setContext, if_neg empty]
            simp only [found]
            rfl
  | containsKey key =>
      refine ⟨_, ?_, reading.holds, reading.spares⟩
      rw [PerThreadImplicitContext.call, SharedImplicitContext.call, ← pointed]
      cases (getThreadContext this false vector).1 with
      | none => rfl
      | some context => rfl
  | get key =>
      refine ⟨(getThreadContext this false vector).2, ?_, ?_, reading.spares⟩
      · rw [PerThreadImplicitContext.call, SharedImplicitContext.call, ← pointed]
        cases (getThreadContext this false vector).1 with
        | none => rfl
        | some context =>
            simp only [Option.getD_some]
            cases find key context with
            | none => rfl
            | some value => rfl
      · rw [SharedImplicitContext.call]
        cases find key (contents this vector) with
        | none => exact reading.holds
        | some value => exact reading.holds
  | put key value =>
      cases found : (getThreadContext this true vector).1 with
      | none => cases (writing.missing found).1
      | some context =>
          have there := writing.there context found
          have assigned := assign_context (assign key value context) there.2
          rw [there.1] at assigned
          refine ⟨_, ?_, .inr assigned.1, writing.spares.trans assigned.2⟩
          rw [PerThreadImplicitContext.call, put]
          simp only [found, SharedImplicitContext.call, there.1]
  | remove key =>
      rw [PerThreadImplicitContext.call, remove, SharedImplicitContext.call]
      cases found : (getThreadContext this false vector).1 with
      | none =>
          have nothing := (reading.missing found).2.1
          have holds := reading.holds
          rw [nothing] at holds ⊢
          exact ⟨_, rfl, holds, reading.spares⟩
      | some context =>
          have there := reading.there context found
          have holds := reading.holds
          rw [← there.1] at holds ⊢
          simp only
          cases old : find key context with
          | none => exact ⟨_, rfl, holds, reading.spares⟩
          | some oldVal =>
              have assigned := assign_context (erase key context) there.2
              have spared := reading.spares.trans assigned.2
              by_cases empty : (erase key context).isEmpty
              · have cleared := clear_thread_context this
                  (assignContext this (erase key context) (getThreadContext this false vector).2)
                refine ⟨_, rfl, .inl ⟨?_, List.isEmpty_iff.mp empty⟩, ?_⟩
                · rw [if_pos empty]
                  exact cleared.1
                · rw [if_pos empty]
                  exact spared.trans cleared.2
              · refine ⟨_, rfl, .inr ?_, ?_⟩
                · rw [if_neg empty]
                  exact assigned.1
                · rw [if_neg empty]
                  exact spared
  | write proxyCtx =>
      refine ⟨_, ?_, reading.holds, reading.spares⟩
      rw [PerThreadImplicitContext.call, combined_shared pointed]
      rfl
  | combine proxyCtx =>
      refine ⟨_, ?_, reading.holds, reading.spares⟩
      rw [PerThreadImplicitContext.call, combined_shared pointed]
      rfl

end PerThreadImplicitContext

variable {θ : Type} [DecidableEq θ]

structure Independent (θ : Type) where
  instances : List (Option (θ → Context))

namespace Independent

def initial : Independent θ := ⟨[]⟩

def fresh : θ → Context := fun _ => []

def step : Operation θ → Independent θ → Except Fault (Result × Independent θ)
  | .create, ⟨instances⟩ => .ok (.done, ⟨instances ++ [some fresh]⟩)
  | .destroy number, ⟨instances⟩ =>
      match instances[number]? with
      | some (some _) => .ok (.done, ⟨instances.set number none⟩)
      | _ => .error .notLive
  | .call thread number call, ⟨instances⟩ =>
      match instances[number]? with
      | some (some map) =>
          let called := SharedImplicitContext.call (map thread) call
          .ok (called.1, ⟨instances.set number (some (Function.update map thread called.2))⟩)
      | _ => .error .notLive
  | .exit thread, ⟨instances⟩ =>
      .ok (.done, ⟨instances.map fun found =>
        found.map fun map => Function.update map thread []⟩)

end Independent

namespace Process

/-- The maps that the slots of a process stand for. -/
def maps (process : Process θ) : Independent θ :=
  ⟨process.instances.map fun found => found.map fun this thread =>
    contents this (process.slotVectors thread)⟩

omit [DecidableEq θ] in
theorem maps_at (process : Process θ) (number : Nat) :
    process.maps.instances[number]? = (process.instances[number]?).map fun found =>
      found.map fun this thread => contents this (process.slotVectors thread) :=
  List.getElem?_map

/-- What holds of every process: live instances have different indices, which are marked, and no
slot has an owner that is still to be created. -/
structure Orderly (process : Process θ) : Prop where
  numbered : process.nextId = process.instances.length
  ids : ∀ (number : Nat) (this : PerThreadImplicitContext),
    process.instances[number]? = some (some this) → this.id = number
  apart : ∀ (number number' : Nat) (this other : PerThreadImplicitContext),
    process.instances[number]? = some (some this) →
    process.instances[number']? = some (some other) → this.index = other.index → number = number'
  marked : ∀ (number : Nat) (this : PerThreadImplicitContext),
    process.instances[number]? = some (some this) →
    (process.indexInUse.getD [])[this.index]? = some true
  owners : ∀ thread index context owner,
    slotAt (process.slotVectors thread) index = some (context, owner) → owner < process.nextId

omit [DecidableEq θ] in
theorem initial_orderly : Orderly (initial : Process θ) where
  numbered := rfl
  ids _ _ found := by cases found
  apart _ _ _ _ found := by cases found
  marked _ _ found := by cases found
  owners _ _ _ _ found := by cases found

theorem free_index (inUse : List Bool) : inUse[(inUse.takeWhile id).length]? ≠ some true := by
  induction inUse with
  | nil => simp
  | cons first rest ih =>
      cases first with
      | false => simp
      | true => simpa using ih

theorem index_marked (inUse : List Bool) {index : Nat} (bound : index ≤ inUse.length) :
    ((if index = inUse.length then inUse ++ [false] else inUse).set index true)[index]? =
      some true := by
  by_cases last : index = inUse.length
  · simp [last]
  · have inside : index < inUse.length := by omega
    simp [last, inside]

theorem mark_kept {inUse : List Bool} {index other : Nat} (marked : inUse[other]? = some true) :
    ((if index = inUse.length then inUse ++ [false] else inUse).set index true)[other]? =
      some true := by
  have inside : other < inUse.length := (List.getElem?_eq_some_iff.mp marked).1
  by_cases same : index = other
  · subst same
    exact index_marked inUse (Nat.le_of_lt inside)
  · rw [List.getElem?_set_ne same]
    by_cases last : index = inUse.length
    · rw [if_pos last, List.getElem?_append_left inside]
      exact marked
    · rw [if_neg last]
      exact marked

def created (process : Process θ) : PerThreadImplicitContext :=
  ⟨((process.indexInUse.getD [false]).takeWhile id).length, process.nextId⟩

variable {process : Process θ}

omit [DecidableEq θ] in
theorem create_orderly (orderly : Orderly process) : Orderly process.create := by
  have looked {number : Nat} {this : PerThreadImplicitContext}
      (found : process.create.instances[number]? = some (some this)) :
      process.instances[number]? = some (some this) ∨
        number = process.instances.length ∧ this = process.created := by
    obtain ⟨-, early⟩ | ⟨last, same⟩ := Lists.get_append found
    · exact .inl early
    · exact .inr ⟨last, Option.some.inj same⟩
  have marks : ∀ (number : Nat) (this : PerThreadImplicitContext),
      process.instances[number]? = some (some this) →
      (process.indexInUse.getD [false])[this.index]? = some true := by
    intro number this found
    have marked := orderly.marked number this found
    cases inUse : process.indexInUse with
    | none => simp [inUse] at marked
    | some marks => simpa [inUse] using marked
  have fresh : ∀ (number : Nat) (this : PerThreadImplicitContext),
      process.instances[number]? = some (some this) → this.index ≠ process.created.index := by
    intro number this found same
    have free := free_index (process.indexInUse.getD [false])
    have marked := marks number this found
    rw [same] at marked
    exact free marked
  exact {
    numbered := by simp [create, orderly.numbered]
    ids := by
      intro number this found
      obtain early | ⟨last, same⟩ := looked found
      · exact orderly.ids number this early
      · rw [same, last]
        exact orderly.numbered
    apart := by
      intro number number' this other found found' same
      obtain early | ⟨last, here⟩ := looked found
      · obtain early' | ⟨last', here'⟩ := looked found'
        · exact orderly.apart number number' this other early early' same
        · rw [here'] at same
          exact absurd same (fresh number this early)
      · obtain early' | ⟨last', here'⟩ := looked found'
        · rw [here] at same
          exact absurd same.symm (fresh number' other early')
        · rw [last, last']
    marked := by
      intro number this found
      obtain early | ⟨-, same⟩ := looked found
      · exact mark_kept (marks number this early)
      · rw [same]
        exact index_marked _ (List.takeWhile_sublist id).length_le
    owners := by
      intro thread index context owner found
      have below := orderly.owners thread index context owner found
      have next : process.create.nextId = process.nextId + 1 := rfl
      omega }

omit [DecidableEq θ] in
theorem create_maps (orderly : Orderly process) :
    process.create.maps = ⟨process.maps.instances ++ [some Independent.fresh]⟩ := by
  have empty : (fun thread => contents process.created (process.slotVectors thread)) =
      Independent.fresh := by
    funext thread
    unfold contents
    cases found : slotAt (process.slotVectors thread) process.created.index with
    | none => rfl
    | some pair =>
        have below := orderly.owners thread _ pair.1 pair.2 found
        have foreign : pair.2 ≠ process.created.id := by
          have same : process.created.id = process.nextId := rfl
          omega
        exact if_neg foreign
  have appended : process.create.instances = process.instances ++ [some process.created] := rfl
  have kept : process.create.slotVectors = process.slotVectors := rfl
  rw [maps, appended, kept, List.map_append, maps]
  congr 2
  exact congrArg (fun map => [some map]) empty

variable {this : PerThreadImplicitContext}

variable {number : Nat} {after : Option (List Slot)}

omit [DecidableEq θ] in
theorem destroy_orderly (orderly : Orderly process)
    (live : process.instances[number]? = some (some this)) :
    Orderly (process.destroy number this) := by
  have looked {other : Nat} {found : PerThreadImplicitContext}
      (there : (process.destroy number this).instances[other]? = some (some found)) :
      other ≠ number ∧ process.instances[other]? = some (some found) := by
    obtain ⟨-, same⟩ | kept := Lists.get_set there
    · cases same
    · exact kept
  exact {
    numbered := by simp [destroy, orderly.numbered]
    ids := fun other found there => orderly.ids other found (looked there).2
    apart := fun other other' found found' there there' =>
      orderly.apart other other' found found' (looked there).2 (looked there').2
    marked := by
      intro other found there
      have before := looked there
      have marked := orderly.marked other found before.2
      have different : this.index ≠ found.index := fun same =>
        before.1 (orderly.apart other number found this before.2 live same.symm)
      have still : ((process.indexInUse.getD []).set this.index false)[found.index]? =
          some true := by
        rw [List.getElem?_set_ne different]
        exact marked
      have some : ((process.indexInUse.getD []).set this.index false).contains true := by
        simpa using List.mem_of_getElem? still
      change (Option.getD (if _ then _ else none) [])[found.index]? = _
      rw [if_pos some]
      exact still
    owners := orderly.owners }

omit [DecidableEq θ] in
theorem destroy_maps (process : Process θ) (number : Nat) (this : PerThreadImplicitContext) :
    (process.destroy number this).maps = ⟨process.maps.instances.set number none⟩ := by
  have changed : (process.destroy number this).instances = process.instances.set number none := rfl
  have kept : (process.destroy number this).slotVectors = process.slotVectors := rfl
  rw [maps, changed, kept, List.map_set, maps]
  rfl

theorem call_orderly (orderly : Orderly process)
    (live : process.instances[number]? = some (some this)) (thread : θ) {context : Context}
    (holds : Holds this context after) (spares : Spares this (process.slotVectors thread) after) :
    Orderly { process with slotVectors := Function.update process.slotVectors thread after } where
  numbered := orderly.numbered
  ids := orderly.ids
  apart := orderly.apart
  marked := orderly.marked
  owners := by
    intro thread' index held owner found
    dsimp only at found
    by_cases here : thread' = thread
    · rw [here, Function.update_self] at found
      by_cases own : index = this.index
      · rw [own] at found
        obtain ⟨nothing, -⟩ | owned := holds
        · rw [nothing] at found
          cases found
        · rw [owned] at found
          cases found
          have id := orderly.ids number this live
          have bound := (List.getElem?_eq_some_iff.mp live).1
          have count := orderly.numbered
          change (this.id : Int) < process.nextId
          omega
      · rw [spares index own] at found
        exact orderly.owners thread index held owner found
    · rw [Function.update_of_ne here] at found
      exact orderly.owners thread' index held owner found

theorem call_maps (orderly : Orderly process) (live : process.instances[number]? = some (some this))
    (thread : θ) {context : Context} (holds : Holds this context after)
    (spares : Spares this (process.slotVectors thread) after) :
    maps { process with slotVectors := Function.update process.slotVectors thread after } =
      ⟨process.maps.instances.set number (some (Function.update
        (fun thread => contents this (process.slotVectors thread)) thread context))⟩ := by
  rw [maps]
  congr 1
  apply List.ext_getElem?
  intro number'
  rw [List.getElem?_map, List.getElem?_set, maps_at]
  by_cases same : number = number'
  · subst same
    have bound : number < process.maps.instances.length := by
      rw [maps, List.length_map]
      exact (List.getElem?_eq_some_iff.mp live).1
    rw [if_pos rfl, if_pos bound, live]
    simp only [Option.map_some]
    congr 2
    funext thread'
    by_cases here : thread' = thread
    · rw [here, Function.update_self, Function.update_self]
      exact holds.contents
    · rw [Function.update_of_ne here, Function.update_of_ne here]
  · rw [if_neg same]
    cases found : process.instances[number']? with
    | none => rfl
    | some state =>
        cases state with
        | none => rfl
        | some other =>
            simp only [Option.map_some]
            congr 2
            funext thread'
            by_cases here : thread' = thread
            · have different : other.index ≠ this.index := fun index =>
                same (orderly.apart number' number other this found live index).symm
              rw [here, Function.update_self]
              unfold contents
              rw [spares other.index different]
            · rw [Function.update_of_ne here]

theorem exit_orderly (orderly : Orderly process) (thread : θ) :
    Orderly { process with slotVectors := Function.update process.slotVectors thread none } where
  numbered := orderly.numbered
  ids := orderly.ids
  apart := orderly.apart
  marked := orderly.marked
  owners := by
    intro thread' index held owner found
    dsimp only at found
    by_cases here : thread' = thread
    · rw [here, Function.update_self] at found
      cases found
    · rw [Function.update_of_ne here] at found
      exact orderly.owners thread' index held owner found

theorem exit_maps (process : Process θ) (thread : θ) :
    maps { process with slotVectors := Function.update process.slotVectors thread none } =
      ⟨process.maps.instances.map fun found =>
        found.map fun map => Function.update map thread []⟩ := by
  rw [maps, maps, List.map_map]
  congr 1
  apply List.map_congr_left
  intro state _
  cases state with
  | none => rfl
  | some this =>
      simp only [Function.comp_apply, Option.map_some]
      congr 1
      funext thread'
      by_cases here : thread' = thread
      · rw [here, Function.update_self, Function.update_self]
        rfl
      · rw [Function.update_of_ne here, Function.update_of_ne here]

variable {longMax : Nat}

theorem step_next {operation : Operation θ} {process : Process θ} {pair : Result × Process θ}
    (stepped : step longMax operation process = .ok pair) :
    pair.2.nextId = process.nextId + if operation = .create then 1 else 0 := by
  cases operation with
  | create =>
      rw [step] at stepped
      split at stepped
      · cases stepped
        rfl
      · cases stepped
  | destroy number =>
      rw [step] at stepped
      split at stepped
      · cases stepped
        rfl
      · cases stepped
  | call thread number call =>
      rw [step] at stepped
      split at stepped
      · obtain ⟨called, -, same⟩ := Results.map_ok stepped
        rw [← same]
        rfl
      · cases stepped
  | exit thread =>
      cases stepped
      rfl

section

variable (orderly : Orderly process)

include orderly

theorem step_maps (longMax : Nat) (operation : Operation θ)
    (room : operation = .create → process.nextId < longMax) :
    Independent.step operation process.maps =
        (step longMax operation process).map (fun result => (result.1, result.2.maps)) ∧
      ∀ result after, step longMax operation process = .ok (result, after) → Orderly after := by
  cases operation with
  | create =>
      rw [step, if_pos (room rfl)]
      constructor
      · rw [Independent.step, Except.map, create_maps orderly]
      · intro result after stepped
        cases stepped
        exact create_orderly orderly
  | destroy number =>
      rw [step, Independent.step, maps_at]
      cases found : process.instances[number]? with
      | none => exact ⟨rfl, fun _ _ stepped => by cases stepped⟩
      | some state =>
          cases state with
          | none => exact ⟨rfl, fun _ _ stepped => by cases stepped⟩
          | some this =>
              constructor
              · simp only [Option.map_some, Except.map, destroy_maps]
              · intro result after stepped
                cases stepped
                exact destroy_orderly orderly found
  | call thread number call =>
      rw [step, Independent.step, maps_at]
      cases found : process.instances[number]? with
      | none => exact ⟨rfl, fun _ _ stepped => by cases stepped⟩
      | some state =>
          cases state with
          | none => exact ⟨rfl, fun _ _ stepped => by cases stepped⟩
          | some this =>
              obtain ⟨vector, called, holds, spares⟩ :=
                this.call_shared (process.slotVectors thread) call
              constructor
              · simp only [Option.map_some, called, Except.map,
                  call_maps orderly found thread holds spares]
              · intro result after stepped
                simp only [called, Except.map, Except.ok.injEq, Prod.mk.injEq] at stepped
                rw [← stepped.2]
                exact call_orderly orderly found thread holds spares
  | exit thread =>
      constructor
      · rw [step, Independent.step, Except.map, exit_maps]
      · intro result after stepped
        cases stepped
        exact exit_orderly orderly thread

theorem run_maps (longMax : Nat) (operations : List (Operation θ))
    (room : process.nextId + operations.count .create ≤ longMax) :
    let ran := outcomes (step longMax) operations process
    outcomes Independent.step operations process.maps = (ran.1, ran.2.1.maps, ran.2.2) ∧
      Orderly ran.2.1 := by
  induction operations generalizing process with
  | nil => exact ⟨rfl, orderly⟩
  | cons operation operations ih =>
      have stepped := step_maps orderly longMax operation fun creates => by
        rw [creates, List.count_cons_self] at room
        omega
      simp only [outcomes]
      cases result : step longMax operation process with
      | error fault =>
          rw [stepped.1, result]
          exact ⟨rfl, orderly⟩
      | ok pair =>
          have next := step_next result
          have left : pair.2.nextId + operations.count .create ≤ longMax := by
            rw [List.count_cons] at room
            simp only [beq_iff_eq] at room
            omega
          have rest := ih (stepped.2 pair.1 pair.2 result) left
          rw [stepped.1, result]
          simp only [Except.map]
          rw [rest.1]
          exact ⟨rfl, rest.2⟩

-- A call creates no instance, so that the bound does not matter.
def reads (process : Process θ) (thread : θ) (number : Nat) (call : Call) : Except Fault Result :=
  (step 0 (.call thread number call) process).map Prod.fst

theorem reads_map (thread : θ) (number : Nat) (call : Call) :
    reads process thread number call =
      match process.maps.instances[number]? with
      | some (some map) => .ok (SharedImplicitContext.call (map thread) call).1
      | _ => .error .notLive := by
  have same := (step_maps orderly 0 (.call thread number call) nofun).1
  have projected : (Independent.step (.call thread number call) process.maps).map Prod.fst =
      reads process thread number call := by
    rw [same, reads]
    cases step 0 (.call thread number call) process <;> rfl
  rw [← projected, Independent.step]
  cases process.maps.instances[number]? with
  | none => rfl
  | some state =>
      cases state with
      | none => rfl
      | some map => rfl

theorem call_reads {after : Process θ} {thread thread' : θ} {number' : Nat} {call : Call}
    {result : Result}
    (stepped : step longMax (.call thread number call) process = .ok (result, after))
    (different : (thread', number') ≠ (thread, number)) (call' : Call) :
    reads after thread' number' call' = reads process thread' number' call' := by
  have simulated := step_maps orderly longMax (.call thread number call) nofun
  rw [reads_map (simulated.2 result after stepped), reads_map orderly]
  have maps := simulated.1
  rw [stepped, Independent.step] at maps
  simp only [Except.map] at maps
  cases found : process.maps.instances[number]? with
  | none => simp [found] at maps
  | some state =>
      cases state with
      | none => simp [found] at maps
      | some map =>
          simp only [found, Except.ok.injEq, Prod.mk.injEq] at maps
          rw [← maps.2, List.getElem?_set]
          by_cases same : number = number'
          · subst same
            have bound := (List.getElem?_eq_some_iff.mp found).1
            have other : thread' ≠ thread := fun same => different (by rw [same])
            rw [if_pos rfl, if_pos bound, found]
            simp only [Function.update_of_ne other]
          · rw [if_neg same]

end

/-- Every sequence of operations, with no more creations than a `long` counts, has the results
that it has on independent maps, and a call changes nothing that another thread or another
instance reads. -/
theorem contexts_are_independent (longMax : Nat) (operations : List (Operation θ))
    (few : operations.count .create ≤ longMax) :
    let ran := outcomes (step longMax) operations (initial : Process θ)
    let maps := outcomes Independent.step operations (Independent.initial : Independent θ)
    ran.1 = maps.1 ∧ ran.2.2 = maps.2.2 ∧
      ∀ thread number call result after,
        step longMax (.call thread number call) ran.2.1 = .ok (result, after) →
        ∀ thread' number', (thread', number') ≠ (thread, number) → ∀ call',
          reads after thread' number' call' = reads ran.2.1 thread' number' call' := by
  have ran := run_maps initial_orderly longMax operations (by
    change 0 + operations.count .create ≤ longMax
    omega)
  have started : (initial : Process θ).maps = Independent.initial := rfl
  rw [started] at ran
  refine ⟨by rw [ran.1], by rw [ran.1], ?_⟩
  intro thread number call result after stepped thread' number' different call'
  exact call_reads ran.2 stepped different call'

/-- The second instance has the slot of the first one, which is gone, and finds it empty. -/
def reusedSlot : List (Operation Nat) :=
  [.create, .call 7 0 (.put [107] [118]), .call 8 0 (.get [107]), .destroy 0, .create,
    .call 7 1 (.get [107]), .call 7 1 (.put [107] [119]), .call 7 1 (.combine [([97], [98])])]

theorem reused_slot_independent :
    (outcomes (step (2 ^ 31 - 1)) reusedSlot initial).1 =
      [.done, .value [], .value [], .done, .done, .value [], .value [],
        .context [([97], [98]), ([107], [119])]] ∧
    (outcomes (step (2 ^ 31 - 1)) reusedSlot initial).1 =
      (outcomes Independent.step reusedSlot Independent.initial).1 :=
  have independent := contexts_are_independent (2 ^ 31 - 1) reusedSlot (by decide)
  ⟨by decide, independent.1⟩

end Process

end IceTouch.Contexts

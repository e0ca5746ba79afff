import IceTouch.Streams.Wrappers

/-!
# What the selector over CFStream keeps of readiness

A stream leaves the run loop as soon as it is found ready, and from then on the selector alone
knows of it. Nothing is lost as long as the run loop finds one stream of a handler ready at a
time. When it finds both, it asks of the two operations together what can differ between them:
whether they are recorded as ready, and whether they are disabled.
-/

namespace IceTouch.Streams

open Machine

def Event.careful (selector : Selector) : Event → Bool
  | .interrupt answers =>
      selector.changes.all fun address => (selector.wrappers address).careful (answers address)
  | _ => true

/-- The connections are open: nothing registers for connecting. -/
def Event.whileOpen : Event → Bool
  | .update _ _ add => !has add operationConnect
  | _ => true

/-- The operation was handed out for the handler by the last `select`. -/
def Selector.handed (selector : Selector) (address : Address) (stream : Stream) : Prop :=
  ∃ operation, (address, operation) ∈ selector.selectedHandlers ∧
    has operation stream.operation = true

structure Selector.Recorded (selector : Selector) (address : Address) : Prop where
  /-- The assertion of `readyOp`. -/
  within : ~~~(selector.wrappers address).registered &&& (selector.wrappers address).ready = 0
  kept : ∀ stream : Stream, has (selector.wrappers address).registered stream.operation = true →
    ((selector.wrappers address).native.stream stream).scheduled = true ∨
      has (selector.wrappers address).ready stream.operation = true ∨
      address ∈ selector.changes ∨ selector.handed address stream
  queued : ∀ stream : Stream, has (selector.wrappers address).ready stream.operation = true →
    has (selector.wrappers address).disabled stream.operation = false →
    address ∈ selector.readyHandlers

namespace Selector

structure Invariant (selector : Selector) : Prop where
  distinct : selector.changes.Nodup
  sound : ∀ address, (selector.wrappers address).Sound (address ∈ selector.changes)
    (selector.handed address) (address ∈ selector.readyHandlers)

variable {selector : Selector} {address : Address}

theorem start_invariant (hasDescriptor : Address → Bool) : (start hasDescriptor).Invariant where
  distinct := List.nodup_nil
  sound address := by
    have none (stream : Stream) : has operationNone stream.operation = false := has_zero _
    have opened : (startTransceiver (hasDescriptor address)).Open :=
      ⟨rfl, fun stream => by cases stream <;> rfl⟩
    refine ⟨opened, has_zero _, has_zero _, ?_, fun _ => rfl, ?_, ?_⟩
    · intro stream ready
      exact absurd ready (by simp [start, none])
    · intro stream wanted
      exact absurd wanted (by simp [start, none])
    · intro stream ready
      exact absurd ready (by simp [start, none])

theorem Invariant.recorded (inv : selector.Invariant) (address : Address) :
    selector.Recorded address where
  within := by
    have sound := inv.sound address
    have read := sound.within .read
    have write := sound.within .write
    have unconnected := sound.unconnected
    generalize (selector.wrappers address).registered = registered at read write ⊢
    generalize (selector.wrappers address).ready = ready at read write unconnected ⊢
    revert registered ready
    decide
  kept := (inv.sound address).kept
  queued := (inv.sound address).queued

variable {changes : List Address} {answers : Address → Answers}

theorem mem_insert {other : Address} :
    other ∈ insert changes address ↔ other = address ∨ other ∈ changes := by
  unfold insert
  split
  · next inside =>
      constructor
      · exact .inr
      · intro either
        obtain same | old := either
        · rw [same]
          exact inside
        · exact old
  · exact List.mem_orderedInsert _

theorem insert_nodup (distinct : changes.Nodup) : (insert changes address).Nodup := by
  unfold insert
  split
  · exact distinct
  · next fresh =>
      rw [(List.perm_orderedInsert (· ≤ ·) address changes).nodup_iff]
      exact List.nodup_cons.mpr ⟨fresh, distinct⟩

theorem Invariant.put (inv : selector.Invariant) {result : Wrapper × Bool}
    (sound : result.1.Sound (address ∈ selector.changes) (selector.handed address)
      (address ∈ selector.readyHandlers ∨ result.2 = true)) :
    (selector.put address result).Invariant where
  distinct := inv.distinct
  sound other := by
    have queue (old : other ∈ selector.readyHandlers) :
        other ∈ (selector.put address result).readyHandlers := by
      unfold Selector.put
      dsimp only
      split
      · exact List.mem_append_left _ old
      · exact old
    by_cases same : other = address
    · have wrapper : (selector.put address result).wrappers other = result.1 := by
        rw [same]
        exact Function.update_self ..
      rw [wrapper, same]
      rw [same] at queue
      apply sound.mono id fun _ _ given => .inr given
      intro either
      obtain old | added := either
      · exact queue old
      · unfold Selector.put
        dsimp only
        rw [if_pos added]
        exact List.mem_append_right _ (List.mem_singleton.mpr rfl)
    · have wrapper : (selector.put address result).wrappers other = selector.wrappers other :=
        Function.update_of_ne same ..
      rw [wrapper]
      exact (inv.sound other).mono id (fun _ _ given => .inr given) queue

theorem Invariant.change (inv : selector.Invariant) {wrapper : Wrapper}
    (sound : wrapper.Sound True (selector.handed address) (address ∈ selector.readyHandlers)) :
    (selector.change address wrapper).Invariant where
  distinct := insert_nodup inv.distinct
  sound other := by
    by_cases same : other = address
    · have replaced : (selector.change address wrapper).wrappers other = wrapper := by
        rw [same]
        exact Function.update_self ..
      rw [replaced, same]
      exact sound.mono (fun _ => mem_insert.mpr (.inl rfl)) (fun _ _ given => .inr given) id
    · have replaced : (selector.change address wrapper).wrappers other = selector.wrappers other :=
        Function.update_of_ne same ..
      rw [replaced]
      exact (inv.sound other).mono (fun old => mem_insert.mpr (.inr old))
        (fun _ _ given => .inr given) id

theorem interrupt_fold {left : List Address} {current : Selector} (distinct : left.Nodup)
    (careful : ∀ address ∈ left, (current.wrappers address).careful (answers address) = true)
    (sound : ∀ address, (current.wrappers address).Sound (address ∈ left)
      (current.handed address) (address ∈ current.readyHandlers)) :
    ∀ address, ((left.foldl (updateRunLoop answers) current).wrappers address).Sound False
      ((left.foldl (updateRunLoop answers) current).handed address)
      (address ∈ (left.foldl (updateRunLoop answers) current).readyHandlers) := by
  induction left generalizing current with
  | nil =>
      intro address
      exact (sound address).mono List.not_mem_nil (fun _ _ given => .inr given) id
  | cons first left ih =>
      obtain ⟨fresh, distinct⟩ := List.nodup_cons.mp distinct
      have others {address : Address} (apart : address ≠ first) :
          (updateRunLoop answers current first).wrappers address = current.wrappers address :=
        Function.update_of_ne apart ..
      have queue {address : Address} (old : address ∈ current.readyHandlers) :
          address ∈ (updateRunLoop answers current first).readyHandlers := by
        unfold updateRunLoop Selector.put
        dsimp only
        split
        · exact List.mem_append_left _ old
        · exact old
      apply ih distinct
      · intro address inside
        have apart : address ≠ first := fun same => fresh (same ▸ inside)
        rw [others apart]
        exact careful address (List.mem_cons_of_mem first inside)
      · intro address
        by_cases same : address = first
        · have updated := (sound first).updateRunLoop (careful first List.mem_cons_self)
          have wrapper : (updateRunLoop answers current first).wrappers address =
              ((current.wrappers first).updateRunLoop (answers first)).1 := by
            rw [same]
            exact Function.update_self ..
          rw [wrapper]
          apply updated.mono False.elim (fun _ _ given => given.elim)
          intro either
          rw [same]
          obtain old | added := either
          · exact queue old
          · unfold updateRunLoop Selector.put
            dsimp only
            rw [if_pos added]
            exact List.mem_append_right _ (List.mem_singleton.mpr rfl)
        · rw [others same]
          apply (sound address).mono _ (fun _ _ given => .inr given) queue
          intro inside
          exact (List.mem_cons.mp inside).resolve_left same

theorem Invariant.processInterrupt (inv : selector.Invariant)
    (careful : (Event.interrupt answers).careful selector = true) :
    (selector.processInterrupt answers).Invariant where
  distinct := List.nodup_nil
  sound address := by
    have each : ∀ address ∈ selector.changes,
        (selector.wrappers address).careful (answers address) = true :=
      List.all_eq_true.mp careful
    have processed := interrupt_fold inv.distinct each inv.sound address
    exact processed.mono False.elim (fun _ _ given => .inr given) id

theorem take_fold {left : List Address} {current : Selector}
    (sound : ∀ address, (current.wrappers address).Sound (address ∈ current.changes)
      (current.handed address) (address ∈ left)) :
    ∀ address, ((left.foldl take current).wrappers address).Sound
      (address ∈ (left.foldl take current).changes)
      ((left.foldl take current).handed address) False := by
  induction left generalizing current with
  | nil =>
      intro address
      exact (sound address).mono id (fun _ _ given => .inr given) List.not_mem_nil
  | cons first left ih =>
      have hand {address : Address} {stream : Stream} (given : current.handed address stream) :
          (current.take first).handed address stream := by
        obtain ⟨operation, inside, named⟩ := given
        refine ⟨operation, ?_, named⟩
        unfold take
        dsimp only
        split
        · exact inside
        · exact List.mem_append_left _ inside
      apply ih
      intro address
      by_cases same : address = first
      · have wrapper : (current.take first).wrappers address =
            (current.wrappers first).readyOp.2 := by
          rw [same]
          exact Function.update_self ..
        rw [wrapper]
        have taken := (sound first).taken
        apply taken.mono
        · intro inside
          rw [same]
          exact inside
        · intro stream _ either
          right
          rw [same]
          obtain given | new := either
          · exact hand given
          · refine ⟨(current.wrappers first).readyOp.1, ?_, new⟩
            unfold take
            dsimp only
            split
            · next none =>
                rw [none, has_zero] at new
                cases new
            · exact List.mem_append_right _ (List.mem_singleton.mpr rfl)
        · exact False.elim
      · have wrapper : (current.take first).wrappers address = current.wrappers address :=
          Function.update_of_ne same ..
        rw [wrapper]
        apply (sound address).mono id (fun _ _ given => .inr (hand given))
        intro inside
        exact (List.mem_cons.mp inside).resolve_left same

theorem take_changes (left : List Address) (current : Selector) :
    (left.foldl take current).changes = current.changes := by
  induction left generalizing current with
  | nil => rfl
  | cons first left ih => exact ih (current.take first)

theorem Invariant.collect (inv : selector.Invariant) : selector.collect.Invariant where
  distinct := by
    unfold Selector.collect
    rw [take_changes]
    exact inv.distinct
  sound address := by
    have taken := take_fold inv.sound address
    exact taken.mono id (fun _ _ given => .inr given) False.elim

theorem Invariant.at (inv : selector.Invariant) (select : Select) :
    Invariant { selector with select := select } := { inv with }

theorem Invariant.resume (inv : selector.Invariant) : selector.resume.Invariant := by
  unfold Selector.resume
  split
  · exact inv.at .changes
  · dsimp only
    split
    · exact inv.collect.at .handlers
    · exact inv.collect.at .outside

theorem insert_fold {added changes : List Address} (distinct : changes.Nodup) :
    (added.foldl insert changes).Nodup ∧
      ∀ address, address ∈ added.foldl insert changes ↔ address ∈ added ∨ address ∈ changes := by
  induction added generalizing changes with
  | nil => simpa using distinct
  | cons first added ih =>
      obtain ⟨nodup, mem⟩ := ih (insert_nodup distinct)
      refine ⟨nodup, ?_⟩
      intro address
      rw [List.foldl_cons, mem address, mem_insert, List.mem_cons]
      tauto

theorem Invariant.reselect (inv : selector.Invariant) : selector.reselect.Invariant where
  distinct := (insert_fold inv.distinct).1
  sound address := by
    have mem := (@insert_fold ((selector.selectedHandlers.map Prod.fst).filter fun address =>
      !(selector.wrappers address).finish) _ inv.distinct).2 address
    apply (inv.sound address).mono
    · intro inside
      exact (mem.mpr (.inr inside))
    · intro stream wanted given
      left
      -- What was handed out goes to the changes, but for finished handlers, which want nothing.
      obtain ⟨operation, inside, _⟩ := given
      apply mem.mpr
      left
      rw [List.mem_filter]
      refine ⟨List.mem_map_of_mem (f := Prod.fst) inside, ?_⟩
      cases finish : (selector.wrappers address).finish with
      | false => rfl
      | true =>
          rw [(inv.sound address).finished finish, has_zero] at wanted
          cases wanted
    · exact id

theorem Invariant.step {event : Event} {after : Selector} (inv : selector.Invariant)
    (whileOpen : event.whileOpen = true) (careful : event.careful selector = true)
    (stepped : Streams.step event selector = some after) : after.Invariant := by
  cases event with
  | update address remove add =>
      simp only [Streams.step] at stepped
      split at stepped
      · cases stepped
      · next open_ =>
          cases stepped
          unfold Selector.update
          dsimp only
          split
          · exact inv
          · apply inv.change
            apply ((inv.sound address).register (by simpa using open_) _).mono id
              (fun _ _ given => .inr given) id
            simpa [Event.whileOpen] using whileOpen
  | enable address operation =>
      cases stepped
      unfold Selector.enable
      dsimp only
      split
      · exact inv.put (inv.sound address).enables
      · exact inv
  | disable address operation =>
      cases stepped
      unfold Selector.disable
      dsimp only
      split
      · exact inv
      · exact inv.put ((inv.sound address).disables.mono id (fun _ _ given => .inr given) .inl)
  | finish address =>
      simp only [Streams.step] at stepped
      split at stepped
      · cases stepped
      · cases stepped
        exact inv.change ((inv.sound address).finishes.mono (fun _ => trivial)
          (fun _ _ given => .inr given) id)
  | select =>
      simp only [Streams.step] at stepped
      split at stepped
      · cases stepped
        exact inv.reselect.resume
      · cases stepped
  | wake =>
      simp only [Streams.step] at stepped
      split at stepped
      · cases stepped
      · cases stepped
        exact inv.resume
  | timeout =>
      simp only [Streams.step] at stepped
      split at stepped
      · cases stepped
        exact inv.at .outside
      · cases stepped
  | interrupt answers =>
      cases stepped
      exact inv.processInterrupt careful
  | callback address stream report =>
      simp only [Streams.step] at stepped
      split at stepped
      · cases stepped
        exact inv.put ((inv.sound address).reports stream report)
      · cases stepped

end Selector

/-- In every run with open connections in which the run loop finds both streams of a handler
ready only where the two operations stand alike, all readiness is accounted for. -/
theorem readiness_recorded (hasDescriptor : Address → Bool) (selector : Selector)
    (reached : Reach step
      (fun event selector => event.whileOpen = true ∧ event.careful selector = true)
      (start hasDescriptor) selector)
    (address : Address) : selector.Recorded address := by
  have inv : selector.Invariant :=
    reached.invariant (Selector.start_invariant hasDescriptor)
      fun _ _ _ inv allowed stepped => inv.step allowed.1 allowed.2 stepped
  exact inv.recorded address

/-- Which streams of any handler are found ready, at once or when they are scheduled. -/
def answering (read write : Bool) : Address → Answers := fun _ => ⟨true, read, read, write, write⟩

theorem write_kept_back :
    ∃ selector, runAll (checked step fun event selector =>
        event.whileOpen && event.careful selector)
        [.update 0 operationNone (operationRead ||| operationWrite),
          .interrupt (answering false true), .callback 0 .read .usable, .disable 0 operationWrite,
          .select] (start fun _ => true) = some selector ∧ selector.Recorded 0 := by
  have possible : (runAll (checked step fun event selector =>
      event.whileOpen && event.careful selector)
      [.update 0 operationNone (operationRead ||| operationWrite),
        .interrupt (answering false true), .callback 0 .read .usable, .disable 0 operationWrite,
        .select] (start fun _ => true)).isSome = true := by decide
  obtain ⟨selector, ran⟩ := Option.isSome_iff_exists.mp possible
  exact ⟨selector, ran, readiness_recorded (fun _ => true) selector
    (reach_of_checked (fun _ _ passed => Bool.and_eq_true_iff.mp passed) ran) 0⟩

/-- Reading is recorded as ready when writing is registered too, and then both streams are
found ready. -/
def writeDropped : List Event :=
  [.update 0 operationNone operationRead, .interrupt (answering false false),
    .callback 0 .read .usable, .update 0 operationNone operationWrite,
    .interrupt (answering true true)]

def writeUnqueued : List Event :=
  [.update 0 operationNone (operationRead ||| operationWrite), .disable 0 operationRead,
    .interrupt (answering true true)]

def Selector.observed (selector : Selector) :
    Wrapper × List Address × List Address × List (Address × SocketOperation) :=
  (selector.wrappers 0, selector.changes, selector.readyHandlers, selector.selectedHandlers)

theorem write_readiness_lost :
    (∃ selector, Reach step (fun event _ => event.whileOpen = true) (start fun _ => true) selector ∧
      has (selector.wrappers 0).registered operationWrite = true ∧
      ((selector.wrappers 0).native.stream .write).scheduled = false ∧
      has (selector.wrappers 0).ready operationWrite = false ∧
      selector.changes = [] ∧ selector.selectedHandlers = [] ∧ ¬ selector.Recorded 0) ∧
    (∃ selector, Reach step (fun event _ => event.whileOpen = true) (start fun _ => true) selector ∧
      has (selector.wrappers 0).ready operationWrite = true ∧
      has (selector.wrappers 0).disabled operationWrite = false ∧
      selector.readyHandlers = [] ∧ ¬ selector.Recorded 0) := by
  have reach {events : List Event} {selector : Selector}
      (ran : runAll (checked step fun event _ => event.whileOpen) events (start fun _ => true) =
        some selector) :
      Reach step (fun event _ => event.whileOpen = true) (start fun _ => true) selector :=
    reach_of_checked (fun _ _ passed => passed) ran
  constructor
  · have seen : (runAll (checked step fun event _ => event.whileOpen) writeDropped
        (start fun _ => true)).map Selector.observed =
        some (⟨3, 0, operationRead, false, startTransceiver true⟩, [], [0], []) := by decide
    obtain ⟨selector, ran, same⟩ := Option.map_eq_some_iff.mp seen
    simp only [Selector.observed, Prod.mk.injEq] at same
    obtain ⟨wrapper, changes, queued, selected⟩ := same
    refine ⟨selector, reach ran, ?_, ?_, ?_, changes, selected, ?_⟩
    · rw [wrapper]
      rfl
    · rw [wrapper]
      rfl
    · rw [wrapper]
      rfl
    · intro recorded
      have kept := recorded.kept .write
      simp only [Selector.handed, wrapper, changes, selected] at kept
      simp [has, startTransceiver, Transceiver.stream, Stream.operation, operationWrite,
        operationRead] at kept
  · have seen : (runAll (checked step fun event _ => event.whileOpen) writeUnqueued
        (start fun _ => true)).map Selector.observed =
        some (⟨3, operationRead, 3, false, startTransceiver true⟩, [], [], []) := by decide
    obtain ⟨selector, ran, same⟩ := Option.map_eq_some_iff.mp seen
    simp only [Selector.observed, Prod.mk.injEq] at same
    obtain ⟨wrapper, changes, queued, selected⟩ := same
    refine ⟨selector, reach ran, ?_, ?_, queued, ?_⟩
    · rw [wrapper]
      rfl
    · rw [wrapper]
      rfl
    · intro recorded
      have inside := recorded.queued .write
      simp only [wrapper, queued] at inside
      exact absurd (inside rfl rfl) List.not_mem_nil

end IceTouch.Streams

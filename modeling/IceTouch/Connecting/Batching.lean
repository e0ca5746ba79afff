import IceTouch.Connecting.ConnectRequestHandler
import Mathlib.Data.List.Lemmas

/-!
# Batch requests while the connection is being established

Who has the batch stream, what is in it, and what `_batchRequestsSize` counts. Three slips leave
the handler as it must not be: a batch request that is finished or aborted after the
establishment has failed leaves the flag set, one that is finished beyond the message limit
leaves its bytes in the stream, and one that is aborted while others are queued makes the size
forget them. Each of them spoils one part of the bookkeeping, and no other.
-/

namespace IceTouch.Connecting

open Bytes Connection Machine

variable {config : Config} {state after : State}

inductive Slip where
  | flag
  | bytes
  | size

def Oversight (config : Config) : Slip → Event → State → Prop
  | .flag, .finishBatchRequest _ _, state => state.handler.exception ≠ none
  | .flag, .abortBatchRequest _, state => state.handler.exception ≠ none
  | .bytes, .finishBatchRequest thread bytes, state =>
      state.handler.exception = none ∧ ∃ lease ∈ state.lease thread,
        state.handler.exceeds config (lease.stream ++ bytes).length = true
  | .size, .abortBatchRequest _, state =>
      state.handler.exception = none ∧ batches state.handler.requests ≠ []
  | _, _, _ => False

instance (slip : Slip) (event : Event) (state : State) :
    Decidable (Oversight config slip event state) := by
  unfold Oversight
  split <;> infer_instance

variable {avoided : Slip → Prop}

/-- What holds of the batch stream and its bookkeeping in a run without the slips `avoided`. -/
structure Sound (avoided : Slip → Prop) (state : State) : Prop where
  /-- Nobody has the stream while the flag is not set. -/
  holders : state.holders.length ≤ if state.handler.batchRequestInProgress then 1 else 0
  held : avoided .flag → state.handler.batchRequestInProgress = true → state.holders ≠ []
  /-- Nobody waits for a flag that is not set. -/
  waiting : ∀ thread, (thread, Awaited.batch) ∈ state.waiting →
    state.handler.batchRequestInProgress = true
  empty : avoided .bytes →
    state.handler.batchStream = [] ∧ ∀ lease ∈ state.holders, lease.stream = []
  unsent : state.handler.batchRequestInProgress = true →
    state.progress = .connecting ∨ state.progress = .connected
  early : state.progress = .connecting ∨ state.progress = .connected →
    state.handler.initialized = false ∧ state.handler.flushing = false
  late : state.progress = .sending ∨ state.progress = .done →
    state.handler.initialized = true ∨ state.handler.flushing = true
  /-- A size that has been reset is right as long as nothing is queued. -/
  size : state.progress = .connecting ∨ state.progress = .connected →
    state.handler.exception = none → avoided .size ∨ batches state.handler.requests = [] →
      state.handler.batchRequestsSize =
        requestBatchHdr.length + queuedSize state.handler.requests
  leases : ∀ lease ∈ state.holders, state.handler.exception = none →
    batches state.handler.requests = lease.batches ∧
      state.handler.batchRequestsSize = lease.size
  /-- The queue is thrown away only once the establishment has failed. -/
  failed : ∀ ex wrapped, WorkItem.flushRequestsWithException ex wrapped ∈ state.work →
    state.handler.exception ≠ none

theorem start_sound : Sound avoided start where
  holders := Nat.le_refl 0
  held := fun _ set => nomatch set
  waiting := fun _ inside => absurd inside List.not_mem_nil
  empty := fun _ => ⟨rfl, fun _ inside => absurd inside List.not_mem_nil⟩
  unsent := fun set => nomatch set
  early := fun _ => ⟨rfl, rfl⟩
  late := fun reached => by simp [start] at reached
  size := fun _ _ _ => rfl
  leases := fun _ inside => absurd inside List.not_mem_nil
  failed := fun _ _ inside => absurd inside List.not_mem_nil

variable {handler : ConnectRequestHandler}

theorem is_initialized_no :
    handler.isInitialized = .no ↔
      handler.initialized = false ∧ handler.exception = none ∧ handler.flushing = false := by
  unfold ConnectRequestHandler.isInitialized
  cases handler.initialized <;> cases handler.exception <;> cases handler.flushing <;> simp

theorem is_initialized_throws {ex : LocalException} :
    handler.isInitialized = .throws ex ↔
      handler.initialized = false ∧ handler.exception = some ex := by
  unfold ConnectRequestHandler.isInitialized
  cases handler.initialized <;> cases handler.exception <;> cases handler.flushing <;> simp

theorem is_initialized_yes : handler.isInitialized = .yes ↔ handler.initialized = true := by
  unfold ConnectRequestHandler.isInitialized
  cases handler.initialized <;> cases handler.exception <;> cases handler.flushing <;> simp

theorem batches_append (first second : List Request) :
    batches (first ++ second) = batches first ++ batches second := List.filterMap_append

theorem queued_size_append (first second : List Request) :
    queuedSize (first ++ second) = queuedSize first + queuedSize second := by
  simp [queuedSize, batches_append]

variable {lease : Lease}

theorem lease_mem {thread : Thread} (found : lease ∈ state.lease thread) :
    lease ∈ state.holders := List.mem_of_find?_eq_some found

theorem Sound.no_holders (sound : Sound avoided state)
    (notSet : state.handler.batchRequestInProgress = false) : state.holders = [] := by
  have count := sound.holders
  rw [notSet] at count
  exact List.eq_nil_of_length_eq_zero (Nat.le_zero.mp count)

theorem Sound.one_lease (sound : Sound avoided state) (held : lease ∈ state.holders) :
    state.holders = [lease] ∧ state.handler.batchRequestInProgress = true := by
  cases set : state.handler.batchRequestInProgress with
  | false =>
      rw [sound.no_holders set] at held
      cases held
  | true =>
      have count := sound.holders
      rw [set] at count
      have positive := List.length_pos_of_mem held
      obtain ⟨only, isOnly⟩ := List.length_eq_one_iff.mp (Nat.le_antisymm count positive)
      rw [isOnly, List.mem_singleton] at held
      exact ⟨by rw [isOnly, held], rfl⟩

theorem Sound.holder_not_initialized (sound : Sound avoided state) (held : lease ∈ state.holders) :
    state.handler.initialized = false ∧ state.handler.flushing = false :=
  sound.early (sound.unsent (sound.one_lease held).2)

/-- Nothing that concerns batch requests has changed; threads that wait for the flush may have
been added. -/
structure SameBatches (state after : State) : Prop where
  inProgress : after.handler.batchRequestInProgress = state.handler.batchRequestInProgress
  stream : after.handler.batchStream = state.handler.batchStream
  initialized : after.handler.initialized = state.handler.initialized
  flushing : after.handler.flushing = state.handler.flushing
  exception : after.handler.exception = state.handler.exception
  size : after.handler.batchRequestsSize = state.handler.batchRequestsSize
  batches : batches after.handler.requests = batches state.handler.requests
  progress : after.progress = state.progress
  holders : after.holders = state.holders
  work : after.work = state.work
  waiting : ∀ thread, (thread, Awaited.batch) ∈ after.waiting →
    (thread, Awaited.batch) ∈ state.waiting

theorem Sound.same_batches (sound : Sound avoided state) (same : SameBatches state after) :
    Sound avoided after where
  holders := by
    rw [same.holders, same.inProgress]
    exact sound.holders
  held := by
    rw [same.holders, same.inProgress]
    exact sound.held
  waiting := fun thread inside => by
    rw [same.inProgress]
    exact sound.waiting thread (same.waiting thread inside)
  empty := by
    rw [same.stream, same.holders]
    exact sound.empty
  unsent := by
    rw [same.inProgress, same.progress]
    exact sound.unsent
  early := by
    rw [same.progress, same.initialized, same.flushing]
    exact sound.early
  late := by
    rw [same.progress, same.initialized, same.flushing]
    exact sound.late
  size := by
    rw [same.progress, same.exception, same.size, queuedSize, same.batches]
    exact sound.size
  leases := by
    rw [same.holders, same.exception, same.batches, same.size]
    exact sound.leases
  failed := by
    rw [same.work, same.exception]
    exact sound.failed

theorem wait_flush_same (thread : Thread) : SameBatches state (state.wait thread .flush) :=
  { inProgress := rfl, stream := rfl, initialized := rfl, flushing := rfl, exception := rfl,
    size := rfl, batches := rfl, progress := rfl, holders := rfl, work := rfl
    waiting := fun other inside => by simpa [State.wait] using inside }

section

variable (sound : Sound avoided state)

include sound

theorem Sound.wait_batch (thread : Thread) (set : state.handler.batchRequestInProgress = true) :
    Sound avoided (state.wait thread .batch) :=
  { sound with waiting := fun _ _ => set }

theorem prepare_sound (thread : Thread) : Sound avoided (prepareBatchRequest thread state) := by
  unfold prepareBatchRequest
  split
  · next set => exact sound.wait_batch thread set
  · next notSet =>
      split
      · exact sound.same_batches (wait_flush_same thread)
      · exact sound
      · exact sound
      · next no =>
          obtain ⟨notInitialized, noException, notFlushing⟩ := is_initialized_no.mp no
          have none := sound.no_holders (Bool.eq_false_iff.mpr notSet)
          have early : state.progress = .connecting ∨ state.progress = .connected := by
            have late := sound.late
            cases reached : state.progress <;> simp_all
          exact
            { holders := by simp [none]
              held := fun _ _ => by simp
              waiting := fun _ _ => rfl
              empty := fun clean => by
                simpa [none] using (sound.empty clean).1
              unsent := fun _ => early
              early := fun _ => ⟨notInitialized, notFlushing⟩
              late := sound.late
              size := sound.size
              leases := by
                intro lease inside
                simp only [none, List.nil_append, List.mem_singleton] at inside
                subst inside
                exact fun _ => ⟨rfl, rfl⟩
              failed := sound.failed }

/-- What `finishBatchRequest` and `abortBatchRequest` do once the establishment has failed. -/
theorem Sound.returned (member : lease ∈ state.holders) (slips : ¬ avoided .flag)
    (failed : state.handler.exception ≠ none) : Sound avoided (state.returnStream lease) where
  holders := by simp [State.returnStream, (sound.one_lease member).1]
  held := fun careful => absurd careful slips
  waiting := sound.waiting
  empty := fun clean =>
    ⟨(sound.empty clean).1,
      fun other inside => (sound.empty clean).2 other (List.mem_of_mem_erase inside)⟩
  unsent := sound.unsent
  early := sound.early
  late := sound.late
  size := fun _ none => absurd none failed
  leases := fun _ _ none => absurd none failed
  failed := sound.failed

section

variable {thread : Thread} (held : lease ∈ state.lease thread)

include held

theorem finish_sound {bytes : List Byte}
    (careful : ∀ slip, avoided slip →
      ¬ Oversight config slip (.finishBatchRequest thread bytes) state) :
    Sound avoided (finishBatchRequest config lease bytes state) := by
  have member := lease_mem held
  obtain ⟨only, set⟩ := sound.one_lease member
  obtain ⟨notInitialized, notFlushing⟩ := sound.holder_not_initialized member
  have early := sound.unsent set
  unfold finishBatchRequest
  split
  · exact sound.same_batches (wait_flush_same _)
  · next ex throws =>
      have failed : state.handler.exception ≠ none := by
        rw [(is_initialized_throws.mp throws).2]
        exact Option.some_ne_none ex
      exact sound.returned member (fun avoids => careful .flag avoids failed) failed
  · next yes => simp [is_initialized_yes.mp yes] at notInitialized
  · next no =>
      have noException := (is_initialized_no.mp no).2.1
      have size := sound.size early noException
      dsimp only
      split
      · next exceeds =>
          have slips : ¬ avoided .bytes := fun avoids =>
            careful .bytes avoids ⟨noException, lease, held, exceeds⟩
          exact
            { holders := by simp [State.notifyAll, State.returnStream, only]
              held := fun _ set => nomatch set
              waiting := fun _ inside => absurd inside List.not_mem_nil
              empty := fun clean => absurd clean slips
              unsent := fun set => nomatch set
              early := fun _ => ⟨notInitialized, notFlushing⟩
              late := sound.late
              size := sound.size
              leases := fun _ inside => by
                simp [State.notifyAll, State.returnStream, only] at inside
              failed := sound.failed }
      · exact
          { holders := by simp [State.tell, State.give, State.queue, State.notifyAll,
              State.returnStream, only]
            held := fun _ set => nomatch set
            waiting := fun _ inside => absurd inside List.not_mem_nil
            empty := fun _ => ⟨rfl, fun _ inside => by
              simp [State.tell, State.give, State.queue, State.notifyAll, State.returnStream, only]
                at inside⟩
            unsent := fun set => nomatch set
            early := fun _ => ⟨notInitialized, notFlushing⟩
            late := sound.late
            size := fun _ _ counted => by
              simp only [State.tell, State.give, State.queue, State.notifyAll, State.returnStream,
                queued_size_append, batches_append] at counted ⊢
              -- The queue is not empty any more.
              rw [size (.inl (counted.resolve_right (by simp [batches])))]
              simp [queuedSize, batches]
              omega
            leases := fun _ inside => by
              simp [State.tell, State.give, State.queue, State.notifyAll, State.returnStream, only]
                at inside
            failed := sound.failed }

theorem abort_sound
    (careful : ∀ slip, avoided slip → ¬ Oversight config slip (.abortBatchRequest thread) state) :
    Sound avoided (abortBatchRequest lease state) := by
  have member := lease_mem held
  obtain ⟨only, set⟩ := sound.one_lease member
  obtain ⟨notInitialized, notFlushing⟩ := sound.holder_not_initialized member
  unfold abortBatchRequest
  split
  · exact sound.same_batches (wait_flush_same _)
  · next ex throws =>
      have failed : state.handler.exception ≠ none := by
        rw [(is_initialized_throws.mp throws).2]
        exact Option.some_ne_none ex
      exact sound.returned member (fun avoids => careful .flag avoids failed) failed
  · next yes => simp [is_initialized_yes.mp yes] at notInitialized
  · next no =>
      have noException := (is_initialized_no.mp no).2.1
      exact
        { holders := by simp [State.notifyAll, State.returnStream, only]
          held := fun _ set => nomatch set
          waiting := fun _ inside => absurd inside List.not_mem_nil
          empty := fun _ => ⟨rfl, fun _ inside => by
            simp [State.notifyAll, State.returnStream, only] at inside⟩
          unsent := fun set => nomatch set
          early := fun _ => ⟨notInitialized, notFlushing⟩
          late := sound.late
          size := fun _ _ counted => by
            have noBatches : batches state.handler.requests = [] :=
              counted.elim
                (fun avoids => not_not.mp fun others =>
                  careful .size avoids ⟨noException, others⟩)
                id
            simp [State.notifyAll, State.returnStream, queuedSize, noBatches]
          leases := fun _ inside => by
            simp [State.notifyAll, State.returnStream, only] at inside
          failed := sound.failed }

end

theorem send_or_queue_sound (thread : Thread) {request : Request} (answer : Answer)
    (noBatch : batches [request] = []) : Sound avoided (sendOrQueue thread request answer state) := by
  unfold sendOrQueue
  split
  · exact sound.same_batches (wait_flush_same thread)
  · exact sound.same_batches
      { inProgress := rfl, stream := rfl, initialized := rfl, flushing := rfl, exception := rfl,
        size := rfl, batches := rfl, progress := rfl, holders := rfl, work := rfl
        waiting := fun _ inside => inside }
  · exact sound.same_batches
      { inProgress := rfl, stream := rfl, initialized := rfl, flushing := rfl, exception := rfl,
        size := rfl, progress := rfl, holders := rfl, work := rfl
        batches := by
          simp only [State.give, State.queue, batches_append, noBatch, List.append_nil]
        waiting := fun _ inside => inside }
  · exact sound.same_batches
      { inProgress := rfl, stream := rfl, initialized := rfl, flushing := rfl, exception := rfl,
        size := rfl, batches := rfl, progress := rfl, holders := rfl, work := rfl
        waiting := fun _ inside => inside }

structure Sent (state : State) : Prop where
  holders : state.holders = []
  notSet : state.handler.batchRequestInProgress = false
  progress : state.progress = .sending ∨ state.progress = .done

theorem Sound.sent (progress : state.progress = .sending) : Sent state := by
  have notSet : state.handler.batchRequestInProgress = false := by
    cases set : state.handler.batchRequestInProgress with
    | false => rfl
    | true => have early := sound.unsent set; simp [progress] at early
  exact ⟨sound.no_holders notSet, notSet, .inl progress⟩

end

theorem Sent.sound (sent : Sent state)
    (waiting : ∀ thread, (thread, Awaited.batch) ∉ state.waiting)
    (empty : avoided .bytes → state.handler.batchStream = [])
    (flags : state.handler.initialized = true ∨ state.handler.flushing = true)
    (failed : ∀ ex wrapped, WorkItem.flushRequestsWithException ex wrapped ∈ state.work →
      state.handler.exception ≠ none) : Sound avoided state where
  holders := by rw [sent.holders]; exact Nat.zero_le _
  held := fun _ set => by rw [sent.notSet] at set; cases set
  waiting := fun thread inside => absurd inside (waiting thread)
  empty := fun clean => ⟨empty clean, fun _ inside => by rw [sent.holders] at inside; cases inside⟩
  unsent := fun set => by rw [sent.notSet] at set; cases set
  early := fun early => by rcases sent.progress with sending | done <;> simp_all
  late := fun _ => flags
  size := fun early => by rcases sent.progress with sending | done <;> simp_all
  leases := fun _ inside => by rw [sent.holders] at inside; cases inside
  failed := failed

section

variable (sound : Sound avoided state)

include sound

theorem flush_requests_sound (thread : Thread) : Sound avoided (flushRequests thread state) := by
  unfold flushRequests
  split
  · next set => exact sound.wait_batch thread set
  · next notSet =>
      have isFalse := Bool.eq_false_iff.mpr notSet
      have sent : Sent { state with handler.flushing := true, progress := .sending } :=
        ⟨sound.no_holders isFalse, isFalse, .inl rfl⟩
      exact sent.sound (fun thread inside => notSet (sound.waiting thread inside))
        (fun clean => (sound.empty clean).1) (.inr rfl) sound.failed

theorem flush_front_sound (progress : state.progress = .sending) (front : Request)
    (rest : List Request) (answer : Answer) : Sound avoided (flushFront front rest answer state) := by
  have sent := sound.sent progress
  have unlent : ∀ thread, (thread, Awaited.batch) ∉ state.waiting := fun thread inside => by
    have set := sound.waiting thread inside
    rw [sent.notSet] at set
    cases set
  have flags := sound.late (.inl progress)
  have empty (clean : avoided .bytes) := (sound.empty clean).1
  have kept {changed : State} (holders : changed.holders = state.holders)
      (inProgress : changed.handler.batchRequestInProgress = state.handler.batchRequestInProgress)
      (same : changed.progress = state.progress) : Sent changed :=
    ⟨holders.trans sent.holders, inProgress.trans sent.notSet, by rw [same]; exact sent.progress⟩
  unfold flushFront
  cases answer with
  | refused ex =>
      refine Sent.sound (kept rfl rfl rfl) unlent empty flags fun _ _ _ failed => ?_
      cases failed
  | thrown ex =>
      refine Sent.sound (kept rfl rfl rfl) unlent empty flags fun _ _ _ failed => ?_
      cases failed
  | sent invokeCallback =>
      cases invokeCallback
      · exact Sent.sound (kept rfl rfl rfl) unlent empty flags sound.failed
      · exact Sent.sound (kept rfl rfl rfl) unlent empty flags sound.failed
  | queued =>
      cases front
      · exact Sent.sound (kept rfl rfl rfl) unlent empty flags sound.failed
      · exact Sent.sound (kept rfl rfl rfl) unlent empty flags sound.failed
      · exact Sent.sound (kept rfl rfl rfl) unlent empty flags sound.failed

theorem flush_end_sound (progress : state.progress = .sending) : Sound avoided (flushEnd state) := by
  have sent := sound.sent progress
  have flags := sound.late (.inl progress)
  have empty (clean : avoided .bytes) := (sound.empty clean).1
  have callbacks : ∀ ex wrapped, WorkItem.flushRequestsWithException ex wrapped ∈
      state.work ++ [.flushSentRequests state.handler.sentCallbacks] →
        state.handler.exception ≠ none := by
    intro ex wrapped inside
    rcases List.mem_append.mp inside with old | new
    · exact sound.failed ex wrapped old
    · cases List.mem_singleton.mp new
  unfold flushEnd
  dsimp only
  split
  · split
    · next none =>
        exact Sent.sound (Sent.mk sent.holders sent.notSet (.inr rfl))
          (fun _ inside => absurd inside List.not_mem_nil) empty (.inl rfl) sound.failed
    · exact Sent.sound (Sent.mk sent.holders sent.notSet (.inr rfl))
        (fun _ inside => absurd inside List.not_mem_nil) empty flags sound.failed
  · split
    · next none =>
        exact Sent.sound (Sent.mk sent.holders sent.notSet (.inr rfl))
          (fun _ inside => absurd inside List.not_mem_nil) empty (.inl rfl) callbacks
    · exact Sent.sound (Sent.mk sent.holders sent.notSet (.inr rfl))
        (fun _ inside => absurd inside List.not_mem_nil) empty flags callbacks

theorem set_exception_sound (ex : LocalException) (work : List WorkItem) :
    Sound avoided ({ state with handler.exception := some ex, work := work } : State).notifyAll where
  holders := sound.holders
  held := sound.held
  waiting := fun _ inside => absurd inside List.not_mem_nil
  empty := sound.empty
  unsent := sound.unsent
  early := sound.early
  late := sound.late
  size := fun _ none => nomatch none
  leases := fun _ _ none => nomatch none
  failed := fun _ _ _ none => nomatch none

theorem execute_sound {item : WorkItem} (work : List WorkItem) (inside : item ∈ state.work)
    (fewer : ∀ other ∈ work, other ∈ state.work) :
    Sound avoided (item.run { state with work := work }) := by
  have failed : ∀ ex wrapped, WorkItem.flushRequestsWithException ex wrapped ∈ work →
      state.handler.exception ≠ none :=
    fun ex wrapped there => sound.failed ex wrapped (fewer _ there)
  cases item with
  | flushSentRequests callbacks =>
      exact { sound with failed := failed }
  | flushRequestsWithException ex wrapped =>
      have exception := sound.failed ex wrapped inside
      exact
        { sound with
          size := fun _ none => absurd none exception
          leases := fun _ _ none => absurd none exception
          failed := failed }

theorem step_sound {event : Event}
    (careful : ∀ slip, avoided slip → ¬ Oversight config slip event state)
    (stepped : step config event state = some after) : Sound avoided after := by
  cases event with
  | prepareBatchRequest thread =>
      simp only [step, Option.ite_none_left_eq_some, Option.some.injEq] at stepped
      rw [← stepped.2]
      exact prepare_sound sound thread
  | finishBatchRequest thread bytes =>
      simp only [step, Option.ite_none_left_eq_some, Option.map_eq_some_iff] at stepped
      obtain ⟨-, lease, held, eq⟩ := stepped
      rw [← eq]
      exact finish_sound sound held careful
  | abortBatchRequest thread =>
      simp only [step, Option.ite_none_left_eq_some, Option.map_eq_some_iff] at stepped
      obtain ⟨-, lease, held, eq⟩ := stepped
      rw [← eq]
      exact abort_sound sound held careful
  | sendAsyncRequest thread serial answer =>
      simp only [step, Option.ite_none_left_eq_some, Option.some.injEq] at stepped
      rw [← stepped.2]
      exact send_or_queue_sound sound thread answer rfl
  | flushAsyncBatchRequests thread serial answer =>
      simp only [step, Option.ite_none_left_eq_some, Option.some.injEq] at stepped
      rw [← stepped.2]
      exact send_or_queue_sound sound thread answer rfl
  | directBatchRequest thread bytes answer =>
      simp only [step, Option.ite_none_left_eq_some, Option.some.injEq] at stepped
      rw [← stepped.2]
      exact sound.same_batches
        { inProgress := rfl, stream := rfl, initialized := rfl, flushing := rfl, exception := rfl,
          size := rfl, batches := rfl, progress := rfl, holders := rfl, work := rfl
          waiting := fun _ inside => inside }
  | setConnection =>
      simp only [step, Option.ite_none_right_eq_some, Option.some.injEq] at stepped
      obtain ⟨⟨connecting, -⟩, eq⟩ := stepped
      rw [← eq]
      have early := sound.early (.inl connecting)
      exact
        { sound with
          unsent := fun _ => .inr rfl
          early := fun _ => early
          late := fun late => by simp at late
          size := fun _ => sound.size (.inl connecting) }
  | setException ex =>
      simp only [step, Option.ite_none_right_eq_some, Option.some.injEq] at stepped
      obtain ⟨-, eq⟩ := stepped
      rw [← eq]
      split
      · exact set_exception_sound sound ex state.work
      · exact set_exception_sound sound ex _
  | flushRequests thread =>
      simp only [step, Option.ite_none_right_eq_some, Option.some.injEq] at stepped
      rw [← stepped.2]
      exact flush_requests_sound sound thread
  | flushFront answer =>
      simp only [step] at stepped
      split at stepped
      · cases stepped
      · next front rest queue =>
          simp only [Option.ite_none_right_eq_some, Option.some.injEq] at stepped
          rw [← stepped.2]
          exact flush_front_sound sound stepped.1.1 front rest answer
  | flushEnd =>
      simp only [step, Option.ite_none_right_eq_some, Option.some.injEq] at stepped
      rw [← stepped.2]
      exact flush_end_sound sound stepped.1.1
  | execute item =>
      simp only [step, Option.bind_eq_bind, Option.bind_eq_some_iff, Option.some.injEq] at stepped
      obtain ⟨workItem, there, eq⟩ := stepped
      rw [← eq]
      exact execute_sound sound _ (List.mem_of_getElem? there)
        fun other => List.mem_of_mem_eraseIdx

end

/-- The states of the runs without the slips `avoided`. -/
abbrev CarefullyReached (config : Config) (avoided : Slip → Prop) : State → Prop :=
  Reach (step config)
    (fun event state => ∀ slip, avoided slip → ¬ Oversight config slip event state) start

theorem carefully_reached_sound (reached : CarefullyReached config avoided state) :
    Sound avoided state :=
  reached.invariant start_sound fun _ _ _ sound careful stepped =>
    step_sound sound careful stepped

def Kept (lease : Lease) (after : State) : Prop :=
  batches after.handler.requests = lease.batches ∧ after.handler.batchRequestsSize = lease.size

/-- A `finishBatchRequest` that does not queue the request leaves the queue and its size. -/
theorem failed_finish_kept {bytes : List Byte}
    (failed : (finishBatchRequest config lease bytes state).given = state.given) :
    (finishBatchRequest config lease bytes state).handler.requests = state.handler.requests ∧
      (finishBatchRequest config lease bytes state).handler.batchRequestsSize =
        state.handler.batchRequestsSize := by
  unfold finishBatchRequest at failed ⊢
  dsimp only at failed ⊢
  split
  · exact ⟨rfl, rfl⟩
  · exact ⟨rfl, rfl⟩
  · exact ⟨rfl, rfl⟩
  · next no =>
      simp only [no] at failed
      split
      · exact ⟨rfl, rfl⟩
      · next fits =>
          rw [if_neg fits] at failed
          simp [State.tell, State.give, State.queue, State.notifyAll, State.returnStream] at failed

theorem aborted_kept (lease : Lease) (counted : state.handler.exception = none →
      state.handler.batchRequestsSize = requestBatchHdr.length) :
    (abortBatchRequest lease state).handler.requests = state.handler.requests ∧
      (abortBatchRequest lease state).handler.batchRequestsSize =
        state.handler.batchRequestsSize := by
  unfold abortBatchRequest
  split
  · exact ⟨rfl, rfl⟩
  · exact ⟨rfl, rfl⟩
  · exact ⟨rfl, rfl⟩
  · next no => exact ⟨rfl, (counted (is_initialized_no.mp no).2.1).symm⟩

/-- The bookkeeping of batch requests before the connection is there, after a run without the
slips `avoided`. -/
structure BatchBookkeeping (config : Config) (avoided : Slip → Prop) (state : State) : Prop where
  inProgress : avoided .flag →
    (state.handler.batchRequestInProgress = true ↔ ∃ lease, state.holders = [lease])
  alone : state.holders = [] ∨
    ∃ lease, state.holders = [lease] ∧ state.handler.batchRequestInProgress = true
  waiting : ∀ thread, (thread, Awaited.batch) ∈ state.waiting →
    state.handler.batchRequestInProgress = true
  empty : avoided .bytes → state.handler.batchRequestInProgress = false →
    state.handler.batchStream = []
  size : avoided .size → state.handler.initialized = false → state.handler.flushing = false →
    state.handler.exception = none →
      state.handler.batchRequestsSize =
        requestBatchHdr.length + queuedSize state.handler.requests
  finish : ∀ thread bytes after, step config (.finishBatchRequest thread bytes) state = some after →
    after.given = state.given →
      (after.handler.requests = state.handler.requests ∧
        after.handler.batchRequestsSize = state.handler.batchRequestsSize) ∧
      (state.handler.exception = none → ∃ lease ∈ state.lease thread, Kept lease after)
  abort : ∀ thread after, step config (.abortBatchRequest thread) state = some after →
    ¬ Oversight config .size (.abortBatchRequest thread) state →
      (after.handler.requests = state.handler.requests ∧
        after.handler.batchRequestsSize = state.handler.batchRequestsSize) ∧
      (state.handler.exception = none → ∃ lease ∈ state.lease thread, Kept lease after)

theorem Sound.kept (sound : Sound avoided state) {thread : Thread} (held : lease ∈ state.lease thread)
    (same : after.handler.requests = state.handler.requests ∧
      after.handler.batchRequestsSize = state.handler.batchRequestsSize)
    (none : state.handler.exception = none) : ∃ lease ∈ state.lease thread, Kept lease after := by
  obtain ⟨lent, sum⟩ := sound.leases lease (lease_mem held) none
  exact ⟨lease, held, by rw [same.1, lent], by rw [same.2, sum]⟩

theorem batch_bookkeeping {avoided : Slip → Prop} (reached : CarefullyReached config avoided state) :
    BatchBookkeeping config avoided state := by
  have sound := carefully_reached_sound reached
  refine
    { inProgress := ?_, alone := ?_, waiting := sound.waiting
      empty := fun clean _ => (sound.empty clean).1, size := ?_, finish := ?_, abort := ?_ }
  · intro careful
    constructor
    · intro set
      obtain ⟨lease, held⟩ := List.exists_mem_of_ne_nil _ (sound.held careful set)
      exact ⟨lease, (sound.one_lease held).1⟩
    · rintro ⟨lease, only⟩
      exact (sound.one_lease (only ▸ List.mem_singleton_self lease)).2
  · by_cases none : state.holders = []
    · exact .inl none
    · obtain ⟨lease, held⟩ := List.exists_mem_of_ne_nil _ none
      exact .inr ⟨lease, sound.one_lease held⟩
  · intro careful notInitialized notFlushing none
    refine sound.size ?_ none (.inl careful)
    have late := sound.late
    cases reached : state.progress <;> simp_all
  · intro thread bytes after stepped failed
    simp only [step, Option.ite_none_left_eq_some, Option.map_eq_some_iff] at stepped
    obtain ⟨-, lease, held, eq⟩ := stepped
    subst eq
    have same := failed_finish_kept failed
    exact ⟨same, sound.kept held same⟩
  · intro thread after stepped careful
    simp only [step, Option.ite_none_left_eq_some, Option.map_eq_some_iff] at stepped
    obtain ⟨-, lease, held, eq⟩ := stepped
    subst eq
    have same := aborted_kept lease fun none : state.handler.exception = none => by
      have noBatches : batches state.handler.requests = [] :=
        not_not.mp fun others => careful ⟨none, others⟩
      have size := sound.size (sound.unsent (sound.one_lease (lease_mem held)).2) none
        (.inr noBatches)
      rw [size, queuedSize, noBatches]
      rfl
    exact ⟨same, sound.kept held same⟩

def smallConfig : Config := { batchAutoFlush := false, messageSizeMax := 1024 }

/-- Two threads add a batch request each, the second after having waited for the first. -/
def twoBatches : List Event :=
  [.prepareBatchRequest 0, .prepareBatchRequest 1, .finishBatchRequest 0 [7],
    .prepareBatchRequest 1, .finishBatchRequest 1 [8, 9], .prepareBatchRequest 0]

def twoBatchesEnd : State where
  handler := { ConnectRequestHandler.initial with
    batchRequestInProgress := true
    batchRequestsSize := 21
    requests := [.os [7], .os [8, 9]] }
  progress := .connecting
  work := []
  waiting := []
  holders := [{ thread := 0, stream := [], batches := [[7], [8, 9]], size := 21 }]
  given := [.os [7], .os [8, 9]]
  passed := []
  told := [(.os [7], .accepted false), (.os [8, 9], .accepted false)]

theorem two_batches_bookkeeping :
    runAll (step smallConfig) twoBatches start = some twoBatchesEnd ∧
      BatchBookkeeping smallConfig (fun _ => True) twoBatchesEnd := by
  have ran : runAll (checked (step smallConfig) fun event state =>
      decide (¬ Oversight smallConfig .flag event state ∧
        ¬ Oversight smallConfig .bytes event state ∧ ¬ Oversight smallConfig .size event state))
      twoBatches start = some twoBatchesEnd := by
    decide
  have reached : CarefullyReached smallConfig (fun _ => True) twoBatchesEnd := by
    refine reach_of_checked (fun event state passed slip _ => ?_) ran
    obtain ⟨flag, bytes, size⟩ := of_decide_eq_true passed
    cases slip with
    | flag => exact flag
    | bytes => exact bytes
    | size => exact size
  exact ⟨by decide, batch_bookkeeping reached⟩

def flushedBatch : List Event :=
  [.prepareBatchRequest 0, .finishBatchRequest 0 [7], .setConnection, .flushRequests 1,
    .flushFront .queued, .flushEnd]

/-- The handler does not deduct what it has sent. -/
theorem flushed_batch_still_counted :
    ∃ state, runAll (step smallConfig) flushedBatch start = some state ∧
      state.handler.batchRequestInProgress = false ∧
      state.handler.batchRequestsSize ≠
        requestBatchHdr.length + queuedSize state.handler.requests := by
  refine ⟨(runAll (step smallConfig) flushedBatch start).getD start, ?_, ?_, ?_⟩
  · decide
  · decide
  · decide

end IceTouch.Connecting

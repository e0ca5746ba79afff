import IceTouch.Connecting.Batching
import Mathlib.Data.List.Perm.Basic

/-!
# Queueing is transparent

Every request the handler takes is passed to the connection once, in the order given, and its
owner learns what the connection answered. A step `Spoils` that where a queued request is
rejected and takes others with it, where the handler fails a request by itself, and where the
establishment does not succeed.
-/

namespace IceTouch.Connecting

open Bytes Connection Machine

variable {config : Config} {state after : State}

def Request.isBatch : Request → Bool
  | .os _ => true
  | _ => false

def Spoils (config : Config) (event : Event) (state : State) : Prop :=
  match event with
  | .setException _ => True
  | .finishBatchRequest thread bytes =>
      ∃ lease ∈ state.lease thread,
        state.handler.exceeds config (lease.stream ++ bytes).length = true
  | .flushFront answer =>
      answer.accepts = false ∧ ∃ front ∈ state.handler.requests.head?,
        front.isBatch = true ∨ state.handler.requests.tail ≠ []
  | .prepareBatchRequest _ => state.handler.exception ≠ none
  | .sendAsyncRequest _ _ _ => state.handler.exception ≠ none
  | .flushAsyncBatchRequests _ _ _ => state.handler.exception ≠ none
  | _ => False

instance (event : Event) (state : State) : Decidable (Spoils config event state) :=
  match event with
  | .setException _ => inferInstanceAs (Decidable True)
  | .finishBatchRequest thread bytes =>
      inferInstanceAs (Decidable (∃ lease ∈ state.lease thread,
        state.handler.exceeds config (lease.stream ++ bytes).length = true))
  | .flushFront answer =>
      inferInstanceAs (Decidable (answer.accepts = false ∧
        ∃ front ∈ state.handler.requests.head?,
          front.isBatch = true ∨ state.handler.requests.tail ≠ []))
  | .prepareBatchRequest _ | .sendAsyncRequest _ _ _ | .flushAsyncBatchRequests _ _ _ =>
      inferInstanceAs (Decidable (state.handler.exception ≠ none))
  | .abortBatchRequest _ | .directBatchRequest _ _ _ | .setConnection | .flushRequests _
  | .flushEnd | .execute _ => inferInstanceAs (Decidable False)

/-- What the connection's answers tell the owners of the requests. -/
def answered (passed : List (Request × Answer)) : List (Request × Told) :=
  passed.map fun call => (call.1, call.2.told)

def toldEarly (requests : List Request) : List (Request × Told) :=
  (batches requests).map fun bytes => (.os bytes, .accepted false)

def notified (callbacks : List Request) : List (Request × Told) :=
  callbacks.map fun request => (request, .accepted true)

def WorkItem.tells (requests : List Request) : WorkItem → List (Request × Told)
  | .flushRequestsWithException ex wrapped => failures ex wrapped requests
  | .flushSentRequests callbacks => notified callbacks

def WorkItem.fails : WorkItem → Bool
  | .flushRequestsWithException _ _ => true
  | .flushSentRequests _ => false

def State.pending (state : State) : List (Request × Told) :=
  notified state.handler.sentCallbacks ++ state.work.flatMap (WorkItem.tells state.handler.requests)

structure InOrder (state : State) : Prop where
  stream : state.handler.batchStream = []
  leases : ∀ lease ∈ state.holders, lease.stream = []
  /-- Nothing has been rejected: the rest of what was given is queued. -/
  queued : state.handler.exception = none →
    state.given = state.passed.map Prod.fst ++ state.handler.requests
  /-- The last request has been rejected. -/
  rejected : state.handler.exception ≠ none →
    state.given = state.passed.map Prod.fst ∧ batches state.handler.requests = []
  failing : (state.work.filter WorkItem.fails).length ≤
    if state.handler.exception = none then 0 else 1
  told : ∀ entry, state.told.count entry + state.pending.count entry =
    (answered state.passed).count entry + (toldEarly state.handler.requests).count entry
  /-- Once the flush is over the queue is empty, or has failed. -/
  finished : state.progress = .done → state.handler.exception = none →
    state.handler.requests = [] ∧ state.handler.initialized = true
  initialized : state.handler.initialized = true →
    state.progress = .done ∧ state.handler.exception = none
  callbacks : state.progress ≠ .sending → state.handler.sentCallbacks = []

theorem start_in_order : InOrder start where
  stream := rfl
  leases := fun _ inside => absurd inside List.not_mem_nil
  queued := fun _ => rfl
  rejected := fun failed => absurd rfl failed
  failing := Nat.le_refl 0
  told := fun _ => rfl
  finished := fun done => nomatch done
  initialized := fun set => nomatch set
  callbacks := fun _ => rfl

theorem tells_of_no_failure {work : List WorkItem} (none : work.filter WorkItem.fails = [])
    (first second : List Request) :
    work.flatMap (WorkItem.tells first) = work.flatMap (WorkItem.tells second) := by
  induction work with
  | nil => rfl
  | cons item rest ih =>
      cases item with
      | flushRequestsWithException ex wrapped => simp [WorkItem.fails] at none
      | flushSentRequests callbacks =>
          rw [List.filter_cons_of_neg (by simp [WorkItem.fails])] at none
          rw [List.flatMap_cons, List.flatMap_cons, ih none]
          rfl

section

variable (order : InOrder state)

include order

theorem InOrder.no_failure (none : state.handler.exception = none) :
    state.work.filter WorkItem.fails = [] := by
  have bound := order.failing
  rw [if_pos none] at bound
  exact List.eq_nil_of_length_eq_zero (Nat.le_zero.mp bound)

structure SameOrder (state after : State) : Prop where
  stream : after.handler.batchStream = []
  leases : ∀ lease ∈ after.holders, lease.stream = []
  requests : after.handler.requests = state.handler.requests
  exception : after.handler.exception = state.handler.exception
  initialized : after.handler.initialized = state.handler.initialized
  sentCallbacks : after.handler.sentCallbacks = state.handler.sentCallbacks
  progress : after.progress = state.progress
  work : after.work = state.work
  given : after.given = state.given
  passed : after.passed = state.passed
  told : after.told = state.told

theorem InOrder.same_order (same : SameOrder state after) :
    InOrder after where
  stream := same.stream
  leases := same.leases
  queued := by
    rw [same.exception, same.given, same.passed, same.requests]
    exact order.queued
  rejected := by
    rw [same.exception, same.given, same.passed, same.requests]
    exact order.rejected
  failing := by
    rw [same.work, same.exception]
    exact order.failing
  told := by
    rw [State.pending, same.told, same.sentCallbacks, same.work, same.passed, same.requests]
    exact order.told
  finished := by
    rw [same.progress, same.exception, same.requests, same.initialized]
    exact order.finished
  initialized := by
    rw [same.initialized, same.progress, same.exception]
    exact order.initialized
  callbacks := by
    rw [same.progress, same.sentCallbacks]
    exact order.callbacks

theorem InOrder.queue_one (request : Request) (no : state.handler.isInitialized = .no)
    (told : List (Request × Told)) (early : told = toldEarly [request]) :
    InOrder { state with
      handler.requests := state.handler.requests ++ [request]
      given := state.given ++ [request]
      told := state.told ++ told } := by
  obtain ⟨notInitialized, none, -⟩ := is_initialized_no.mp no
  have tells := tells_of_no_failure (order.no_failure none) (state.handler.requests ++ [request])
    state.handler.requests
  refine
    { stream := order.stream, leases := order.leases, queued := fun _ => ?_
      rejected := fun failed => absurd none failed, failing := order.failing
      told := fun entry => ?_, finished := fun done none => ?_, initialized := fun set => ?_
      callbacks := order.callbacks }
  · simp only [order.queued none, List.append_assoc]
  · have counted := order.told entry
    simp only [State.pending, List.count_append] at counted ⊢
    simp only [tells, early, toldEarly, batches_append, List.map_append, List.count_append]
      at counted ⊢
    omega
  · have set := (order.finished done none).2
    rw [notInitialized] at set
    cases set
  · exact absurd set (by simp [notInitialized])

theorem InOrder.pass_directly (set : state.handler.initialized = true) (request : Request)
    (answer : Answer) :
    InOrder (((state.pass request answer).give request).tell request answer.told) := by
  obtain ⟨done, none⟩ := order.initialized set
  obtain ⟨emptied, -⟩ := order.finished done none
  refine
    { stream := order.stream, leases := order.leases, queued := fun _ => ?_
      rejected := fun failed => absurd none failed, failing := order.failing
      told := fun entry => ?_, finished := order.finished, initialized := order.initialized
      callbacks := order.callbacks }
  · have given := order.queued none
    simp only [State.tell, State.give, State.pass, emptied, given, List.append_nil, List.map_append,
      List.map_cons, List.map_nil]
  · have counted := order.told entry
    simp only [State.tell, State.give, State.pass, State.pending, answered, List.map_append,
      List.map_cons, List.map_nil, List.count_append] at counted ⊢
    omega

end

theorem InOrder.waiting (order : InOrder state) (waiting : List (Thread × Awaited)) :
    InOrder { state with waiting := waiting } :=
  order.same_order
      { stream := order.stream, leases := order.leases, requests := rfl, exception := rfl,
        initialized := rfl, sentCallbacks := rfl, progress := rfl, work := rfl, given := rfl,
        passed := rfl, told := rfl }

section

variable (order : InOrder state)

include order

theorem InOrder.returned (lease : Lease) : InOrder (state.returnStream lease) :=
  order.same_order
    { stream := order.stream
      leases := fun other inside => order.leases other (List.mem_of_mem_erase inside)
      requests := rfl, exception := rfl, initialized := rfl, sentCallbacks := rfl,
      progress := rfl, work := rfl, given := rfl, passed := rfl, told := rfl }

theorem send_or_queue_in_order (thread : Thread) {request : Request} (answer : Answer)
    (noBatch : request.isBatch = false) (none : state.handler.exception = none) :
    InOrder (sendOrQueue thread request answer state) := by
  unfold sendOrQueue
  split
  · exact order.waiting _
  · next ex throws =>
      have failed := (is_initialized_throws.mp throws).2
      rw [none] at failed
      cases failed
  · next no =>
      have early : [] = toldEarly [request] := by
        cases request <;> first | rfl | cases noBatch
      have queued := order.queue_one _ no [] early
      rwa [List.append_nil] at queued
  · next yes => exact order.pass_directly (is_initialized_yes.mp yes) request answer

theorem finish_in_order {thread : Thread} {lease : Lease} {bytes : List Byte}
    (held : lease ∈ state.lease thread)
    (clean : ¬ Spoils config (.finishBatchRequest thread bytes) state) :
    InOrder (finishBatchRequest config lease bytes state) := by
  have returned := order.returned lease
  unfold finishBatchRequest
  split
  · exact order.waiting _
  · exact returned
  · exact returned
  · next no =>
      dsimp only
      split
      · next exceeds => exact absurd ⟨lease, held, exceeds⟩ clean
      · have empty := order.leases lease (lease_mem held)
        have queued := returned.queue_one (.os bytes) no
          [(.os bytes, .accepted false)] rfl
        rw [empty, List.nil_append]
        exact queued.same_order
          { stream := rfl, leases := returned.leases, requests := rfl, exception := rfl,
            initialized := rfl, sentCallbacks := rfl, progress := rfl, work := rfl, given := rfl,
            passed := rfl, told := rfl }

section

variable (none : state.handler.exception = none)

include none

variable {front : Request}

theorem InOrder.pop_front (sending : state.progress = .sending) {rest : List Request}
    (queue : state.handler.requests = front :: rest) (answer : Answer) (now : List (Request × Told))
    (later : List Request)
    (same : now ++ notified later ++ toldEarly [front] = [(front, answer.told)]) :
    InOrder { state with
      handler.requests := rest
      handler.sentCallbacks := state.handler.sentCallbacks ++ later
      passed := state.passed ++ [(front, answer)]
      told := state.told ++ now } := by
  have tells := tells_of_no_failure (order.no_failure none) rest state.handler.requests
  refine
    { stream := order.stream, leases := order.leases, queued := fun _ => ?_
      rejected := fun failed => absurd none failed, failing := order.failing
      told := fun entry => ?_, finished := fun done => ?_, initialized := fun set => ?_
      callbacks := fun notSending => absurd sending notSending }
  · simp [order.queued none, queue]
  · have counted := order.told entry
    have split : toldEarly (front :: rest) = toldEarly [front] ++ toldEarly rest := by
      simp only [toldEarly, ← List.map_append, ← batches_append, List.singleton_append]
    have balance := congrArg (List.count entry) same
    simp only [State.pending, notified, queue, split, tells, answered, List.map_append,
      List.map_cons, List.map_nil, List.count_append] at counted balance ⊢
    omega
  · rw [sending] at done
    cases done
  · have done := (order.initialized set).1
    rw [sending] at done
    cases done

theorem InOrder.reject_front (sending : state.progress = .sending) (noBatch : front.isBatch = false)
    (queue : state.handler.requests = [front]) {answer : Answer} {ex : LocalException}
    {wrapped : Bool} (told : answer.told = .failed ex wrapped)
    (unwrapped : ∀ serial, front = .batchOut serial → wrapped = false) :
    InOrder ((state.pass front answer).failFlush ex wrapped) := by
  have noFailure := order.no_failure none
  have early : batches [front] = [] := by
    cases front <;> first | rfl | cases noBatch
  have fails : failures ex wrapped [front] = [(front, .failed ex wrapped)] := by
    cases front with
    | out serial => rfl
    | os bytes => cases noBatch
    | batchOut serial => rw [unwrapped serial rfl]; rfl
  refine
    { stream := order.stream, leases := order.leases, queued := fun failed => nomatch failed
      rejected := fun _ => ⟨?_, ?_⟩, failing := ?_, told := fun entry => ?_
      finished := fun done => ?_, initialized := fun set => ?_
      callbacks := fun notSending => absurd sending notSending }
  · simp [State.failFlush, State.pass, order.queued none, queue]
  · simp only [State.failFlush, State.pass, queue, early]
  · change ((state.work ++ [WorkItem.flushRequestsWithException ex wrapped]).filter
      WorkItem.fails).length ≤ 1
    rw [List.filter_append, noFailure]
    exact Nat.le_refl 1
  · have counted := order.told entry
    simp only [State.failFlush, State.pass, State.pending, queue, List.flatMap_append,
      List.flatMap_cons, List.flatMap_nil, List.append_nil, WorkItem.tells, fails, answered,
      List.map_append, List.map_cons, List.map_nil, told, List.count_append] at counted ⊢
    omega
  · have done' : state.progress = .done := done
    rw [sending] at done'
    cases done'
  · have done := (order.initialized set).1
    rw [sending] at done
    cases done

theorem flush_front_in_order (sending : state.progress = .sending) {rest : List Request}
    (queue : state.handler.requests = front :: rest) {answer : Answer} (fits : answer.fits front)
    (clean : ¬ Spoils config (.flushFront answer) state) :
    InOrder (flushFront front rest answer state) := by
  have rejected (rejects : answer.accepts = false) :
      front.isBatch = false ∧ state.handler.requests = [front] := by
    have both : ¬ (front.isBatch = true ∨ rest ≠ []) := fun either =>
      clean ⟨rejects, front, by rw [queue]; rfl, by rw [queue]; exact either⟩
    rw [not_or, not_not, Bool.not_eq_true] at both
    exact ⟨both.1, by rw [queue, both.2]⟩
  unfold flushFront
  cases answer with
  | refused ex =>
      obtain ⟨noBatch, last⟩ := rejected rfl
      refine order.reject_front none sending noBatch last rfl fun serial flush => ?_
      rw [flush] at fits
      exact absurd rfl (fits ex)
  | thrown ex =>
      obtain ⟨noBatch, last⟩ := rejected rfl
      exact order.reject_front none sending noBatch last rfl fun _ _ => rfl
  | sent invokeCallback =>
      have early : toldEarly [front] = [] := by
        cases front with
        | os bytes => exact absurd rfl (fits invokeCallback)
        | out serial => rfl
        | batchOut serial => rfl
      cases invokeCallback with
      | false =>
          have popped := order.pop_front none sending queue (.sent false)
            [(front, .accepted false)] [] (by rw [early]; rfl)
          rwa [List.append_nil] at popped
      | true =>
          have popped := order.pop_front none sending queue (.sent true)
            [] [front] (by rw [early]; rfl)
          rwa [List.append_nil] at popped
  | queued =>
      cases front with
      | os bytes =>
          have popped := order.pop_front none sending queue .queued [] [] rfl
          rwa [List.append_nil, List.append_nil] at popped
      | out serial =>
          have popped := order.pop_front none sending queue .queued
            [(.out serial, .accepted false)] [] rfl
          rwa [List.append_nil] at popped
      | batchOut serial =>
          have popped := order.pop_front none sending queue .queued
            [(.batchOut serial, .accepted false)] [] rfl
          rwa [List.append_nil] at popped

end

theorem InOrder.schedule_callbacks :
    InOrder { state with
      work := state.work ++ [.flushSentRequests state.handler.sentCallbacks]
      handler.sentCallbacks := [] } where
  stream := order.stream
  leases := order.leases
  queued := order.queued
  rejected := order.rejected
  failing := by
    have bound := order.failing
    simpa [List.filter_append, WorkItem.fails] using bound
  told := fun entry => by
    have counted := order.told entry
    simp only [State.pending, notified, List.flatMap_append, List.flatMap_cons, List.flatMap_nil,
      List.append_nil, WorkItem.tells, List.map_nil, List.nil_append, List.count_append]
      at counted ⊢
    omega
  finished := order.finished
  initialized := order.initialized
  callbacks := fun _ => rfl

theorem InOrder.end_flush (sending : state.progress = .sending)
    (scheduled : state.handler.sentCallbacks = [])
    (emptied : state.handler.requests = [] ∨ state.handler.exception ≠ none) :
    InOrder ({ (if state.handler.exception = none then
      { state with handler.initialized := true, handler.flushing := false }
      else state) with progress := .done } : State).notifyAll := by
  have unset : state.handler.initialized = true → False := fun set => by
    have done := (order.initialized set).1
    rw [sending] at done
    cases done
  split
  · next none =>
      exact
        { stream := order.stream, leases := order.leases, queued := order.queued
          rejected := order.rejected, failing := order.failing, told := order.told
          finished := fun _ _ => ⟨emptied.resolve_right fun failed => failed none, rfl⟩
          initialized := fun _ => ⟨rfl, none⟩, callbacks := fun _ => scheduled }
  · next failed =>
      exact
        { stream := order.stream, leases := order.leases, queued := order.queued
          rejected := order.rejected, failing := order.failing, told := order.told
          finished := fun _ none => absurd none failed
          initialized := fun set => (unset set).elim, callbacks := fun _ => scheduled }

theorem flush_end_in_order (sending : state.progress = .sending)
    (emptied : state.handler.requests = [] ∨ state.handler.exception ≠ none) :
    InOrder (flushEnd state) := by
  unfold flushEnd
  dsimp only
  by_cases none : state.handler.sentCallbacks = []
  · rw [if_pos none]
    exact order.end_flush sending none emptied
  · rw [if_neg none]
    exact order.schedule_callbacks.end_flush sending rfl emptied

end

theorem filter_erase {work : List WorkItem} {index : Nat} {item : WorkItem}
    (there : work[index]? = some item) : work.Perm (item :: work.eraseIdx index) := by
  obtain ⟨bound, value⟩ := List.getElem?_eq_some_iff.mp there
  rw [← value]
  exact (List.getElem_cons_eraseIdx_perm bound).symm

section

variable (order : InOrder state)

include order

theorem execute_in_order {index : Nat} {item : WorkItem} (there : state.work[index]? = some item) :
    InOrder (item.run { state with work := state.work.eraseIdx index }) := by
  have perm := filter_erase there
  have bound := order.failing
  rw [(perm.filter WorkItem.fails).length_eq] at bound
  have tells (entry : Request × Told) (requests : List Request) :
      (state.work.flatMap (WorkItem.tells requests)).count entry =
        (item.tells requests).count entry +
          ((state.work.eraseIdx index).flatMap (WorkItem.tells requests)).count entry := by
    rw [(perm.flatMap_right (WorkItem.tells requests)).count_eq, List.flatMap_cons,
      List.count_append]
  cases item with
  | flushSentRequests callbacks =>
      rw [List.filter_cons_of_neg (by simp [WorkItem.fails])] at bound
      exact
        { stream := order.stream, leases := order.leases, queued := order.queued
          rejected := order.rejected, failing := bound
          told := fun entry => by
            have counted := order.told entry
            have split := tells entry state.handler.requests
            simp only [State.pending, WorkItem.tells, WorkItem.run, notified, List.count_append]
              at counted split ⊢
            omega
          finished := order.finished, initialized := order.initialized
          callbacks := order.callbacks }
  | flushRequestsWithException ex wrapped =>
      rw [List.filter_cons_of_pos rfl, List.length_cons] at bound
      have failed : state.handler.exception ≠ none := fun none => by
        rw [if_pos none] at bound
        omega
      rw [if_neg failed] at bound
      have noOther : (state.work.eraseIdx index).filter WorkItem.fails = [] :=
        List.eq_nil_of_length_eq_zero (by omega)
      obtain ⟨given, noBatches⟩ := order.rejected failed
      exact
        { stream := order.stream, leases := order.leases
          queued := fun none => absurd none failed
          rejected := fun _ => ⟨given, rfl⟩
          failing := by
            change ((state.work.eraseIdx index).filter WorkItem.fails).length ≤ _
            rw [noOther]
            exact Nat.zero_le _
          told := fun entry => by
            have counted := order.told entry
            have split := tells entry state.handler.requests
            have others := tells_of_no_failure noOther [] state.handler.requests
            simp only [State.pending, WorkItem.tells, WorkItem.run, toldEarly, noBatches,
              others, List.count_append] at counted split ⊢
            simp only [batches, failures, List.filterMap_nil, List.map_nil, List.count_nil]
              at counted split ⊢
            omega
          finished := fun _ none => absurd none failed
          initialized := fun set => absurd (order.initialized set).2 failed
          callbacks := order.callbacks }

theorem prepare_in_order (thread : Thread) : InOrder (prepareBatchRequest thread state) := by
  unfold prepareBatchRequest
  split
  · exact order.waiting _
  · split
    · exact order.waiting _
    · exact order
    · exact order
    · exact order.same_order
        { stream := rfl
          leases := by
            intro lease inside
            rcases List.mem_append.mp inside with old | new
            · exact order.leases lease old
            · rw [List.mem_singleton.mp new]
              exact order.stream
          requests := rfl, exception := rfl, initialized := rfl, sentCallbacks := rfl,
          progress := rfl, work := rfl, given := rfl, passed := rfl, told := rfl }

theorem abort_in_order (lease : Lease) : InOrder (abortBatchRequest lease state) := by
  have returned := order.returned lease
  unfold abortBatchRequest
  split
  · exact order.waiting _
  · exact returned
  · exact returned
  · exact order.same_order
      { stream := rfl, leases := returned.leases, requests := rfl, exception := rfl, initialized := rfl,
        sentCallbacks := rfl, progress := rfl, work := rfl, given := rfl, passed := rfl,
        told := rfl }

theorem InOrder.progress_early {progress : Progress} (before : state.progress ≠ .sending)
    (notDone : state.progress ≠ .done) (later : progress ≠ .done) (flushing : Bool) :
    InOrder { state with progress := progress, handler.flushing := flushing } :=
  { stream := order.stream, leases := order.leases, queued := order.queued
    rejected := order.rejected, failing := order.failing, told := order.told
    finished := fun done => absurd done later
    initialized := fun set => absurd (order.initialized set).1 notDone
    callbacks := fun _ => order.callbacks before }

theorem step_in_order {event : Event} (clean : ¬ Spoils config event state)
    (stepped : step config event state = some after) : InOrder after := by
  cases event with
  | prepareBatchRequest thread =>
      simp only [step, Option.ite_none_left_eq_some, Option.some.injEq] at stepped
      rw [← stepped.2]
      exact prepare_in_order order thread
  | finishBatchRequest thread bytes =>
      simp only [step, Option.ite_none_left_eq_some, Option.map_eq_some_iff] at stepped
      obtain ⟨-, lease, held, eq⟩ := stepped
      rw [← eq]
      exact finish_in_order order held clean
  | abortBatchRequest thread =>
      simp only [step, Option.ite_none_left_eq_some, Option.map_eq_some_iff] at stepped
      obtain ⟨-, lease, -, eq⟩ := stepped
      rw [← eq]
      exact abort_in_order order lease
  | sendAsyncRequest thread serial answer =>
      simp only [step, Option.ite_none_left_eq_some, Option.some.injEq] at stepped
      rw [← stepped.2]
      exact send_or_queue_in_order order thread answer rfl (not_not.mp clean)
  | flushAsyncBatchRequests thread serial answer =>
      simp only [step, Option.ite_none_left_eq_some, Option.some.injEq] at stepped
      rw [← stepped.2]
      exact send_or_queue_in_order order thread answer rfl (not_not.mp clean)
  | directBatchRequest thread bytes answer =>
      simp only [step, Option.ite_none_left_eq_some, Option.some.injEq, not_or, not_not] at stepped
      obtain ⟨⟨-, yes, -⟩, eq⟩ := stepped
      rw [← eq]
      exact order.pass_directly (is_initialized_yes.mp yes) (.os bytes) answer
  | setConnection =>
      simp only [step, Option.ite_none_right_eq_some, Option.some.injEq] at stepped
      obtain ⟨⟨connecting, -⟩, eq⟩ := stepped
      rw [← eq]
      exact order.progress_early (by simp [connecting]) (by simp [connecting]) (by simp) _
  | setException ex => exact absurd trivial clean
  | flushRequests thread =>
      simp only [step, Option.ite_none_right_eq_some, Option.some.injEq] at stepped
      obtain ⟨⟨connected, -, -⟩, eq⟩ := stepped
      rw [← eq]
      unfold flushRequests
      split
      · exact order.waiting _
      · exact order.progress_early (by simp [connected]) (by simp [connected]) (by simp) _
  | flushFront answer =>
      simp only [step] at stepped
      split at stepped
      · cases stepped
      · next front rest queue =>
          simp only [Option.ite_none_right_eq_some, Option.some.injEq] at stepped
          obtain ⟨⟨sending, none, fits⟩, eq⟩ := stepped
          rw [← eq]
          exact flush_front_in_order order none sending queue fits clean
  | flushEnd =>
      simp only [step, Option.ite_none_right_eq_some, Option.some.injEq] at stepped
      obtain ⟨⟨sending, emptied⟩, eq⟩ := stepped
      rw [← eq]
      exact flush_end_in_order order sending emptied
  | execute item =>
      simp only [step, Option.bind_eq_bind, Option.bind_eq_some_iff, Option.some.injEq] at stepped
      obtain ⟨workItem, there, eq⟩ := stepped
      rw [← eq]
      exact execute_in_order order there

end

/-- The states of a run in which no step spoils the transparency. -/
abbrev CleanlyReached (config : Config) : State → Prop :=
  Reach (step config) (fun event state => ¬ Spoils config event state) start

theorem cleanly_reached_in_order (reached : CleanlyReached config state) : InOrder state :=
  reached.invariant start_in_order fun _ _ _ order clean stepped =>
    step_in_order order clean stepped

/-- The handler does what a caller would have done that had the connection from the start. -/
structure Transparent (state : State) : Prop where
  /-- Nothing is passed twice or out of order. -/
  order : state.passed.map Prod.fst <+: state.given
  /-- Once the queue has been flushed everything given has been passed. -/
  complete : state.progress = .done → state.passed.map Prod.fst = state.given
  /-- And everybody has learned what the connection answered. -/
  outcome : state.progress = .done → state.work = [] →
    state.told.Perm (state.passed.map fun call => (call.1, call.2.told))

theorem queueing_transparent (reached : CleanlyReached config state) : Transparent state := by
  have order := cleanly_reached_in_order reached
  constructor
  · by_cases none : state.handler.exception = none
    · rw [order.queued none]
      exact List.prefix_append _ _
    · have same := (order.rejected none).1
      exact ⟨[], by rw [List.append_nil, same]⟩
  · intro done
    by_cases none : state.handler.exception = none
    · rw [order.queued none, (order.finished done none).1, List.append_nil]
    · rw [(order.rejected none).1]
  · intro done noWork
    have callbacks := order.callbacks (by simp [done])
    have noBatches : batches state.handler.requests = [] := by
      by_cases none : state.handler.exception = none
      · rw [(order.finished done none).1]
        rfl
      · exact (order.rejected none).2
    rw [List.perm_iff_count]
    intro entry
    have counted := order.told entry
    simp only [State.pending, callbacks, noWork, notified, toldEarly, noBatches, List.map_nil,
      List.flatMap_nil, List.append_nil, List.count_nil, Nat.add_zero] at counted
    exact counted

def queuedRun : List Event :=
  [.sendAsyncRequest 0 1 .queued, .prepareBatchRequest 0, .finishBatchRequest 0 [7],
    .flushAsyncBatchRequests 0 2 .queued, .setConnection, .flushRequests 1,
    .flushFront (.sent true), .flushFront .queued, .sendAsyncRequest 0 3 .queued,
    .flushFront .queued, .flushEnd, .sendAsyncRequest 0 3 (.thrown .memoryLimit), .execute 0]

def queuedEnd : State :=
  (runAll (step smallConfig) queuedRun start).getD start

theorem queued_run_transparent :
    runAll (step smallConfig) queuedRun start = some queuedEnd ∧ queuedEnd.progress = .done ∧
      queuedEnd.given = [.out 1, .os [7], .batchOut 2, .out 3] ∧ Transparent queuedEnd := by
  have ran : runAll (checked (step smallConfig) fun event state =>
      decide (¬ Spoils smallConfig event state)) queuedRun start = some queuedEnd := by
    decide
  have reached : CleanlyReached smallConfig queuedEnd :=
    reach_of_checked (fun _ _ passed => of_decide_eq_true passed) ran
  exact ⟨by decide, by decide, by decide, queueing_transparent reached⟩

def rejectedRun : List Event :=
  [.sendAsyncRequest 0 1 .queued, .sendAsyncRequest 0 2 .queued, .setConnection, .flushRequests 1,
    .flushFront (.thrown .memoryLimit), .flushEnd, .execute 0]

/-- The second is never passed on and fails with the exception of the first. -/
theorem rejected_request_fails_others :
    ∃ state, runAll (step smallConfig) rejectedRun start = some state ∧ state.work = [] ∧
      state.passed = [(.out 1, .thrown .memoryLimit)] ∧
      state.told = [(.out 1, .failed .memoryLimit false), (.out 2, .failed .memoryLimit false)] ∧
      ¬ Transparent state := by
  refine ⟨(runAll (step smallConfig) rejectedRun start).getD start, ?_, ?_, ?_, ?_, ?_⟩
  · decide
  · decide
  · decide
  · decide
  · intro transparent
    have complete := transparent.complete (by decide)
    exact absurd complete (by decide)

end IceTouch.Connecting

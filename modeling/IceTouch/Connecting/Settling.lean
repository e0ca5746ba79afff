import IceTouch.Connecting.Establishing

/-!
# The end of an establishment

Who is served when an establishment succeeds or fails, and that all requests come to an end.
Resolving an endpoint and starting a connection are answered from outside, so a request comes to
an end when these answers do.
-/

namespace IceTouch.Connecting.Establishing

open Connection Machine IceTouch.Lists

variable {κ : Type}

/-- It has not been answered. -/
def Request.isOpen (request : Request κ) : Bool :=
  match request.stage with
  | .answered _ | .told _ | .finished _ => false
  | _ => true

def Request.stepsToTry (request : Request κ) : Nat :=
  match request.stage with
  | .resolving endpoints => endpoints + 2
  | .waiting notified => if notified then 2 else 0
  | .asking => 1
  | _ => 0

def Request.stepsToFinish (request : Request κ) : Nat :=
  match request.stage with
  | .establishing iter => request.connectors.length - iter
  | .answered _ => 2
  | .told _ => 1
  | _ => 0

def total (weight : Request κ → Nat) (s : State κ) : Nat :=
  (s.requests.map weight).sum

def State.measure (s : State κ) : Nat × Nat × Nat :=
  (total (fun request => if request.isOpen then 1 else 0) s, total Request.stepsToTry s,
    total Request.stepsToFinish s)

def Event.settles : Event κ → Bool
  | .getConnectors _ | .create _ | .destroy => false
  | _ => true

/-- The order of `State.measure`. -/
def less : Nat × Nat × Nat → Nat × Nat × Nat → Prop :=
  Prod.Lex (· < ·) (Prod.Lex (· < ·) (· < ·))

theorem less_wf : WellFounded less :=
  (Prod.lex Nat.lt_wfRel (Prod.lex Nat.lt_wfRel Nat.lt_wfRel)).wf

variable {one one' two two' three three' : Nat}

theorem less_of_open (smaller : one' < one) : less (one', two', three') (one, two, three) :=
  Prod.Lex.left _ _ smaller

theorem less_of_try (same : one' = one) (smaller : two' < two) :
    less (one', two', three') (one, two, three) := by
  rw [same]
  exact Prod.Lex.right _ (Prod.Lex.left _ _ smaller)

theorem less_of_finish (same : one' = one) (equal : two' = two) (smaller : three' < three) :
    less (one', two', three') (one, two, three) := by
  rw [same, equal]
  exact Prod.Lex.right _ (Prod.Lex.right _ smaller)

variable {s : State κ} {id : Nat} {request : Request κ} {connectors : List κ}

theorem total_put (there : s.requests[id]? = some request) (weight : Request κ → Nat)
    (after : Request κ) :
    total weight (s.put id after) + weight request = total weight s + weight after :=
  sum_set weight there

variable {after waiter : Request κ} {iter other : Nat}

section

variable (there : s.requests[id]? = some request)

include there

theorem put_closes (was : request.isOpen = true) (now : after.isOpen = false) :
    less (s.put id after).measure s.measure := by
  apply less_of_open
  have sums := total_put there (fun request => if request.isOpen then 1 else 0) after
  simp only [was, now, if_true, Bool.false_eq_true, if_false] at sums
  omega

theorem put_tries (same : after.isOpen = request.isOpen)
    (smaller : after.stepsToTry < request.stepsToTry) :
    less (s.put id after).measure s.measure := by
  apply less_of_try
  · have sums := total_put there (fun request => if request.isOpen then 1 else 0) after
    simp only [same] at sums
    omega
  · have sums := total_put there Request.stepsToTry after
    omega

theorem put_finishes (same : after.isOpen = request.isOpen)
    (equal : after.stepsToTry = request.stepsToTry)
    (smaller : after.stepsToFinish < request.stepsToFinish) :
    less (s.put id after).measure s.measure := by
  apply less_of_finish
  · have sums := total_put there (fun request => if request.isOpen then 1 else 0) after
    simp only [same] at sums
    omega
  · have sums := total_put there Request.stepsToTry after
    omega
  · have sums := total_put there Request.stepsToFinish after
    omega

end

theorem answer_closed (request : Request κ) (outcome : Outcome κ) :
    (request.answer outcome).isOpen = false := by
  unfold Request.answer
  by_cases callback : request.callback = true <;> simp [Request.isOpen, callback]

theorem notify_open (request : Request κ) : request.notify.isOpen = request.isOpen := by
  unfold Request.notify
  cases stage : request.stage with
  | waiting notified =>
      by_cases callback : request.callback = true <;> simp [Request.isOpen, stage, callback]
  | _ => simp

/-- The end of an establishment answers at least the request that was responsible for it. -/
theorem change_closes (there : s.requests[id]? = some request) (was : request.isOpen = true)
    {change : Nat → Request κ → Request κ} (owner : (change id request).isOpen = false)
    (closes : ∀ (other : Nat) (found : Request κ), s.requests[other]? = some found →
      (change other found).isOpen = true → found.isOpen = true)
    (pending : κ → Option (Finset Nat)) :
    less { s with pending := pending, requests := s.requests.mapIdx change }.measure
      s.measure := by
  apply less_of_open
  apply sum_map_idx_lt (fun request : Request κ => if request.isOpen then 1 else 0) _ there
  · simp [was, owner]
  · intro other found here
    by_cases still : (change other found).isOpen = true
    · simp [still, closes other found here still]
    · simp [still]

theorem waiter_open (invariant : Invariant s) (listed : id ∈ s.waiters connectors)
    (there : s.requests[id]? = some request) : request.isOpen = true := by
  obtain ⟨notified, waiting, _⟩ := waiter_is_waiting invariant listed there
  simp [Request.isOpen, waiting]

section

variable (there : s.requests[id]? = some request)

include there

theorem unresolved_settles {left : Nat} (stage : request.stage = .resolving (left + 1))
    (ex : LocalException) : less (s.put id (request.unresolved ex left)).measure s.measure := by
  unfold Request.unresolved
  split
  · apply put_tries there
    · simp [Request.isOpen, stage]
    · simp [Request.stepsToTry, stage]
  · split
    · apply put_tries there
      · simp [Request.isOpen, stage]
      · simp [Request.stepsToTry, stage]
    · apply put_closes there
      · simp [Request.isOpen, stage]
      · exact answer_closed request _

theorem addConnectors_settles {left : Nat} (stage : request.stage = .resolving (left + 1))
    (connectors : List κ) :
    less (s.put id (request.addConnectors connectors left)).measure s.measure := by
  unfold Request.addConnectors
  by_cases last : left = 0
  · apply put_tries there
    · simp [Request.isOpen, stage, last]
    · simp [Request.stepsToTry, stage, last]
  · apply put_tries there
    · simp [Request.isOpen, stage, last]
    · simp [Request.stepsToTry, stage, last]

theorem asked_settles (asking : request.stage = .asking) (opened : after.isOpen = true)
    (tries : after.stepsToTry = 0) : less (s.put id after).measure s.measure := by
  apply put_tries there
  · rw [opened, Request.isOpen, asking]
  · rw [tries, Request.stepsToTry, asking]
    exact Nat.one_pos

end

section

variable (invariant : Invariant s)

include invariant

theorem finish_settles (there : s.requests[id]? = some request)
    (establishing : request.stage = .establishing iter) (outcome : Outcome κ)
    (served : Request κ → Request κ) (pending : κ → Option (Finset Nat)) :
    less { s with
      pending := pending
      requests := s.requests.mapIdx fun other (found : Request κ) =>
        if other = id then found.answer outcome
        else if other ∈ s.waiters request.connectors then served found
        else found.notify }.measure s.measure := by
  apply change_closes there
  · simp [Request.isOpen, establishing]
  · simp only [if_true]
    exact answer_closed request outcome
  · intro other found here still
    by_cases mine : other = id
    · rw [if_pos mine, answer_closed] at still
      cases still
    · rw [if_neg mine] at still
      by_cases listed : other ∈ s.waiters request.connectors
      · exact waiter_open invariant listed here
      · rw [if_neg listed, notify_open] at still
        exact still

theorem exhausted_listed (here : s.requests[other]? = some waiter)
    (callback : waiter.callback = true) (waits : waiter.waits = true)
    (only : ∀ connector ∈ waiter.connectors, connector ∈ connectors) :
    other ∈ s.waiters connectors := by
  obtain ⟨connector, inside, set, pending, listed⟩ :=
    invariant.queues.waiting other waiter here waits
  exact mem_waiters.mpr ⟨connector, only connector inside, set, pending, listed callback⟩

theorem waiter_apart (there : s.requests[id]? = some request)
    (establishing : request.stage = .establishing iter) (listed : other ∈ s.waiters connectors) :
    other ≠ id := by
  intro same
  subst same
  obtain ⟨notified, waiting, _⟩ := waiter_is_waiting invariant listed there
  rw [establishing] at waiting
  cases waiting

theorem thread_unlisted (here : s.requests[other]? = some waiter) (thread : waiter.callback = false) :
    other ∉ s.waiters connectors := by
  intro listed
  obtain ⟨_, _, callback, _⟩ := waiter_is_waiting invariant listed here
  rw [thread] at callback
  cases callback

end

theorem waits_apart (there : s.requests[id]? = some request)
    (establishing : request.stage = .establishing iter) (here : s.requests[other]? = some waiter)
    (waits : waiter.waits = true) : other ≠ id := by
  intro same
  subst same
  cases here.symm.trans there
  rw [Request.waits, establishing] at waits
  cases waits

theorem notify_thread (thread : waiter.callback = false) (waits : waiter.waits = true) :
    waiter.notify = { waiter with stage := .waiting true } := by
  unfold Request.waits at waits
  cases stage : waiter.stage with
  | waiting notified => simp [Request.notify, stage, thread]
  | _ => simp [stage] at waits

theorem notify_of_callback (callback : request.callback = true) : request.notify = request := by
  unfold Request.notify
  split
  · rw [if_pos callback]
  · rfl

theorem start_invariant : Invariant (start : State κ) := by
  refine ⟨⟨?_, ?_, ?_, ?_⟩, ⟨?_, ?_, ?_, ?_⟩⟩
  · intro connector
    simp [start]
  · intro first second one other connector here
    simp [start] at here
  · intro connector set id pending
    cases pending
  · intro id request here
    simp [start] at here
  · intro id request here
    simp [start] at here
  · intro id
    simp [start, countOf]
  · intro id
    simp [start, countOf]
  · simp [start]

/-- What is true at every moment. -/
structure Sound (s : State κ) : Prop where
  /-- The keys of the pending lists are the connectors of the requests that establish. -/
  keys : ∀ connector, (s.pending connector).isSome ↔ ∃ (id : Nat) (request : Request κ),
    s.requests[id]? = some request ∧ request.isEstablishing = true ∧
      connector ∈ request.connectors
  /-- No two of them share a connector. -/
  disjoint : ∀ (first second : Nat) (one other : Request κ) connector,
    s.requests[first]? = some one → s.requests[second]? = some other →
    one.isEstablishing = true → other.isEstablishing = true →
    connector ∈ one.connectors → connector ∈ other.connectors → first = second
  /-- A callback is told its outcome once, when it is answered, and a thread never. -/
  told : ∀ (id : Nat) (request : Request κ), s.requests[id]? = some request →
    s.told.count id = request.timesTold
  decremented : ∀ (id : Nat) (request : Request κ), s.requests[id]? = some request →
    s.decremented.count id = request.timesDecremented
  counted : s.pendingConnectCount = s.requests.countP Request.isPending
  empty : (∀ (id : Nat) (request : Request κ), s.requests[id]? = some request →
    request.isEstablishing = false) → ∀ connector, s.pending connector = none

theorem Invariant.sound (invariant : Invariant s) : Sound s where
  keys := invariant.queues.keys
  disjoint := invariant.queues.disjoint
  told := by
    intro id request there
    rw [invariant.ledger.told id, countOf, there]
  decremented := by
    intro id request there
    rw [invariant.ledger.decremented id, countOf, there]
  counted := invariant.ledger.counted
  empty := by
    intro none connector
    by_contra present
    obtain ⟨id, request, there, establishing, _⟩ :=
      (invariant.queues.keys connector).mp (Option.isSome_iff_ne_none.mpr present)
    rw [none id request there] at establishing
    cases establishing

variable [DecidableEq κ]

theorem getConnection_settles {after : State κ} (there : s.requests[id]? = some request)
    (asking : request.stage = .asking) {found : Option κ}
    (got : s.getConnection id request found = some after) : less after.measure s.measure := by
  have opened : request.isOpen = true := by simp [Request.isOpen, asking]
  unfold State.getConnection at got
  split at got
  · cases got
    exact put_closes there opened (answer_closed request _)
  · cases found with
    | some connector =>
        simp only at got
        split at got
        · cases got
          exact put_closes there opened (answer_closed request _)
        · cases got
    | none =>
        cases got
        unfold State.addToPending
        split
        · exact asked_settles there asking rfl rfl
        · exact asked_settles there asking rfl rfl

theorem step_settles {event : Event κ} {after : State κ} (invariant : Invariant s)
    (settles : event.settles = true) (stepped : step event s = some after) :
    less after.measure s.measure := by
  cases event with
  | getConnectors endpoints => cases settles
  | create connectors => cases settles
  | destroy => cases settles
  | connectors id connectors =>
      simp only [step, Option.bind_eq_bind, Option.bind_eq_some_iff] at stepped
      obtain ⟨request, there, stepped⟩ := stepped
      split at stepped
      · next stage =>
          split at stepped
          · cases stepped
            exact addConnectors_settles there stage connectors
          · cases stepped
      · cases stepped
  | unresolved id ex =>
      simp only [step, Option.bind_eq_bind, Option.bind_eq_some_iff] at stepped
      obtain ⟨request, there, stepped⟩ := stepped
      split at stepped
      · next stage =>
          cases stepped
          exact unresolved_settles there stage ex
      · cases stepped
  | getConnection id found =>
      simp only [step, Option.bind_eq_bind, Option.bind_eq_some_iff] at stepped
      obtain ⟨request, there, stepped⟩ := stepped
      split at stepped
      · next asking => exact getConnection_settles there asking stepped
      · cases stepped
  | wake id =>
      simp only [step, Option.bind_eq_bind, Option.bind_eq_some_iff] at stepped
      obtain ⟨request, there, stepped⟩ := stepped
      split at stepped
      · next woken =>
          cases stepped
          apply put_tries there
          · simp [Request.isOpen, woken.2]
          · simp [Request.stepsToTry, woken.2]
      · cases stepped
  | connected id =>
      simp only [step, Option.bind_eq_bind, Option.bind_eq_some_iff] at stepped
      obtain ⟨request, there, stepped⟩ := stepped
      split at stepped
      · next establishing =>
          obtain ⟨connector, _, finished⟩ := Option.bind_eq_some_iff.mp stepped
          cases finished
          exact finish_settles invariant there establishing _ _ _
      · cases stepped
  | failed id ex =>
      simp only [step, Option.bind_eq_bind, Option.bind_eq_some_iff] at stepped
      obtain ⟨request, there, stepped⟩ := stepped
      split at stepped
      · next iter establishing =>
          split at stepped
          · next more =>
              cases stepped
              apply put_finishes there
              · simp [Request.isOpen, establishing]
              · simp [Request.stepsToTry, establishing]
              · have left := more.2
                simp only [Request.stepsToFinish, establishing]
                omega
          · cases stepped
            exact finish_settles invariant there establishing _ _ _
      · cases stepped
  | tell id =>
      simp only [step, Option.bind_eq_bind, Option.bind_eq_some_iff] at stepped
      obtain ⟨request, there, stepped⟩ := stepped
      split at stepped
      · next outcome answered =>
          cases stepped
          have lighter : less (s.put id { request with stage := .told outcome }).measure
              s.measure := by
            apply put_finishes there
            · simp [Request.isOpen, answered]
            · simp [Request.stepsToTry, answered]
            · simp [Request.stepsToFinish, answered]
          exact lighter
      · cases stepped
  | decPendingConnectCount id =>
      simp only [step, Option.bind_eq_bind, Option.bind_eq_some_iff] at stepped
      obtain ⟨request, there, stepped⟩ := stepped
      split at stepped
      · next outcome told =>
          cases stepped
          have lighter : less (s.put id { request with stage := .finished outcome }).measure
              s.measure := by
            apply put_finishes there
            · simp [Request.isOpen, told]
            · simp [Request.stepsToTry, told]
            · simp [Request.stepsToFinish, told]
          exact lighter
      · cases stepped

theorem failed_possible (there : s.requests[id]? = some request)
    (establishing : request.stage = .establishing iter) (ex : LocalException) :
    step (.failed id ex) s ≠ none := by
  simp only [step, there, establishing, Option.bind_eq_bind, Option.bind_some]
  split <;> simp

section

variable (invariant : Invariant s)

include invariant

theorem open_request_moves (there : s.requests[id]? = some request)
    (unfinished : ∀ outcome, request.stage ≠ .finished outcome) :
    ∃ event, event.settles = true ∧ step event s ≠ none := by
  cases stage : request.stage with
  | resolving endpoints =>
      have shaped := invariant.ledger.shaped id request there
      simp only [Request.Shaped, stage] at shaped
      obtain ⟨left, rfl⟩ : ∃ left, endpoints = left + 1 :=
        ⟨endpoints - 1, (Nat.succ_pred_eq_of_pos shaped.2.2).symm⟩
      refine ⟨.unresolved id .communicatorDestroyed, rfl, ?_⟩
      simp [step, there, stage]
  | asking =>
      refine ⟨.getConnection id none, rfl, ?_⟩
      simp only [step, there, stage, Option.bind_eq_bind, Option.bind_some, if_true,
        State.getConnection]
      split <;> simp
  | waiting notified =>
      by_cases waits : request.waits = true
      · obtain ⟨connector, _, set, pending, _⟩ := invariant.queues.waiting id request there waits
        obtain ⟨owner, responsible, here, establishing, _⟩ :=
          (invariant.queues.keys connector).mp (Option.isSome_iff_exists.mpr ⟨set, pending⟩)
        unfold Request.isEstablishing at establishing
        cases other : responsible.stage with
        | establishing iter =>
            exact ⟨.failed owner .communicatorDestroyed, rfl, failed_possible here other _⟩
        | _ => simp [other] at establishing
      · have woken : request.callback = false ∧ notified = true := by
          simpa [Request.waits, stage] using waits
        refine ⟨.wake id, rfl, ?_⟩
        simp [step, there, stage, woken]
  | establishing iter =>
      exact ⟨.failed id .communicatorDestroyed, rfl, failed_possible there stage _⟩
  | answered outcome =>
      refine ⟨.tell id, rfl, ?_⟩
      simp [step, there, stage]
  | told outcome =>
      refine ⟨.decPendingConnectCount id, rfl, ?_⟩
      simp [step, there, stage]
  | finished outcome => exact absurd stage (unfinished outcome)

/-- The request `id` has failed to connect to its connectors. -/
structure FailureServed (s after : State κ) (id : Nat) (request : Request κ)
    (ex : LocalException) : Prop where
  owner : after.requests[id]? = some (request.answer (.exception ex))
  /-- A callback that waits for these connectors only gets the exception. -/
  exhausted : ∀ (other : Nat) (waiter : Request κ), s.requests[other]? = some waiter →
    waiter.callback = true → waiter.waits = true →
    (∀ connector ∈ waiter.connectors, connector ∈ request.connectors) →
    after.requests[other]? =
      some { waiter with connectors := [], stage := .answered (.exception ex) }
  /-- One that is listed for them and has others left tries these. -/
  remaining : ∀ (other : Nat) (waiter : Request κ), s.requests[other]? = some waiter →
    other ∈ s.waiters request.connectors →
    (∃ connector ∈ waiter.connectors, connector ∉ request.connectors) →
    after.requests[other]? = some { waiter with
      connectors := waiter.remaining request.connectors, stage := .asking }
  /-- A thread that waits is notified, whatever it waits for. -/
  thread : ∀ (other : Nat) (waiter : Request κ), s.requests[other]? = some waiter →
    waiter.callback = false → waiter.waits = true →
    after.requests[other]? = some { waiter with stage := .waiting true }
  untouched : ∀ (other : Nat) (found : Request κ), s.requests[other]? = some found →
    other ≠ id → found.callback = true → other ∉ s.waiters request.connectors →
    after.requests[other]? = some found
  unlisted : ∀ connector set (other : Nat), after.pending connector = some set → other ∈ set →
    other ∉ s.waiters request.connectors

/-- The request `id` is connected to `connector`. -/
structure SuccessServed (s after : State κ) (id : Nat) (request : Request κ)
    (connector : κ) : Prop where
  owner : after.requests[id]? = some (request.answer (.connection connector))
  served : ∀ (other : Nat) (waiter : Request κ), s.requests[other]? = some waiter →
    other ∈ s.waiters request.connectors → connector ∈ waiter.connectors →
    after.requests[other]? = some { waiter with stage := .answered (.connection connector) }
  /-- One that is listed for another connector of the request tries again. -/
  others : ∀ (other : Nat) (waiter : Request κ), s.requests[other]? = some waiter →
    other ∈ s.waiters request.connectors → connector ∉ waiter.connectors →
    after.requests[other]? = some { waiter with stage := .asking }
  thread : ∀ (other : Nat) (waiter : Request κ), s.requests[other]? = some waiter →
    waiter.callback = false → waiter.waits = true →
    after.requests[other]? = some { waiter with stage := .waiting true }
  untouched : ∀ (other : Nat) (found : Request κ), s.requests[other]? = some found →
    other ≠ id → found.callback = true → other ∉ s.waiters request.connectors →
    after.requests[other]? = some found
  unlisted : ∀ connector set (other : Nat), after.pending connector = some set → other ∈ set →
    other ∉ s.waiters request.connectors

theorem release_unlists {connector : κ} {set : Finset Nat}
    (pending : s.releasePending connectors (s.waiters connectors) s.connectorsOf connector =
      some set) (inside : other ∈ set) : other ∉ s.waiters connectors := by
  intro listed
  obtain ⟨_, before, was, members⟩ := release_pending_some pending
  obtain ⟨member, kept⟩ := (members other).mp inside
  obtain ⟨waiter, here, _, _, has⟩ := invariant.queues.listed connector before other was member
  apply kept
  refine ⟨listed, ?_⟩
  rw [State.connectorsOf, here]
  exact has

theorem failure_served (there : s.requests[id]? = some request)
    (establishing : request.stage = .establishing iter) (ex : LocalException) :
    FailureServed s (s.finishFailed id request.connectors ex) id request ex := by
  have found : ∀ (other : Nat) (waiter : Request κ), s.requests[other]? = some waiter →
      (s.finishFailed id request.connectors ex).requests[other]? =
        some (if other = id then waiter.answer (.exception ex)
          else if other ∈ s.waiters request.connectors then waiter.failed request.connectors ex
          else waiter.notify) := by
    intro other waiter here
    simp [State.finishFailed, List.getElem?_mapIdx, here]
  constructor
  · rw [found id request there, if_pos rfl]
  · intro other waiter here callback waits only
    have listed := exhausted_listed invariant here callback waits only
    have none : waiter.remaining request.connectors = [] := by
      apply List.filter_eq_nil_iff.mpr
      intro connector inside
      simpa using only connector inside
    rw [found other waiter here, if_neg (waiter_apart invariant there establishing listed),
      if_pos listed, Request.failed, if_pos none, none]
  · rintro other waiter here listed ⟨connector, inside, left⟩
    have some : waiter.remaining request.connectors ≠ [] := by
      apply List.ne_nil_of_mem
      exact List.mem_filter.mpr ⟨inside, by simpa using left⟩
    rw [found other waiter here, if_neg (waiter_apart invariant there establishing listed),
      if_pos listed, Request.failed, if_neg some]
  · intro other waiter here thread waits
    rw [found other waiter here, if_neg (waits_apart there establishing here waits),
      if_neg (thread_unlisted invariant here thread), notify_thread thread waits]
  · intro other waiter here apart callback unlisted
    rw [found other waiter here, if_neg apart, if_neg unlisted, notify_of_callback callback]
  · intro connector set other pending inside
    exact release_unlists invariant pending inside

theorem success_served (there : s.requests[id]? = some request)
    (establishing : request.stage = .establishing iter) (connector : κ) :
    SuccessServed s (s.finishConnected id request.connectors connector) id request connector := by
  have found : ∀ (other : Nat) (waiter : Request κ), s.requests[other]? = some waiter →
      (s.finishConnected id request.connectors connector).requests[other]? =
        some (if other = id then waiter.answer (.connection connector)
          else if other ∈ s.waiters request.connectors then waiter.connected connector
          else waiter.notify) := by
    intro other waiter here
    simp [State.finishConnected, List.getElem?_mapIdx, here]
  constructor
  · rw [found id request there, if_pos rfl]
  · intro other waiter here listed has
    rw [found other waiter here, if_neg (waiter_apart invariant there establishing listed),
      if_pos listed, Request.connected, if_pos has]
  · intro other waiter here listed lacks
    rw [found other waiter here, if_neg (waiter_apart invariant there establishing listed),
      if_pos listed, Request.connected, if_neg lacks]
  · intro other waiter here thread waits
    rw [found other waiter here, if_neg (waits_apart there establishing here waits),
      if_neg (thread_unlisted invariant here thread), notify_thread thread waits]
  · intro other waiter here apart callback unlisted
    rw [found other waiter here, if_neg apart, if_neg unlisted, notify_of_callback callback]
  · intro connector set other pending inside
    exact release_unlists invariant pending inside

end

theorem reach_invariant (reached : Reach step (fun _ _ => True) start s) : Invariant s :=
  reached.invariant start_invariant fun _ _ _ holds _ stepped => step_keeps holds stepped

/-- A step from `before` to `after` that settles something. -/
def Settles (after before : State κ) : Prop :=
  ∃ event : Event κ, event.settles = true ∧ step event before = some after

theorem settles_acc (invariant : Invariant s) : Acc Settles s := by
  generalize measured : s.measure = measure
  induction measure using less_wf.induction generalizing s with
  | _ measure ih =>
      constructor
      rintro after ⟨event, settles, stepped⟩
      have lighter := step_settles invariant settles stepped
      rw [measured] at lighter
      exact ih after.measure lighter (step_keeps invariant stepped) rfl

theorem stuck_finished (invariant : Invariant s)
    (stuck : ∀ event : Event κ, event.settles = true → step event s = none)
    (there : s.requests[id]? = some request) : ∃ outcome, request.stage = .finished outcome := by
  by_contra unfinished
  obtain ⟨event, settles, moves⟩ :=
    open_request_moves invariant there fun outcome finished => unfinished ⟨outcome, finished⟩
  exact moves (stuck event settles)

structure Ended (s : State κ) : Prop where
  told : ∀ (id : Nat) (request : Request κ), s.requests[id]? = some request →
    s.told.count id = if request.callback then 1 else 0
  decremented : ∀ (id : Nat) (request : Request κ), s.requests[id]? = some request →
    s.decremented.count id = if request.counted then 1 else 0
  counted : s.pendingConnectCount = 0
  empty : ∀ connector, s.pending connector = none

theorem stuck_ended (invariant : Invariant s)
    (stuck : ∀ event : Event κ, event.settles = true → step event s = none) : Ended s := by
  have sound := invariant.sound
  constructor
  · intro id request there
    obtain ⟨outcome, finished⟩ := stuck_finished invariant stuck there
    rw [sound.told id request there, Request.timesTold, finished]
  · intro id request there
    obtain ⟨outcome, finished⟩ := stuck_finished invariant stuck there
    rw [sound.decremented id request there, Request.timesDecremented, finished]
  · have none : s.requests.countP Request.isPending = 0 := by
      apply List.countP_eq_zero.mpr
      intro request inside
      obtain ⟨id, there⟩ := List.mem_iff_getElem?.mp inside
      obtain ⟨outcome, finished⟩ := stuck_finished invariant stuck there
      simp [Request.isPending, finished]
    rw [sound.counted, none]
    rfl
  · apply sound.empty
    intro id request there
    obtain ⟨outcome, finished⟩ := stuck_finished invariant stuck there
    rw [Request.isEstablishing, finished]

structure Protocol (s : State κ) : Prop where
  sound : Sound s
  /-- The last attempt fails, or the communicator is destroyed meanwhile. -/
  failure : ∀ (id : Nat) (request : Request κ) iter ex after, s.requests[id]? = some request →
    request.stage = .establishing iter →
    ex = .communicatorDestroyed ∨ request.connectors.length ≤ iter + 1 →
    step (.failed id ex) s = some after → FailureServed s after id request ex
  success : ∀ (id : Nat) (request : Request κ) iter after, s.requests[id]? = some request →
    request.stage = .establishing iter → step (.connected id) s = some after →
    ∃ connector, request.connectors[iter]? = some connector ∧
      SuccessServed s after id request connector
  /-- Without new requests the steps come to an end, and then every request has. -/
  settles : Acc Settles s
  ended : (∀ event : Event κ, event.settles = true → step event s = none) → Ended s

theorem establishment_protocol {s : State κ}
    (reached : Reach step (fun _ _ => True) start s) : Protocol s := by
  have invariant := reach_invariant reached
  refine ⟨invariant.sound, ?_, ?_, settles_acc invariant, stuck_ended invariant⟩
  · intro id request iter ex after there establishing last stepped
    have ended : ¬(ex ≠ .communicatorDestroyed ∧ iter + 1 < request.connectors.length) := by
      rintro ⟨other, more⟩
      obtain destroyed | short := last
      · exact other destroyed
      · omega
    simp only [step, there, establishing, Option.bind_eq_bind, Option.bind_some,
      if_neg ended, Option.some.injEq] at stepped
    rw [← stepped]
    exact failure_served invariant there establishing ex
  · intro id request iter after there establishing stepped
    simp only [step, there, establishing, Option.bind_eq_bind, Option.bind_some,
      Option.bind_eq_some_iff, Option.some.injEq] at stepped
    obtain ⟨connector, current, rfl⟩ := stepped
    exact ⟨connector, current, success_served invariant there establishing connector⟩

/-- A thread and two callbacks share the connectors `1` and `2`, which fail, and the last
callback is connected to `3`. -/
def sharedFailure : List (Event Nat) :=
  [.create [1, 2], .getConnection 0 none, .getConnectors 1, .connectors 1 [1],
    .getConnection 1 none, .getConnectors 2, .connectors 2 [2], .connectors 2 [3],
    .getConnection 2 none, .failed 0 .connectTimeout, .failed 0 .connectTimeout, .tell 1,
    .getConnection 2 none, .connected 2, .decPendingConnectCount 1, .tell 2,
    .decPendingConnectCount 2]

def served : State Nat :=
  (runAll step sharedFailure start).getD start

theorem establishment_protocol_shared :
    served.told = [1, 2] ∧ served.decremented = [1, 2] ∧
      served.requests.map Request.stage =
        [.finished (.exception .connectTimeout), .finished (.exception .connectTimeout),
          .finished (.connection 3)] ∧ Protocol served := by
  have ran : runAll step sharedFailure start = some served := rfl
  exact ⟨rfl, rfl, rfl, establishment_protocol (reach_of_run ran fun _ _ _ => trivial)⟩

/-- A thread waits for the only connector of another, which fails. A callback comes too late. -/
def threadsAndRefusal : List (Event Nat) :=
  [.create [1], .getConnection 0 none, .create [1], .getConnection 1 none,
    .failed 0 .connectTimeout, .wake 1, .getConnection 1 none, .destroy, .getConnectors 1]

def refused : State Nat :=
  (runAll step threadsAndRefusal start).getD start

/-- The thread gets no exception but is responsible for the next attempt, and a callback is
told its exception without a call of `decPendingConnectCount`. -/
theorem thread_tries_again_and_refusal_not_counted :
    Reach step (fun _ _ => True) start refused ∧
      refused.requests =
        [⟨false, false, [1], .finished (.exception .connectTimeout)⟩,
          ⟨false, false, [1], .establishing 0⟩,
          ⟨true, false, [], .finished (.exception .communicatorDestroyed)⟩] ∧
      refused.told = [2] ∧ refused.decremented = [] := by
  have ran : runAll step threadsAndRefusal start = some refused := rfl
  exact ⟨reach_of_run ran fun _ _ _ => trivial, rfl, rfl, rfl⟩

end IceTouch.Connecting.Establishing

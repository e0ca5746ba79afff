import IceTouch.Connecting.OutgoingConnectionFactory

/-!
# The keys of the pending map

At any time the connectors with a pending list are those of the requests that establish a
connection, and what waits is in one of the lists or has been notified. From this follow who
is told what, and how often.
-/

namespace IceTouch.Connecting.Establishing

open Connection Machine IceTouch.Lists

variable {κ : Type}

def Request.isEstablishing (request : Request κ) : Bool :=
  match request.stage with
  | .establishing _ => true
  | _ => false

/-- A callback in a pending list, or a thread on the monitor that has not been notified. -/
def Request.waits (request : Request κ) : Bool :=
  match request.stage with
  | .waiting notified => request.callback || !notified
  | _ => false

/-- How often `setConnection` or `setException` has been called. -/
def Request.timesTold (request : Request κ) : Nat :=
  match request.stage with
  | .told _ | .finished _ => if request.callback then 1 else 0
  | _ => 0

def Request.timesDecremented (request : Request κ) : Nat :=
  match request.stage with
  | .finished _ => if request.counted then 1 else 0
  | _ => 0

/-- It has been counted in `_pendingConnectCount`, and is still. -/
def Request.isPending (request : Request κ) : Bool :=
  match request.stage with
  | .finished _ => false
  | _ => request.counted

/-- The number `count` says of the request with number `id`, if there is one. -/
def countOf (count : Request κ → Nat) (requests : List (Request κ)) (id : Nat) : Nat :=
  match requests[id]? with
  | some request => count request
  | none => 0

/-- What is known of a request at each stage. A request that is not counted is a thread, or a
callback that was refused at once. -/
def Request.Shaped (request : Request κ) : Prop :=
  match request.stage with
  | .resolving endpoints => request.callback = true ∧ request.counted = true ∧ 0 < endpoints
  | .asking | .waiting _ => request.counted = request.callback ∧ request.connectors ≠ []
  | .establishing iter =>
      request.counted = request.callback ∧ iter < request.connectors.length
  | .answered _ | .told _ => request.callback = true ∧ request.counted = true
  | .finished _ => request.counted = true → request.callback = true

structure Queues (s : State κ) : Prop where
  keys : ∀ connector, (s.pending connector).isSome ↔ ∃ (id : Nat) (request : Request κ),
    s.requests[id]? = some request ∧ request.isEstablishing = true ∧
      connector ∈ request.connectors
  disjoint : ∀ (first second : Nat) (one other : Request κ) connector,
    s.requests[first]? = some one → s.requests[second]? = some other →
    one.isEstablishing = true → other.isEstablishing = true →
    connector ∈ one.connectors → connector ∈ other.connectors → first = second
  listed : ∀ connector set (id : Nat), s.pending connector = some set → id ∈ set →
    ∃ request : Request κ, s.requests[id]? = some request ∧ request.callback = true ∧
      request.waits = true ∧ connector ∈ request.connectors
  waiting : ∀ (id : Nat) (request : Request κ), s.requests[id]? = some request →
    request.waits = true → ∃ connector ∈ request.connectors, ∃ set,
      s.pending connector = some set ∧ (request.callback = true → id ∈ set)

structure Ledger (s : State κ) : Prop where
  shaped : ∀ (id : Nat) (request : Request κ), s.requests[id]? = some request → request.Shaped
  told : ∀ id, s.told.count id = countOf Request.timesTold s.requests id
  decremented : ∀ id, s.decremented.count id = countOf Request.timesDecremented s.requests id
  counted : s.pendingConnectCount = s.requests.countP Request.isPending

variable {count : Request κ → Nat} {requests : List (Request κ)} {id : Nat}
  {request after : Request κ} {s : State κ} {connectors : List κ} {connector : κ}

theorem count_of_set (there : requests[id]? = some request) (after : Request κ) (other : Nat) :
    countOf count (requests.set id after) other =
      if other = id then count after else countOf count requests other := by
  unfold countOf
  by_cases same : other = id
  · subst same
    rw [if_pos rfl, List.getElem?_set_self (List.getElem?_eq_some_iff.mp there).1]
  · rw [if_neg same, List.getElem?_set_ne (Ne.symm same)]

theorem count_moved (there : requests[id]? = some request) {log moved : List Nat}
    (before : ∀ other, log.count other = countOf count requests other)
    (balance : ∀ other, moved.count other + (if other = id then count request else 0) =
      log.count other + if other = id then count after else 0) (other : Nat) :
    moved.count other = countOf count (requests.set id after) other := by
  rw [count_of_set there]
  have balance := balance other
  have before := before other
  by_cases same : other = id
  · subst same
    have here : countOf count requests other = count request := by rw [countOf, there]
    rw [if_pos rfl, if_pos rfl] at balance
    rw [if_pos rfl]
    omega
  · rw [if_neg same, if_neg same] at balance
    rw [if_neg same]
    omega

theorem count_of_append (requests : List (Request κ)) (request : Request κ) (other : Nat) :
    countOf count (requests ++ [request]) other =
      if other = requests.length then count request else countOf count requests other := by
  unfold countOf
  by_cases same : other = requests.length
  · subst same
    simp
  · rw [if_neg same]
    by_cases inside : other < requests.length
    · rw [List.getElem?_append_left inside]
    · have beyond : requests.length + 1 ≤ other := by omega
      rw [List.getElem?_eq_none (by simpa using beyond),
        List.getElem?_eq_none (Nat.le_of_not_lt inside)]

theorem count_of_map_idx {change : Nat → Request κ → Request κ}
    (kept : ∀ (id : Nat) (request : Request κ), requests[id]? = some request →
      count (change id request) = count request) (other : Nat) :
    countOf count (requests.mapIdx change) other = countOf count requests other := by
  unfold countOf
  rw [List.getElem?_mapIdx]
  cases there : requests[other]? with
  | none => rfl
  | some request => exact kept other request there

theorem count_pending_map_idx {change : Nat → Request κ → Request κ}
    (kept : ∀ (id : Nat) (request : Request κ), requests[id]? = some request →
      (change id request).isPending = request.isPending) :
    (requests.mapIdx change).countP Request.isPending =
      requests.countP Request.isPending := by
  have same : (requests.mapIdx change).map Request.isPending =
      requests.map Request.isPending := by
    apply List.ext_getElem?
    intro id
    rw [List.getElem?_map, List.getElem?_map, List.getElem?_mapIdx]
    cases there : requests[id]? with
    | none => rfl
    | some request => exact congrArg some (kept id request there)
  have counts := congrArg (List.countP fun pending => pending) same
  rwa [List.countP_map, List.countP_map] at counts

variable {pendingConnectCount : Int}

theorem Ledger.put (ledger : Ledger s) (there : s.requests[id]? = some request)
    (shaped : after.Shaped) {told decremented : List Nat}
    (tells : ∀ other, told.count other + (if other = id then request.timesTold else 0) =
      s.told.count other + if other = id then after.timesTold else 0)
    (decrements : ∀ other,
      decremented.count other + (if other = id then request.timesDecremented else 0) =
        s.decremented.count other + if other = id then after.timesDecremented else 0)
    (counts : pendingConnectCount + (if request.isPending then 1 else 0) =
      s.pendingConnectCount + if after.isPending then 1 else 0) :
    Ledger { s.put id after with
      pendingConnectCount := pendingConnectCount, told := told, decremented := decremented } where
  shaped := by
    intro other found looked
    obtain ⟨rfl, rfl⟩ | ⟨_, here⟩ := get_set looked
    · exact shaped
    · exact ledger.shaped other found here
  told := count_moved there ledger.told tells
  decremented := count_moved there ledger.decremented decrements
  counted := by
    have before := ledger.counted
    have inside := (List.getElem?_eq_some_iff.mp there).1
    have here : s.requests[id] = request := (List.getElem?_eq_some_iff.mp there).2
    change pendingConnectCount = ((s.requests.set id after).countP Request.isPending : Int)
    have listed : (if request.isPending then 1 else 0) ≤
        s.requests.countP Request.isPending := by
      split
      · next isPending =>
          exact List.countP_pos_iff.mpr ⟨request, List.mem_of_getElem? there, isPending⟩
      · exact Nat.zero_le _
    rw [List.countP_set inside, here]
    rw [before] at counts
    generalize s.requests.countP Request.isPending = total at counts listed ⊢
    by_cases was : request.isPending = true <;> by_cases now : after.isPending = true <;>
      simp only [was, now, if_true, if_false, Bool.false_eq_true] at counts listed ⊢ <;> omega

theorem Ledger.move (ledger : Ledger s) (there : s.requests[id]? = some request)
    (shaped : after.Shaped) (told : after.timesTold = request.timesTold)
    (decremented : after.timesDecremented = request.timesDecremented)
    (isPending : after.isPending = request.isPending) : Ledger (s.put id after) := by
  apply ledger.put there shaped
  · intro other
    rw [told]
  · intro other
    rw [decremented]
  · rw [isPending]

theorem Ledger.change (ledger : Ledger s) {change : Nat → Request κ → Request κ}
    (kept : ∀ (id : Nat) (request : Request κ), s.requests[id]? = some request →
      (change id request).Shaped ∧ (change id request).timesTold = request.timesTold ∧
        (change id request).timesDecremented = request.timesDecremented ∧
          (change id request).isPending = request.isPending) :
    Ledger { s with requests := s.requests.mapIdx change } where
  shaped := by
    intro id found looked
    obtain ⟨request, there, rfl⟩ := get_map_idx looked
    exact (kept id request there).1
  told := by
    intro id
    rw [ledger.told id]
    exact (count_of_map_idx (fun id request there => (kept id request there).2.1) id).symm
  decremented := by
    intro id
    rw [ledger.decremented id]
    exact (count_of_map_idx (fun id request there => (kept id request there).2.2.1) id).symm
  counted := by
    rw [ledger.counted]
    have same := count_pending_map_idx fun id request there => (kept id request there).2.2.2
    exact congrArg Nat.cast same.symm

theorem Ledger.append (ledger : Ledger s) (shaped : request.Shaped)
    (decrements : request.timesDecremented = 0) {told : List Nat}
    (tells : ∀ other, told.count other =
      s.told.count other + if other = s.requests.length then request.timesTold else 0)
    (counts : pendingConnectCount =
      s.pendingConnectCount + if request.isPending then 1 else 0) :
    Ledger { s with
      requests := s.requests ++ [request]
      told := told
      pendingConnectCount := pendingConnectCount } where
  shaped := by
    intro id found looked
    obtain ⟨_, here⟩ | ⟨_, rfl⟩ := get_append looked
    · exact ledger.shaped id found here
    · exact shaped
  told := by
    intro other
    have before := ledger.told other
    change told.count other = countOf Request.timesTold (s.requests ++ [request]) other
    rw [tells other, count_of_append, before]
    by_cases same : other = s.requests.length
    · subst same
      simp [countOf]
    · simp [same]
  decremented := by
    intro other
    have before := ledger.decremented other
    change s.decremented.count other = countOf Request.timesDecremented (s.requests ++ [request])
      other
    rw [count_of_append, before]
    by_cases same : other = s.requests.length
    · subst same
      simp [countOf, decrements]
    · simp [same]
  counted := by
    have before := ledger.counted
    change pendingConnectCount = ((s.requests ++ [request]).countP Request.isPending : Int)
    rw [counts, before, List.countP_append, List.countP_singleton]
    push_cast
    rfl

theorem Queues.put (queues : Queues s) (there : s.requests[id]? = some request)
    (callback : after.callback = request.callback)
    (establishing : after.isEstablishing = request.isEstablishing)
    (waits : after.waits = request.waits)
    (connectors : request.isEstablishing = true ∨ request.waits = true →
      after.connectors = request.connectors) : Queues (s.put id after) where
  keys := by
    intro connector
    refine (queues.keys connector).trans ⟨?_, ?_⟩
    · rintro ⟨other, found, here, isEstablishing, inside⟩
      by_cases same : other = id
      · subst same
        cases here.symm.trans there
        refine ⟨other, after, List.getElem?_set_self (List.getElem?_eq_some_iff.mp there).1, ?_⟩
        rw [establishing, connectors (.inl isEstablishing)]
        exact ⟨isEstablishing, inside⟩
      · exact ⟨other, found, (List.getElem?_set_ne (Ne.symm same)).trans here, isEstablishing,
          inside⟩
    · rintro ⟨other, found, looked, isEstablishing, inside⟩
      obtain ⟨rfl, rfl⟩ | ⟨_, here⟩ := get_set looked
      · rw [establishing] at isEstablishing
        rw [connectors (.inl isEstablishing)] at inside
        exact ⟨other, request, there, isEstablishing, inside⟩
      · exact ⟨other, found, here, isEstablishing, inside⟩
  disjoint := by
    have back : ∀ (other : Nat) (found : Request κ), (s.requests.set id after)[other]? = some found →
        found.isEstablishing = true → ∃ before, s.requests[other]? = some before ∧
          before.isEstablishing = true ∧ before.connectors = found.connectors := by
      intro other found looked isEstablishing
      obtain ⟨rfl, rfl⟩ | ⟨_, here⟩ := get_set looked
      · rw [establishing] at isEstablishing
        exact ⟨request, there, isEstablishing, (connectors (.inl isEstablishing)).symm⟩
      · exact ⟨found, here, isEstablishing, rfl⟩
    intro first second one other connector here elsewhere oneOf otherOf inOne inOther
    obtain ⟨before, was, wasOne, same⟩ := back first one here oneOf
    obtain ⟨before', was', wasOther, same'⟩ := back second other elsewhere otherOf
    exact queues.disjoint first second before before' connector was was' wasOne wasOther
      (same ▸ inOne) (same' ▸ inOther)
  listed := by
    intro connector set other pending inside
    obtain ⟨found, here, isCallback, isWaiting, has⟩ :=
      queues.listed connector set other pending inside
    by_cases same : other = id
    · subst same
      cases here.symm.trans there
      refine ⟨after, List.getElem?_set_self (List.getElem?_eq_some_iff.mp there).1, ?_⟩
      rw [callback, waits, connectors (.inr isWaiting)]
      exact ⟨isCallback, isWaiting, has⟩
    · exact ⟨found, (List.getElem?_set_ne (Ne.symm same)).trans here, isCallback, isWaiting, has⟩
  waiting := by
    intro other found looked isWaiting
    obtain ⟨rfl, rfl⟩ | ⟨_, here⟩ := get_set looked
    · rw [waits] at isWaiting
      rw [connectors (.inr isWaiting), callback]
      exact queues.waiting other request there isWaiting
    · exact queues.waiting other found here isWaiting

theorem Queues.idle (queues : Queues s) (there : s.requests[id]? = some request)
    (callback : after.callback = request.callback)
    (before : request.isEstablishing = false ∧ request.waits = false)
    (now : after.isEstablishing = false ∧ after.waits = false) : Queues (s.put id after) := by
  apply queues.put there callback (now.1.trans before.1.symm) (now.2.trans before.2.symm)
  rintro (establishing | waits)
  · rw [before.1] at establishing
    cases establishing
  · rw [before.2] at waits
    cases waits

theorem Queues.append (queues : Queues s) (request : Request κ)
    (establishing : request.isEstablishing = false) (waits : request.waits = false) :
    Queues { s with requests := s.requests ++ [request] } where
  keys := by
    intro connector
    refine (queues.keys connector).trans ⟨?_, ?_⟩
    · rintro ⟨id, found, here, rest⟩
      have inside := (List.getElem?_eq_some_iff.mp here).1
      exact ⟨id, found, (List.getElem?_append_left inside).trans here, rest⟩
    · rintro ⟨id, found, looked, isEstablishing, rest⟩
      obtain ⟨_, here⟩ | ⟨_, rfl⟩ := get_append looked
      · exact ⟨id, found, here, isEstablishing, rest⟩
      · rw [establishing] at isEstablishing
        cases isEstablishing
  disjoint := by
    intro first second one other connector here elsewhere oneOf otherOf
    obtain ⟨_, here⟩ | ⟨_, rfl⟩ := get_append here
    · obtain ⟨_, elsewhere⟩ | ⟨_, rfl⟩ := get_append elsewhere
      · exact queues.disjoint first second one other connector here elsewhere oneOf otherOf
      · rw [establishing] at otherOf
        cases otherOf
    · rw [establishing] at oneOf
      cases oneOf
  listed := by
    intro connector set id pending inside
    obtain ⟨found, here, rest⟩ := queues.listed connector set id pending inside
    have bounded := (List.getElem?_eq_some_iff.mp here).1
    exact ⟨found, (List.getElem?_append_left bounded).trans here, rest⟩
  waiting := by
    intro id found looked isWaiting
    obtain ⟨_, here⟩ | ⟨_, rfl⟩ := get_append looked
    · exact queues.waiting id found here isWaiting
    · rw [waits] at isWaiting
      cases isWaiting

theorem Queues.same {other : State κ} (queues : Queues s) (pending : other.pending = s.pending)
    (requests : other.requests = s.requests) : Queues other := by
  refine ⟨?_, ?_, ?_, ?_⟩ <;> rw [requests] <;> try rw [pending]
  · exact queues.keys
  · exact queues.disjoint
  · exact queues.listed
  · exact queues.waiting

@[simp] theorem notify_callback (request : Request κ) :
    request.notify.callback = request.callback := by
  unfold Request.notify
  split
  · split <;> rfl
  · rfl

@[simp] theorem notify_connectors (request : Request κ) :
    request.notify.connectors = request.connectors := by
  unfold Request.notify
  split
  · split <;> rfl
  · rfl

@[simp] theorem notify_establishing (request : Request κ) :
    request.notify.isEstablishing = request.isEstablishing := by
  unfold Request.notify Request.isEstablishing
  cases stage : request.stage with
  | waiting notified => by_cases callback : request.callback = true <;> simp [callback, stage]
  | _ => simp [stage]

theorem notify_waits (request : Request κ) :
    request.notify.waits = true ↔ request.callback = true ∧ request.waits = true := by
  unfold Request.notify Request.waits
  cases stage : request.stage with
  | waiting notified =>
      by_cases callback : request.callback = true
      · simp [callback, stage]
      · simp [callback]
  | _ => simp [stage]

theorem mem_waiters :
    id ∈ s.waiters connectors ↔
      ∃ connector ∈ connectors, ∃ set, s.pending connector = some set ∧ id ∈ set := by
  unfold State.waiters
  induction connectors with
  | nil => simp
  | cons connector connectors ih =>
      rw [List.foldr_cons, Finset.mem_union, ih]
      constructor
      · rintro (here | ⟨other, inside, rest⟩)
        · cases pending : s.pending connector with
          | none => simp [pending] at here
          | some set =>
              rw [pending] at here
              exact ⟨connector, List.mem_cons_self, set, pending, here⟩
        · exact ⟨other, List.mem_cons_of_mem _ inside, rest⟩
      · rintro ⟨other, inside, set, pending, member⟩
        obtain rfl | later := List.mem_cons.mp inside
        · left
          rw [pending]
          exact member
        · exact .inr ⟨other, later, set, pending, member⟩

theorem Queues.notifyAll (queues : Queues s) :
    Queues { s with requests := s.requests.map Request.notify } := by
  have back : ∀ (other : Nat) (after : Request κ),
      (s.requests.map Request.notify)[other]? = some after →
      ∃ found, s.requests[other]? = some found ∧ after = found.notify := by
    intro other after looked
    rw [List.getElem?_map, Option.map_eq_some_iff] at looked
    obtain ⟨found, here, notified⟩ := looked
    exact ⟨found, here, notified.symm⟩
  have forth : ∀ (other : Nat) (found : Request κ), s.requests[other]? = some found →
      (s.requests.map Request.notify)[other]? = some found.notify := by
    intro other found here
    rw [List.getElem?_map, here]
    rfl
  refine ⟨?_, ?_, ?_, ?_⟩
  · intro connector
    refine (queues.keys connector).trans ⟨?_, ?_⟩
    · rintro ⟨other, found, here, isEstablishing, inside⟩
      exact ⟨other, found.notify, forth other found here, by simpa using isEstablishing,
        by simpa using inside⟩
    · rintro ⟨other, after, looked, isEstablishing, inside⟩
      obtain ⟨found, here, rfl⟩ := back other after looked
      exact ⟨other, found, here, by simpa using isEstablishing, by simpa using inside⟩
  · intro first second one two connector left right oneOf twoOf inOne inTwo
    obtain ⟨before, here, rfl⟩ := back first one left
    obtain ⟨before', elsewhere, rfl⟩ := back second two right
    rw [notify_establishing] at oneOf twoOf
    rw [notify_connectors] at inOne inTwo
    exact queues.disjoint first second before before' connector here elsewhere oneOf twoOf inOne
      inTwo
  · intro connector set other pending member
    obtain ⟨found, here, isCallback, waits, inside⟩ :=
      queues.listed connector set other pending member
    exact ⟨found.notify, forth other found here, by simpa using isCallback,
      (notify_waits found).mpr ⟨isCallback, waits⟩, by simpa using inside⟩
  · intro other after looked waits
    obtain ⟨found, here, rfl⟩ := back other after looked
    obtain ⟨connector, inside, set, pending, listed⟩ :=
      queues.waiting other found here ((notify_waits found).mp waits).2
    exact ⟨connector, by simpa using inside, set, pending, by simpa using listed⟩

structure Invariant (s : State κ) : Prop where
  queues : Queues s
  ledger : Ledger s

structure Request.Kept (before after : Request κ) : Prop where
  shaped : after.Shaped
  told : after.timesTold = before.timesTold
  decremented : after.timesDecremented = before.timesDecremented
  isPending : after.isPending = before.isPending

theorem notify_kept (shaped : request.Shaped) : Request.Kept request request.notify := by
  unfold Request.notify
  cases stage : request.stage with
  | waiting notified =>
      unfold Request.Shaped at shaped
      rw [stage] at shaped
      by_cases callback : request.callback = true
      · simp only [callback, if_true]
        exact ⟨by unfold Request.Shaped; rw [stage]; exact shaped, rfl, rfl, rfl⟩
      · simp only
        rw [if_neg callback]
        refine ⟨shaped, ?_, ?_, ?_⟩
        · simp [Request.timesTold, stage]
        · simp [Request.timesDecremented, stage]
        · simp [Request.isPending, stage]
  | _ => exact ⟨shaped, rfl, rfl, rfl⟩

theorem answer_kept (counted : request.counted = request.callback) (told : request.timesTold = 0)
    (decremented : request.timesDecremented = 0) (isPending : request.isPending = request.counted)
    (outcome : Outcome κ) : Request.Kept request (request.answer outcome) := by
  by_cases callback : request.callback = true
  · have answered : request.answer outcome = { request with stage := .answered outcome } := by
      simp [Request.answer, callback]
    rw [answered]
    exact ⟨⟨callback, counted.trans callback⟩, told.symm, decremented.symm, isPending.symm⟩
  · have thread : request.callback = false := by simpa using callback
    have finished : request.answer outcome = { request with stage := .finished outcome } := by
      simp [Request.answer, thread]
    rw [finished]
    refine ⟨fun isCounted => counted ▸ isCounted, ?_, ?_, ?_⟩
    · rw [told]
      simp [Request.timesTold, thread]
    · rw [decremented]
      simp [Request.timesDecremented, counted, thread]
    · rw [isPending, counted, thread]
      simp [Request.isPending]

theorem answer_idle (request : Request κ) (outcome : Outcome κ) :
    (request.answer outcome).isEstablishing = false ∧ (request.answer outcome).waits = false := by
  unfold Request.answer
  by_cases callback : request.callback = true <;>
    simp [Request.isEstablishing, Request.waits, callback]

theorem Ledger.kept (ledger : Ledger s) (there : s.requests[id]? = some request)
    (kept : Request.Kept request after) : Ledger (s.put id after) :=
  ledger.move there kept.shaped kept.told kept.decremented kept.isPending

theorem establishing_shaped (ledger : Ledger s) (there : s.requests[id]? = some request)
    {iter : Nat} (stage : request.stage = .establishing iter) :
    request.counted = request.callback ∧ iter < request.connectors.length := by
  have shaped := ledger.shaped id request there
  unfold Request.Shaped at shaped
  rwa [stage] at shaped

theorem asking_shaped (ledger : Ledger s) (there : s.requests[id]? = some request)
    (stage : request.stage = .asking) :
    request.counted = request.callback ∧ request.connectors ≠ [] := by
  have shaped := ledger.shaped id request there
  unfold Request.Shaped at shaped
  rwa [stage] at shaped

theorem resolving_shaped (ledger : Ledger s) (there : s.requests[id]? = some request)
    {endpoints : Nat} (stage : request.stage = .resolving endpoints) :
    request.callback = true ∧ request.counted = true := by
  have shaped := ledger.shaped id request there
  unfold Request.Shaped at shaped
  rw [stage] at shaped
  exact ⟨shaped.1, shaped.2.1⟩

section

variable (invariant : Invariant s)

include invariant

theorem waiter_is_waiting (listed : id ∈ s.waiters connectors)
    (there : s.requests[id]? = some request) :
    ∃ notified, request.stage = .waiting notified ∧ request.callback = true ∧
      request.counted = true ∧ request.connectors ≠ [] := by
  obtain ⟨connector, _, set, pending, member⟩ := mem_waiters.mp listed
  obtain ⟨found, here, callback, waits, _⟩ :=
    invariant.queues.listed connector set id pending member
  cases here.symm.trans there
  have shaped := invariant.ledger.shaped id request there
  unfold Request.Shaped at shaped
  unfold Request.waits at waits
  cases stage : request.stage with
  | waiting notified =>
      rw [stage] at shaped
      exact ⟨notified, rfl, callback, shaped.1.trans callback, shaped.2⟩
  | _ => simp [stage] at waits

theorem Invariant.kept (there : s.requests[id]? = some request)
    (callback : after.callback = request.callback)
    (before : request.isEstablishing = false ∧ request.waits = false)
    (now : after.isEstablishing = false ∧ after.waits = false) (kept : Request.Kept request after) :
    Invariant (s.put id after) :=
  ⟨invariant.queues.idle there callback before now, invariant.ledger.kept there kept⟩

theorem Invariant.getConnectors {endpoints : Nat} (some : 0 < endpoints) :
    Invariant (s.getConnectors endpoints) := by
  unfold State.getConnectors
  split
  · constructor
    · have appended := invariant.queues.append (⟨true, false, [],
        .finished (.exception .communicatorDestroyed)⟩) rfl rfl
      exact appended.same rfl rfl
    · apply invariant.ledger.append
      · intro absurdity
        cases absurdity
      · rfl
      · intro other
        rw [List.count_append, count_one]
        rfl
      · simp [Request.isPending]
  · constructor
    · have appended := invariant.queues.append (⟨true, true, [],
        .resolving endpoints⟩) rfl rfl
      exact appended.same rfl rfl
    · apply invariant.ledger.append
      · exact ⟨rfl, rfl, some⟩
      · rfl
      · intro other
        simp [Request.timesTold]
      · simp [Request.isPending]

theorem Invariant.create (some : connectors ≠ []) : Invariant (s.create connectors) := by
  constructor
  · exact invariant.queues.append _ rfl rfl
  · apply invariant.ledger.append
    · exact ⟨rfl, some⟩
    · rfl
    · intro other
      simp [Request.timesTold]
    · simp [Request.isPending]

theorem Invariant.addConnectors (there : s.requests[id]? = some request) {left : Nat}
    (stage : request.stage = .resolving (left + 1)) (some : connectors ≠ []) :
    Invariant (s.put id (request.addConnectors connectors left)) := by
  obtain ⟨callback, counted⟩ := resolving_shaped invariant.ledger there stage
  unfold Request.addConnectors
  by_cases last : left = 0
  · rw [if_pos last]
    apply Invariant.kept invariant there <;> try constructor
    all_goals simp [Request.isEstablishing, Request.waits, Request.Shaped, Request.timesTold,
      Request.timesDecremented, Request.isPending, stage, callback, counted, some]
  · rw [if_neg last]
    apply Invariant.kept invariant there <;> try constructor
    all_goals simp [Request.isEstablishing, Request.waits, Request.Shaped, Request.timesTold,
      Request.timesDecremented, Request.isPending, stage, callback, counted]
    omega

section

variable (there : s.requests[id]? = some request)

include there

theorem Invariant.unresolved {left : Nat} (stage : request.stage = .resolving (left + 1))
    (ex : LocalException) : Invariant (s.put id (request.unresolved ex left)) := by
  obtain ⟨callback, counted⟩ := resolving_shaped invariant.ledger there stage
  unfold Request.unresolved
  by_cases more : 0 < left
  · rw [if_pos more]
    apply Invariant.kept invariant there <;> try constructor
    all_goals simp [Request.isEstablishing, Request.waits, Request.Shaped, Request.timesTold,
      Request.timesDecremented, Request.isPending, stage, callback, counted, more]
  · rw [if_neg more]
    by_cases some : request.connectors ≠ []
    · rw [if_pos some]
      apply Invariant.kept invariant there <;> try constructor
      all_goals simp [Request.isEstablishing, Request.waits, Request.Shaped, Request.timesTold,
        Request.timesDecremented, Request.isPending, stage, callback, counted, some]
    · rw [if_neg some]
      refine Invariant.kept invariant there ?_ ?_ (answer_idle request _) ?_
      · rfl
      · simp [Request.isEstablishing, Request.waits, stage]
      · apply answer_kept (counted.trans callback.symm) <;>
          simp [Request.timesTold, Request.timesDecremented, Request.isPending, stage]

theorem Invariant.answered (asking : request.stage = .asking) (outcome : Outcome κ) :
    Invariant (s.put id (request.answer outcome)) := by
  have shaped := asking_shaped invariant.ledger there asking
  refine Invariant.kept invariant there ?_ ?_ (answer_idle request outcome) ?_
  · rfl
  · simp [Request.isEstablishing, Request.waits, asking]
  · apply answer_kept shaped.1 <;>
      simp [Request.timesTold, Request.timesDecremented, Request.isPending, asking]

theorem Invariant.wake (thread : request.callback = false) (waiting : request.stage = .waiting true) :
    Invariant (s.put id { request with stage := .asking }) := by
  have shaped := invariant.ledger.shaped id request there
  unfold Request.Shaped at shaped
  rw [waiting] at shaped
  apply Invariant.kept invariant there
  · rfl
  · simp [Request.isEstablishing, Request.waits, waiting, thread]
  · simp [Request.isEstablishing, Request.waits]
  · exact ⟨shaped, by simp [Request.timesTold, waiting],
      by simp [Request.timesDecremented, waiting], by simp [Request.isPending, waiting]⟩

theorem Invariant.nextConnector {iter : Nat} (establishing : request.stage = .establishing iter)
    (more : iter + 1 < request.connectors.length) :
    Invariant (s.put id { request with stage := .establishing (iter + 1) }) := by
  have shaped := establishing_shaped invariant.ledger there establishing
  constructor
  · refine invariant.queues.put there rfl ?_ ?_ fun _ => rfl
    · simp [Request.isEstablishing, establishing]
    · simp [Request.waits, establishing]
  · apply invariant.ledger.move there
    · exact ⟨shaped.1, more⟩
    · simp [Request.timesTold, establishing]
    · simp [Request.timesDecremented, establishing]
    · simp [Request.isPending, establishing]

theorem Invariant.tell {outcome : Outcome κ} (answered : request.stage = .answered outcome) :
    Invariant { s.put id { request with stage := .told outcome } with
      told := s.told ++ [id] } := by
  have shaped := invariant.ledger.shaped id request there
  unfold Request.Shaped at shaped
  rw [answered] at shaped
  constructor
  · have moved : Queues (s.put id { request with stage := .told outcome }) := by
      apply invariant.queues.idle there
      · rfl
      · simp [Request.isEstablishing, Request.waits, answered]
      · simp [Request.isEstablishing, Request.waits]
    exact moved.same rfl rfl
  · apply Ledger.put invariant.ledger there
    · exact shaped
    · intro other
      rw [List.count_append, count_one]
      simp [Request.timesTold, answered, shaped.1]
    · intro other
      simp [Request.timesDecremented, answered, State.put]
    · simp [Request.isPending, answered, shaped.2, State.put]

theorem Invariant.decPendingConnectCount {outcome : Outcome κ}
    (told : request.stage = .told outcome) :
    Invariant { s.put id { request with stage := .finished outcome } with
      pendingConnectCount := s.pendingConnectCount - 1
      decremented := s.decremented ++ [id] } := by
  have shaped := invariant.ledger.shaped id request there
  unfold Request.Shaped at shaped
  rw [told] at shaped
  constructor
  · have moved : Queues (s.put id { request with stage := .finished outcome }) := by
      apply invariant.queues.idle there
      · rfl
      · simp [Request.isEstablishing, Request.waits, told]
      · simp [Request.isEstablishing, Request.waits]
    exact moved.same rfl rfl
  · apply Ledger.put invariant.ledger there
    · exact fun _ => shaped.1
    · intro other
      simp [Request.timesTold, told, State.put]
    · intro other
      rw [List.count_append, count_one]
      simp [Request.timesDecremented, told, shaped.2]
    · simp [Request.isPending, told, shaped.2]

end

theorem Invariant.destroy : Invariant s.destroy := by
  unfold State.destroy
  split
  · exact invariant
  · have notified := invariant.ledger.change fun other found here => by
      have same := notify_kept (invariant.ledger.shaped other found here)
      exact ⟨same.shaped, same.told, same.decremented, same.isPending⟩
    have mapped : (s.requests.mapIdx fun _ request => request.notify) =
        s.requests.map Request.notify := by
      apply List.ext_getElem?
      intro id
      rw [List.getElem?_mapIdx, List.getElem?_map]
    rw [mapped] at notified
    exact ⟨invariant.queues.notifyAll.same rfl rfl,
      notified.shaped, notified.told, notified.decremented, notified.counted⟩

end

variable [DecidableEq κ]

theorem reserve_is_some (s : State κ) (connectors : List κ) (connector : κ) :
    (s.reserve connectors connector).isSome ↔
      connector ∈ connectors ∨ (s.pending connector).isSome := by
  unfold State.reserve
  by_cases absent : s.pending connector = none
  · by_cases inside : connector ∈ connectors <;> simp [absent, inside]
  · have present : (s.pending connector).isSome := Option.isSome_iff_ne_none.mpr absent
    simp [absent, present]

variable {set : Finset Nat}

theorem reserve_some (pending : s.reserve connectors connector = some set) (inside : id ∈ set) :
    s.pending connector = some set := by
  unfold State.reserve at pending
  split at pending
  · cases pending
    cases inside
  · exact pending

theorem Queues.reserve (queues : Queues s) (there : s.requests[id]? = some request)
    (asking : request.stage = .asking)
    (free : ∀ connector ∈ request.connectors, s.pending connector = none) :
    Queues { s.put id { request with stage := .establishing 0 } with
      pending := s.reserve request.connectors } := by
  have inBounds := (List.getElem?_eq_some_iff.mp there).1
  have other : ∀ (found : Nat) (before : Request κ), s.requests[found]? = some before →
      before.isEstablishing = true ∨ before.waits = true → found ≠ id := by
    intro found before here busy same
    subst same
    cases here.symm.trans there
    simp [Request.isEstablishing, Request.waits, asking] at busy
  have fresh : ∀ (found : Nat) (before : Request κ) connector,
      s.requests[found]? = some before → before.isEstablishing = true →
        connector ∈ before.connectors → connector ∉ request.connectors := by
    intro found before connector here isEstablishing inside mine
    have present := (queues.keys connector).mpr ⟨found, before, here, isEstablishing, inside⟩
    rw [free connector mine] at present
    cases present
  refine ⟨?_, ?_, ?_, ?_⟩
  · intro connector
    refine (reserve_is_some s request.connectors connector).trans ⟨?_, ?_⟩
    · rintro (mine | present)
      · exact ⟨id, _, List.getElem?_set_self inBounds, rfl, mine⟩
      · obtain ⟨found, before, here, isEstablishing, inside⟩ := (queues.keys connector).mp present
        have apart := other found before here (.inl isEstablishing)
        exact ⟨found, before, (List.getElem?_set_ne apart.symm).trans here, isEstablishing, inside⟩
    · rintro ⟨found, after, looked, isEstablishing, inside⟩
      obtain ⟨_, rfl⟩ | ⟨_, here⟩ := get_set looked
      · exact .inl inside
      · exact .inr ((queues.keys connector).mpr ⟨found, after, here, isEstablishing, inside⟩)
  · intro first second one two connector left right oneOf twoOf inOne inTwo
    obtain ⟨rfl, rfl⟩ | ⟨_, here⟩ := get_set left
    · obtain ⟨rfl, rfl⟩ | ⟨_, elsewhere⟩ := get_set right
      · rfl
      · exact absurd inOne (fresh second two connector elsewhere twoOf inTwo)
    · obtain ⟨rfl, rfl⟩ | ⟨_, elsewhere⟩ := get_set right
      · exact absurd inTwo (fresh first one connector here oneOf inOne)
      · exact queues.disjoint first second one two connector here elsewhere oneOf twoOf inOne inTwo
  · intro connector set found pending inside
    obtain ⟨before, here, isCallback, isWaiting, has⟩ :=
      queues.listed connector set found (reserve_some pending inside) inside
    have apart := other found before here (.inr isWaiting)
    exact ⟨before, (List.getElem?_set_ne apart.symm).trans here, isCallback, isWaiting, has⟩
  · intro found after looked isWaiting
    obtain ⟨_, rfl⟩ | ⟨_, here⟩ := get_set looked
    · cases isWaiting
    · obtain ⟨connector, inside, set, pending, listed⟩ := queues.waiting found after here isWaiting
      refine ⟨connector, inside, set, ?_, listed⟩
      simp [State.reserve, pending]

theorem register_some (pending : s.register id connectors connector = some set) :
    ∃ before, s.pending connector = some before ∧
      set = if connector ∈ connectors then insert id before else before := by
  unfold State.register at pending
  split at pending
  · next inside =>
      obtain ⟨before, was, rfl⟩ := Option.map_eq_some_iff.mp pending
      exact ⟨before, was, (if_pos inside).symm⟩
  · next outside => exact ⟨set, pending, (if_neg outside).symm⟩

def State.enlisted (s : State κ) (id : Nat) (request : Request κ) : κ → Option (Finset Nat) :=
  if request.callback then s.register id request.connectors else s.pending

theorem enlisted_some (id : Nat) (request : Request κ) {before : Finset Nat}
    (was : s.pending connector = some before) :
    ∃ set, s.enlisted id request connector = some set ∧ before ⊆ set ∧
      (connector ∈ request.connectors → request.callback = true → id ∈ set) := by
  unfold State.enlisted State.register
  by_cases isCallback : request.callback = true
  · by_cases inside : connector ∈ request.connectors
    · refine ⟨insert id before, by simp [isCallback, inside, was], Finset.subset_insert _ _, ?_⟩
      intro _ _
      exact Finset.mem_insert_self _ _
    · exact ⟨before, by simp [isCallback, inside, was], Finset.Subset.refl _,
        fun mine => absurd mine inside⟩
  · exact ⟨before, by simp [isCallback, was], Finset.Subset.refl _,
      fun _ mine => absurd mine isCallback⟩

theorem enlisted_inv (pending : s.enlisted id request connector = some set) :
    ∃ before, s.pending connector = some before ∧ ∀ member ∈ set, member ∈ before ∨
      (member = id ∧ connector ∈ request.connectors ∧ request.callback = true) := by
  unfold State.enlisted at pending
  split at pending
  · next isCallback =>
      obtain ⟨before, was, rfl⟩ := register_some pending
      refine ⟨before, was, ?_⟩
      intro member inside
      split at inside
      · next mine =>
          obtain same | old := Finset.mem_insert.mp inside
          · exact .inr ⟨same, mine, isCallback⟩
          · exact .inl old
      · exact .inl inside
  · exact ⟨set, pending, fun member inside => .inl inside⟩

theorem Queues.enlist (queues : Queues s) (there : s.requests[id]? = some request)
    (asking : request.stage = .asking) (inside : connector ∈ request.connectors)
    (busy : (s.pending connector).isSome) :
    Queues { s.put id { request with stage := .waiting false } with
      pending := s.enlisted id request } := by
  have inBounds := (List.getElem?_eq_some_iff.mp there).1
  have isWaiting : ({ request with stage := .waiting false } : Request κ).waits = true := by
    simp [Request.waits]
  have other : ∀ (found : Nat) (before : Request κ), s.requests[found]? = some before →
      before.isEstablishing = true ∨ before.waits = true → found ≠ id := by
    intro found before here active same
    subst same
    cases here.symm.trans there
    simp [Request.isEstablishing, Request.waits, asking] at active
  refine ⟨?_, ?_, ?_, ?_⟩
  · intro key
    have kept : (s.enlisted id request key).isSome ↔ (s.pending key).isSome := by
      constructor
      · intro present
        obtain ⟨set, pending⟩ := Option.isSome_iff_exists.mp present
        obtain ⟨before, was, _⟩ := enlisted_inv pending
        exact Option.isSome_iff_exists.mpr ⟨before, was⟩
      · intro present
        obtain ⟨before, was⟩ := Option.isSome_iff_exists.mp present
        obtain ⟨set, pending, _⟩ := enlisted_some _ _ was
        exact Option.isSome_iff_exists.mpr ⟨set, pending⟩
    refine kept.trans ((queues.keys key).trans ⟨?_, ?_⟩)
    · rintro ⟨found, before, here, isEstablishing, has⟩
      have apart := other found before here (.inl isEstablishing)
      exact ⟨found, before, (List.getElem?_set_ne apart.symm).trans here, isEstablishing, has⟩
    · rintro ⟨found, after, looked, isEstablishing, has⟩
      obtain ⟨_, rfl⟩ | ⟨_, here⟩ := get_set looked
      · cases isEstablishing
      · exact ⟨found, after, here, isEstablishing, has⟩
  · intro first second one two key left right oneOf twoOf
    obtain ⟨_, rfl⟩ | ⟨_, here⟩ := get_set left
    · cases oneOf
    · obtain ⟨_, rfl⟩ | ⟨_, elsewhere⟩ := get_set right
      · cases twoOf
      · exact queues.disjoint first second one two key here elsewhere oneOf twoOf
  · intro key set found pending member
    obtain ⟨before, was, members⟩ := enlisted_inv pending
    obtain old | ⟨rfl, mine, isCallback⟩ := members found member
    · obtain ⟨waiter, here, isCallback, waits, has⟩ := queues.listed key before found was old
      have apart := other found waiter here (.inr waits)
      exact ⟨waiter, (List.getElem?_set_ne apart.symm).trans here, isCallback, waits, has⟩
    · exact ⟨_, List.getElem?_set_self inBounds, isCallback, isWaiting, mine⟩
  · intro found after looked waits
    obtain ⟨rfl, rfl⟩ | ⟨_, here⟩ := get_set looked
    · obtain ⟨before, was⟩ := Option.isSome_iff_exists.mp busy
      obtain ⟨set, pending, _, member⟩ := enlisted_some found request was
      exact ⟨connector, inside, set, pending, member inside⟩
    · obtain ⟨key, has, before, was, member⟩ := queues.waiting found after here waits
      obtain ⟨set, pending, subset, _⟩ := enlisted_some id request was
      exact ⟨key, has, set, pending, fun isCallback => subset (member isCallback)⟩

theorem release_pending_some {released : Finset Nat} {connectorsOf : Nat → List κ}
    (pending : s.releasePending connectors released connectorsOf connector = some set) :
    connector ∉ connectors ∧ ∃ before, s.pending connector = some before ∧
      ∀ id, id ∈ set ↔ id ∈ before ∧ ¬(id ∈ released ∧ connector ∈ connectorsOf id) := by
  unfold State.releasePending at pending
  split at pending
  · cases pending
  · next outside =>
      obtain ⟨before, was, rfl⟩ := Option.map_eq_some_iff.mp pending
      exact ⟨outside, before, was, fun id => Finset.mem_filter⟩

/-- The end of an establishment: the request and those in its pending lists do not wait any
more, and the threads on the monitor are notified. -/
theorem Queues.release (queues : Queues s) (there : s.requests[id]? = some request)
    (establishing : request.isEstablishing = true) {change : Nat → Request κ → Request κ}
    (owner : (change id request).isEstablishing = false ∧ (change id request).waits = false)
    (waiter : ∀ (other : Nat) (found : Request κ), s.requests[other]? = some found →
      other ≠ id → other ∈ s.waiters request.connectors →
      (change other found).isEstablishing = false ∧ (change other found).waits = false)
    (rest : ∀ (other : Nat) (found : Request κ), s.requests[other]? = some found →
      other ≠ id → other ∉ s.waiters request.connectors → change other found = found.notify) :
    Queues { s with
      pending := s.releasePending request.connectors (s.waiters request.connectors)
        s.connectorsOf
      requests := s.requests.mapIdx change } := by
  -- A request that is still busy was neither the owner nor in one of the lists.
  have untouched : ∀ (other : Nat) (after : Request κ),
      (s.requests.mapIdx change)[other]? = some after →
      after.isEstablishing = true ∨ after.waits = true →
      ∃ found, s.requests[other]? = some found ∧ after = found.notify ∧ other ≠ id ∧
        other ∉ s.waiters request.connectors := by
    intro other after looked busy
    obtain ⟨found, here, rfl⟩ := get_map_idx looked
    by_cases same : other = id
    · subst same
      cases here.symm.trans there
      rw [owner.1, owner.2] at busy
      simp at busy
    · by_cases listed : other ∈ s.waiters request.connectors
      · obtain ⟨notEstablishing, notWaiting⟩ := waiter other found here same listed
        rw [notEstablishing, notWaiting] at busy
        simp at busy
      · exact ⟨found, here, rest other found here same listed, same, listed⟩
  have kept : ∀ (other : Nat) (found : Request κ), s.requests[other]? = some found →
      other ≠ id → other ∉ s.waiters request.connectors →
      (s.requests.mapIdx change)[other]? = some found.notify := by
    intro other found here same listed
    rw [List.getElem?_mapIdx, here, ← rest other found here same listed]
    rfl
  have unlisted : ∀ (other : Nat) (found : Request κ), s.requests[other]? = some found →
      found.isEstablishing = true → other ∉ s.waiters request.connectors := by
    intro other found here isEstablishing listed
    obtain ⟨connector, _, set, pending, member⟩ := mem_waiters.mp listed
    obtain ⟨waiting, elsewhere, _, waits, _⟩ := queues.listed connector set other pending member
    cases elsewhere.symm.trans here
    unfold Request.isEstablishing at isEstablishing
    unfold Request.waits at waits
    cases stage : found.stage <;> simp [stage] at isEstablishing waits
  refine ⟨?_, ?_, ?_, ?_⟩
  · intro connector
    constructor
    · intro present
      obtain ⟨set, pending⟩ := Option.isSome_iff_exists.mp present
      obtain ⟨outside, before, was, _⟩ := release_pending_some pending
      obtain ⟨other, found, here, isEstablishing, inside⟩ :=
        (queues.keys connector).mp (Option.isSome_iff_exists.mpr ⟨before, was⟩)
      have apart : other ≠ id := by
        rintro rfl
        cases here.symm.trans there
        exact outside inside
      refine ⟨other, found.notify, ?_, by simpa using isEstablishing, by simpa using inside⟩
      exact kept other found here apart (unlisted other found here isEstablishing)
    · rintro ⟨other, after, looked, isEstablishing, inside⟩
      obtain ⟨found, here, rfl, apart, _⟩ := untouched other after looked (.inl isEstablishing)
      rw [notify_establishing] at isEstablishing
      rw [notify_connectors] at inside
      have outside : connector ∉ request.connectors := fun mine =>
        apart (queues.disjoint other id found request connector here there isEstablishing
          establishing inside mine)
      have present := (queues.keys connector).mpr ⟨other, found, here, isEstablishing, inside⟩
      simpa [State.releasePending, outside] using present
  · intro first second one two connector left right oneOf twoOf inOne inTwo
    obtain ⟨before, here, rfl, _⟩ := untouched first one left (.inl oneOf)
    obtain ⟨before', elsewhere, rfl, _⟩ := untouched second two right (.inl twoOf)
    rw [notify_establishing] at oneOf twoOf
    rw [notify_connectors] at inOne inTwo
    exact queues.disjoint first second before before' connector here elsewhere oneOf twoOf inOne
      inTwo
  · intro connector set other pending member
    obtain ⟨_, before, was, members⟩ := release_pending_some pending
    obtain ⟨old, spared⟩ := (members other).mp member
    obtain ⟨found, here, isCallback, waits, inside⟩ :=
      queues.listed connector before other was old
    have listedFor : s.connectorsOf other = found.connectors := by
      simp [State.connectorsOf, here]
    have apart : other ≠ id := by
      rintro rfl
      cases here.symm.trans there
      unfold Request.isEstablishing at establishing
      unfold Request.waits at waits
      cases stage : request.stage <;> simp [stage] at establishing waits
    have free : other ∉ s.waiters request.connectors := fun listed =>
      spared ⟨listed, listedFor ▸ inside⟩
    exact ⟨found.notify, kept other found here apart free, by simpa using isCallback,
      (notify_waits found).mpr ⟨isCallback, waits⟩, by simpa using inside⟩
  · intro other after looked waits
    obtain ⟨found, here, rfl, _, free⟩ := untouched other after looked (.inr waits)
    obtain ⟨isCallback, waited⟩ := (notify_waits found).mp waits
    obtain ⟨connector, inside, before, was, listed⟩ := queues.waiting other found here waited
    have outside : connector ∉ request.connectors := fun mine =>
      free (mem_waiters.mpr ⟨connector, mine, before, was, listed isCallback⟩)
    refine ⟨connector, by simpa using inside,
      before.filter fun id => ¬(id ∈ s.waiters request.connectors ∧ connector ∈ s.connectorsOf id),
      ?_, fun _ => ?_⟩
    · simp only [State.releasePending, if_neg outside, was, Option.map_some]
    · exact Finset.mem_filter.mpr ⟨listed isCallback, fun released => free released.1⟩

theorem connected_kept {notified : Bool} (waiting : request.stage = .waiting notified)
    (callback : request.callback = true) (counted : request.counted = true)
    (some : request.connectors ≠ []) (connector : κ) :
    Request.Kept request (request.connected connector) := by
  unfold Request.connected
  by_cases has : connector ∈ request.connectors
  · rw [if_pos has]
    constructor <;> simp [Request.Shaped, Request.timesTold, Request.timesDecremented,
      Request.isPending, waiting, callback, counted]
  · rw [if_neg has]
    constructor <;> simp [Request.Shaped, Request.timesTold, Request.timesDecremented,
      Request.isPending, waiting, callback, counted, some]

theorem failed_kept {notified : Bool} (waiting : request.stage = .waiting notified)
    (callback : request.callback = true) (counted : request.counted = true) (connectors : List κ)
    (ex : LocalException) : Request.Kept request (request.failed connectors ex) := by
  unfold Request.failed
  by_cases none : request.remaining connectors = []
  · rw [if_pos none]
    constructor <;> simp [Request.Shaped, Request.timesTold, Request.timesDecremented,
      Request.isPending, waiting, callback, counted]
  · rw [if_neg none]
    constructor <;> simp [Request.Shaped, Request.timesTold, Request.timesDecremented,
      Request.isPending, waiting, callback, counted, none]

theorem connected_idle (request : Request κ) (connector : κ) :
    (request.connected connector).isEstablishing = false ∧
      (request.connected connector).waits = false := by
  unfold Request.connected
  by_cases has : connector ∈ request.connectors <;>
    simp [Request.isEstablishing, Request.waits, has]

theorem failed_idle (request : Request κ) (connectors : List κ) (ex : LocalException) :
    (request.failed connectors ex).isEstablishing = false ∧
      (request.failed connectors ex).waits = false := by
  unfold Request.failed
  by_cases none : request.remaining connectors = [] <;>
    simp [Request.isEstablishing, Request.waits, none]

theorem Invariant.finish {s : State κ} (invariant : Invariant s) {id : Nat}
    {request : Request κ} (there : s.requests[id]? = some request) {iter : Nat}
    (establishing : request.stage = .establishing iter) (outcome : Outcome κ)
    {served : Request κ → Request κ}
    (idle : ∀ found : Request κ, (served found).isEstablishing = false ∧
      (served found).waits = false)
    (kept : ∀ (found : Request κ) notified, found.stage = .waiting notified →
      found.callback = true → found.counted = true → found.connectors ≠ [] →
        Request.Kept found (served found)) :
    Invariant { s with
      pending := s.releasePending request.connectors (s.waiters request.connectors)
        s.connectorsOf
      requests := s.requests.mapIdx fun other found =>
        if other = id then found.answer outcome
        else if other ∈ s.waiters request.connectors then served found
        else found.notify } := by
  have shaped := establishing_shaped invariant.ledger there establishing
  constructor
  · apply invariant.queues.release there (by simp [Request.isEstablishing, establishing])
    · simp only [if_true]
      exact answer_idle request outcome
    · intro other found _ apart listed
      simp only [if_neg apart, if_pos listed]
      exact idle found
    · intro other found _ apart free
      simp only [if_neg apart, if_neg free]
  · have same : ∀ (other : Nat) (found : Request κ), s.requests[other]? = some found →
        Request.Kept found (if other = id then found.answer outcome
          else if other ∈ s.waiters request.connectors then served found
          else found.notify) := by
      intro other found here
      by_cases mine : other = id
      · subst mine
        cases here.symm.trans there
        rw [if_pos rfl]
        apply answer_kept shaped.1 <;>
          simp [Request.timesTold, Request.timesDecremented, Request.isPending, establishing]
      · rw [if_neg mine]
        by_cases listed : other ∈ s.waiters request.connectors
        · rw [if_pos listed]
          obtain ⟨notified, waiting, callback, counted, some⟩ :=
            waiter_is_waiting invariant listed here
          exact kept found notified waiting callback counted some
        · rw [if_neg listed]
          exact notify_kept (invariant.ledger.shaped other found here)
    have changed := invariant.ledger.change fun other found here =>
      ⟨(same other found here).shaped, (same other found here).told,
        (same other found here).decremented, (same other found here).isPending⟩
    exact ⟨changed.shaped, changed.told, changed.decremented, changed.counted⟩

section

variable (invariant : Invariant s)

include invariant

section

variable (there : s.requests[id]? = some request)

include there

theorem Invariant.finishConnected {iter : Nat} (establishing : request.stage = .establishing iter)
    (connector : κ) : Invariant (s.finishConnected id request.connectors connector) :=
  invariant.finish there establishing (.connection connector)
    (fun found => connected_idle found connector)
    fun _ _ waiting callback counted some => connected_kept waiting callback counted some connector

theorem Invariant.finishFailed {iter : Nat} (establishing : request.stage = .establishing iter)
    (ex : LocalException) : Invariant (s.finishFailed id request.connectors ex) :=
  invariant.finish there establishing (.exception ex)
    (fun found => failed_idle found request.connectors ex)
    fun _ _ waiting callback counted _ => failed_kept waiting callback counted _ ex

theorem Invariant.addToPending (asking : request.stage = .asking) :
    Invariant (s.addToPending id request) := by
  have shaped := asking_shaped invariant.ledger there asking
  unfold State.addToPending
  by_cases busy : request.connectors.any fun connector => (s.pending connector).isSome
  · rw [if_pos busy]
    obtain ⟨connector, inside, present⟩ := List.any_eq_true.mp busy
    have moved : Ledger (s.put id { request with stage := .waiting false }) := by
      apply invariant.ledger.move there
      · exact shaped
      · simp [Request.timesTold, asking]
      · simp [Request.timesDecremented, asking]
      · simp [Request.isPending, asking]
    exact ⟨invariant.queues.enlist there asking inside present,
      moved.shaped, moved.told, moved.decremented, moved.counted⟩
  · rw [if_neg busy]
    have free : ∀ connector ∈ request.connectors, s.pending connector = none := by
      intro connector inside
      by_contra present
      exact busy (List.any_eq_true.mpr ⟨connector, inside, Option.isSome_iff_ne_none.mpr present⟩)
    have moved : Ledger (s.put id { request with stage := .establishing 0 }) := by
      apply invariant.ledger.move there
      · exact ⟨shaped.1, List.length_pos_iff.mpr shaped.2⟩
      · simp [Request.timesTold, asking]
      · simp [Request.timesDecremented, asking]
      · simp [Request.isPending, asking]
    exact ⟨invariant.queues.reserve there asking free,
      moved.shaped, moved.told, moved.decremented, moved.counted⟩

theorem Invariant.getConnection {after : State κ} (asking : request.stage = .asking)
    {found : Option κ} (got : s.getConnection id request found = some after) : Invariant after := by
  unfold State.getConnection at got
  split at got
  · cases got
    exact invariant.answered there asking _
  · cases found with
    | some connector =>
        simp only at got
        split at got
        · cases got
          exact invariant.answered there asking _
        · cases got
    | none =>
        cases got
        exact invariant.addToPending there asking

end

theorem step_keeps {event : Event κ} {after : State κ} (stepped : step event s = some after) :
    Invariant after := by
  cases event with
  | getConnectors endpoints =>
      simp only [step] at stepped
      split at stepped
      · next positive =>
          cases stepped
          exact invariant.getConnectors positive
      · cases stepped
  | create connectors =>
      simp only [step] at stepped
      split at stepped
      · next nonempty =>
          cases stepped
          exact invariant.create nonempty
      · cases stepped
  | connectors id connectors =>
      simp only [step, Option.bind_eq_bind, Option.bind_eq_some_iff] at stepped
      obtain ⟨request, there, stepped⟩ := stepped
      split at stepped
      · next stage =>
          split at stepped
          · next nonempty =>
              cases stepped
              exact invariant.addConnectors there stage nonempty
          · cases stepped
      · cases stepped
  | unresolved id ex =>
      simp only [step, Option.bind_eq_bind, Option.bind_eq_some_iff] at stepped
      obtain ⟨request, there, stepped⟩ := stepped
      split at stepped
      · next stage =>
          cases stepped
          exact invariant.unresolved there stage ex
      · cases stepped
  | getConnection id found =>
      simp only [step, Option.bind_eq_bind, Option.bind_eq_some_iff] at stepped
      obtain ⟨request, there, stepped⟩ := stepped
      split at stepped
      · next asking => exact invariant.getConnection there asking stepped
      · cases stepped
  | wake id =>
      simp only [step, Option.bind_eq_bind, Option.bind_eq_some_iff] at stepped
      obtain ⟨request, there, stepped⟩ := stepped
      split at stepped
      · next woken =>
          cases stepped
          exact invariant.wake there woken.1 woken.2
      · cases stepped
  | connected id =>
      simp only [step, Option.bind_eq_bind, Option.bind_eq_some_iff] at stepped
      obtain ⟨request, there, stepped⟩ := stepped
      split at stepped
      · next establishing =>
          obtain ⟨connector, _, finished⟩ := Option.bind_eq_some_iff.mp stepped
          cases finished
          exact invariant.finishConnected there establishing connector
      · cases stepped
  | failed id ex =>
      simp only [step, Option.bind_eq_bind, Option.bind_eq_some_iff] at stepped
      obtain ⟨request, there, stepped⟩ := stepped
      split at stepped
      · next establishing =>
          split at stepped
          · next more =>
              cases stepped
              exact invariant.nextConnector there establishing more.2
          · cases stepped
            exact invariant.finishFailed there establishing ex
      · cases stepped
  | tell id =>
      simp only [step, Option.bind_eq_bind, Option.bind_eq_some_iff] at stepped
      obtain ⟨request, there, stepped⟩ := stepped
      split at stepped
      · next answered =>
          cases stepped
          exact invariant.tell there answered
      · cases stepped
  | decPendingConnectCount id =>
      simp only [step, Option.bind_eq_bind, Option.bind_eq_some_iff] at stepped
      obtain ⟨request, there, stepped⟩ := stepped
      split at stepped
      · next told =>
          cases stepped
          exact invariant.decPendingConnectCount there told
      · cases stepped
  | destroy =>
      cases stepped
      exact invariant.destroy

end

end IceTouch.Connecting.Establishing

import IceTouch.Connection.Groups
import Mathlib.Logic.Relation

/-!
# The moves of a connection

An event is a chain of moves: changes of the life cycle, at most a few messages that are
handed over, and one change of the streams, the request maps or the dispatches. An invariant
is shown for each move and then holds along every run. What a move needs that the code does
not guarantee is a `Fault` of the event.
-/

namespace IceTouch.Connection

open Bytes Machine Relation

/-- What can go wrong in an event. -/
inductive Fault where
  /-- A frame is completely written and its message stays at the front of the queue. -/
  | abandon
  /-- A two-way request takes the id of an outstanding one. -/
  | reuse
  /-- The connection ends with a completely written frame of a call at the front of the queue. -/
  | unmarked
  /-- The connection ends with a two-way request in the queue that is not outstanding. -/
  | early
  /-- A user Dispatcher throws, and the upcall has dispatches or callbacks that are counted. -/
  | throws
  /-- A user Dispatcher throws, and the upcall has a reply. -/
  | loses
  /-- The dispatch count exceeds the range of an `int`. -/
  | overflow
  /-- A batch is given up. -/
  | abort
  /-- A request is answered after the shutdown was initiated. -/
  | late
deriving DecidableEq, Repr

/-- A message event completes the write of a frame, and the read that goes with it does not
come to the end of a message. -/
def Abandons (setup : Setup) (ready : Ready) (c : ConnectionI) : Prop :=
  .notValidated < c.state ∧ c.state < .closed ∧ ready.write = true ∧
    (writePart ready c).1 = .ok true ∧ (readPart setup ready c).1 ≠ .ok true

instance (setup : Setup) (ready : Ready) (c : ConnectionI) : Decidable (Abandons setup ready c) :=
  inferInstanceAs (Decidable (_ ∧ _))

/-- The id of the next two-way request belongs to an outstanding one. -/
def Reuses (c : ConnectionI) : Prop :=
  takenId c.nextRequestId ∈ OrderedMap.keys c.requests.entries ∨
    takenId c.nextRequestId ∈ OrderedMap.keys c.asyncRequests.entries

instance (c : ConnectionI) : Decidable (Reuses c) :=
  inferInstanceAs (Decidable (_ ∨ _))

def FrontWritten (c : ConnectionI) : Prop :=
  (∃ front ∈ c.sendStreams.head?, front.call ≠ none) ∧ c.writeStream.Written

instance (c : ConnectionI) : Decidable (FrontWritten c) :=
  inferInstanceAs (Decidable (_ ∧ _))

/-- A message of a two-way request is in the queue and the request is not outstanding: its reply
has come before it was sent. -/
def RepliedEarly (c : ConnectionI) : Prop :=
  ∃ message ∈ c.sendStreams, ∃ call, message.call = some call ∧ message.requestId ≠ 0 ∧
    (message.requestId, call) ∉ (if call.async then c.asyncRequests else c.requests).entries

instance (c : ConnectionI) : Decidable (RepliedEarly c) :=
  decidable_of_iff (∃ message ∈ c.sendStreams, ∃ call ∈ message.call, message.requestId ≠ 0 ∧
    (message.requestId, call) ∉ (if call.async then c.asyncRequests else c.requests).entries)
    Iff.rfl

def received (setup : Setup) (ready : Ready) (c : ConnectionI) : ConnectionI :=
  (readPart setup ready (writePart ready c).2).2

def parsedState (setup : Setup) (ready : Ready) (c : ConnectionI) : ConnectionI :=
  (parsePart setup ready (received setup ready c)).2

def arriving (setup : Setup) (ready : Ready) (c : ConnectionI) : Option (List Byte) :=
  if ready.read = true then
    (openFrame setup.bz2 setup.messageSizeMax
      (readMessage setup ready.supply c).2.readStream.bytes).toOption
  else
    none

/-- The number of requests that a message asks to dispatch. -/
def announced (state : State) (stream : List Byte) : Int :=
  if state = .closing then 0
  else if stream.getD 8 0 = requestMsg then 1
  else if stream.getD 8 0 = requestBatchMsg then max 0 ((intAt stream headerSize).getD 0)
  else 0

def CallsBack (setup : Setup) (ready : Ready) (c : ConnectionI) : Prop :=
  (sendPart setup ready (parsedState setup ready c)).1 ≠ [] ∨
    (parsePart setup ready (received setup ready c)).1.outAsync ≠ none

instance (setup : Setup) (ready : Ready) (c : ConnectionI) : Decidable (CallsBack setup ready c) :=
  inferInstanceAs (Decidable (_ ∨ _))

/-- The event comes to process a message, and the dispatch count with the requests of the message
and the callbacks of the event is not an `int`. -/
def Overflows (setup : Setup) (ready : Ready) (c : ConnectionI) : Prop :=
  .notValidated < c.state ∧ c.state < .closed ∧ (writePart ready c).1 = .ok true ∧
    (readPart setup ready c).1 = .ok true ∧
    2 ^ 31 ≤ c.dispatchCount + ((arriving setup ready c).map (announced c.state)).getD 0 +
      if CallsBack setup ready c then 1 else 0

instance (setup : Setup) (ready : Ready) (c : ConnectionI) : Decidable (Overflows setup ready c) :=
  inferInstanceAs (Decidable (_ ∧ _))

def Event.commits (setup : Setup) (event : Event) (c : ConnectionI) : Fault → Prop
  | .abandon => ∃ ready, event = .message ready ∧ Abandons setup ready c
  | .reuse =>
      Reuses c ∧ c.exception = none ∧ ((∃ compress os outcome, event = .sendRequest compress true os outcome ∧
          checkSendSize setup os.bytes.length = .ok ()) ∨
        ∃ notifies compress os outcome,
          event = .sendAsyncRequest notifies compress true os outcome ∧
          checkSendSize setup os.bytes.length = .ok ())
  | .unmarked => event = .finish ∧ FrontWritten c
  | .early => event = .finish ∧ RepliedEarly c
  | .throws => ∃ index upcall, event = .dispatcherThrows index ∧
      c.upcalls[index]? = some upcall ∧ (upcall.invokeNum ≠ 0 ∨ upcall.hasCallbacks = true)
  | .loses => ∃ index upcall, event = .dispatcherThrows index ∧
      c.upcalls[index]? = some upcall ∧ upcall.outAsync ≠ none
  | .overflow => ∃ ready, event = .message ready ∧ Overflows setup ready c
  | .abort => event = .abortBatchRequest
  | .late => c.shutdownInitiated = true ∧
      ∃ index body outcome closing, event = .answer index body outcome closing

/-- The state does not go back, the exception stays once it is set, and the connection is not
finished. -/
structure Onward (c d : ConnectionI) : Prop where
  forward : c.state.stage ≤ d.state.stage
  exception : ∀ ex, c.exception = some ex → d.exception = some ex
  unfinished : d.state = .finished → c.state = .finished

def Received (c d : ConnectionI) : Prop :=
  d.exception = some (.closeConnection true) → c.exception = some (.closeConnection true)

def WriteOutcome.Outside (outcome : WriteOutcome) : Prop :=
  outcome.failure ≠ some (.closeConnection true)

/-- A message that the connection sends for itself; when it cannot be sent, the connection is
closed. -/
def sendOwn (setup : Setup) (outcome : WriteOutcome) (message : OutgoingMessage)
    (c : ConnectionI) : ConnectionI :=
  match sendMessage setup outcome message c with
  | (.failed ex _, c) => fail setup ex c
  | (_, c) => c

/-- `--_dispatchCount`. -/
def uncount (c : ConnectionI) : ConnectionI :=
  { c with dispatchCount := wrap (c.dispatchCount - 1) }

def retire (index : Nat) (c : ConnectionI) : ConnectionI :=
  reapWhenIdle (uncount { c with dispatches := c.dispatches.eraseIdx index })

/-- `dispatch` comes to its end. -/
def retireUpcall (index : Nat) (upcall : Upcall) (c : ConnectionI) : ConnectionI :=
  if upcall.hasCallbacks then
    reapWhenIdle (uncount (removeUpcall index c))
  else
    removeUpcall index c

def forget (index : Nat) (upcall : Upcall) (c : ConnectionI) : ConnectionI :=
  replaceUpcall index { upcall with invokeNum := 0 }
    (reapWhenIdle { c with dispatchCount := wrap (c.dispatchCount - upcall.invokeNum) })

/-- The event on a connection that is open, when reading and writing come to their ends. -/
def processed (setup : Setup) (ready : Ready) (c : ConnectionI) : ConnectionI :=
  processMessage setup ready (readPart setup ready (writePart ready c).2).2

inductive Move (setup : Setup) (permits : Fault → Prop) : ConnectionI → ConnectionI → Prop
  | life {c d : ConnectionI} (same : d.still = c.still) (onward : Onward c d)
      (received : Received c d) : Move setup permits c d
  | validated {c : ConnectionI} (early : c.state ≤ .notValidated) :
      Move setup permits c { c with readStream := .fresh }
  | dropped {c : ConnectionI} (datagram : setup.datagram = true) :
      Move setup permits c { c with readStream := .fresh }
  | shutdown {c : ConnectionI} {site : Assertion} {outcome : WriteOutcome}
      (closing : c.state = .closing) (idle : c.dispatchCount = 0)
      (first : c.shutdownInitiated = true → permits .late) (outside : outcome.Outside) :
      Move setup permits c (shutdown setup site outcome c)
  | call {c : ConnectionI} {async notifies compress response : Bool} {os : RequestStream}
      {outcome : WriteOutcome} (validated : .notValidated < c.state) (open_ : c.state < .closing)
      (free : c.exception = none) (outside : outcome.Outside)
      (fresh : response = true → checkSendSize setup os.bytes.length = .ok () → Reuses c →
        permits .reuse) :
      Move setup permits c (sendCall setup async notifies compress response os outcome c).2
  | prepareBatch {c d : ConnectionI} (open_ : c.state < .closing) (free : c.exception = none)
      (prepared : prepareBatchRequest c = some (.ok (), d)) : Move setup permits c d
  | finishBatch {c : ConnectionI} {written : List Byte} {compress : Bool}
      {outcome : WriteOutcome} (inUse : c.batch.inUse = true) (nonempty : written ≠ [])
      (bounded : setup.batchAutoFlush = true ∨
        (c.batch.lent ++ written).length ≤ setup.messageSizeMax)
      (free : c.exception = none ↔ c.state < .closing) (outside : outcome.Outside) :
      Move setup permits c (finishBatchRequest setup written compress outcome c).2
  | abort {c : ConnectionI} (inUse : c.batch.inUse = true) (permitted : permits .abort) :
      Move setup permits c (abortBatchRequest c)
  | flush {c d : ConnectionI} {async notifies : Bool} {outcome : WriteOutcome}
      {result : CallResult} (open_ : c.state < .closing) (free : c.exception = none)
      (outside : outcome.Outside)
      (flushed : flushBatch setup async notifies outcome c = some (result, d)) :
      Move setup permits c d
  | write {c d : ConnectionI} {outcome : WriteOutcome} {status : Except LocalException Bool}
      (open_ : c.state < .closed) (busy : c.sendStreams ≠ [])
      (wrote : writeMessage outcome c = (status, d)) (incomplete : status ≠ .ok true) :
      Move setup permits c d
  | abandon {c d : ConnectionI} {outcome : WriteOutcome} (open_ : c.state < .closed)
      (busy : c.sendStreams ≠ []) (wrote : writeMessage outcome c = (.ok true, d))
      (permitted : permits .abandon) : Move setup permits c d
  | read {c d : ConnectionI} {supply : Supply} {status : Except LocalException Bool}
      (open_ : c.state < .closed) (took : readMessage setup supply c = (status, d))
      (incomplete : status ≠ .ok true) : Move setup permits c d
  | process {c : ConnectionI} {ready : Ready} (validated : .notValidated < c.state)
      (open_ : c.state < .closed) (busy : ready.write = true → c.sendStreams ≠ [])
      (wrote : (writePart ready c).1 = .ok true) (took : (readPart setup ready c).1 = .ok true)
      (outside : ∀ ex ∈ ready.exceptions, ex ≠ .closeConnection true)
      (counted : Overflows setup ready c → permits .overflow) :
      Move setup permits c (processed setup ready c)
  | upcall {c : ConnectionI} {upcall : Upcall} (nothing : upcall.invokeNum = 0)
      (silent : upcall.sentCallbacks = []) (unreplied : upcall.outAsync = none)
      (uncalled : upcall.called = false) :
      Move setup permits c { c with upcalls := c.upcalls ++ [upcall] }
  | throws {c : ConnectionI} {index : Nat} {upcall : Upcall}
      (found : c.upcalls[index]? = some upcall) (uncalled : upcall.called = false)
      (counted : upcall.invokeNum ≠ 0 ∨ upcall.hasCallbacks = true → permits .throws)
      (replied : upcall.outAsync ≠ none → permits .loses) :
      Move setup permits c (removeUpcall index c)
  | callbacks {c : ConnectionI} {index : Nat} {upcall : Upcall}
      (found : c.upcalls[index]? = some upcall) (uncalled : upcall.called = false) :
      Move setup permits c (makeCallbacks index upcall c)
  | invoke {c : ConnectionI} {index : Nat} {upcall : Upcall}
      (found : c.upcalls[index]? = some upcall) (called : upcall.called = true)
      (more : 0 < upcall.invokeNum) : Move setup permits c (invoke setup index upcall none c)
  | forget {c : ConnectionI} {index : Nat} {upcall : Upcall}
      (found : c.upcalls[index]? = some upcall) (called : upcall.called = true)
      (more : 0 < upcall.invokeNum) (closed : .closed ≤ c.state) :
      Move setup permits c (forget index upcall c)
  | done {c : ConnectionI} {index : Nat} {upcall : Upcall}
      (found : c.upcalls[index]? = some upcall) (called : upcall.called = true)
      (nothing : upcall.invokeNum ≤ 0) : Move setup permits c (retireUpcall index upcall c)
  | answered {c : ConnectionI} {index : Nat} {dispatch : Dispatch}
      (found : c.dispatches[index]? = some dispatch)
      (quiet : dispatch.response setup = false ∨ .closed ≤ c.state) :
      Move setup permits c (retire index c)
  | replied {c : ConnectionI} {index : Nat} {dispatch : Dispatch} {body : List Byte}
      {outcome : WriteOutcome} (found : c.dispatches[index]? = some dispatch)
      (response : dispatch.response setup = true) (open_ : c.state < .closed)
      (bounded : (replyStream dispatch.requestId body).length ≤ setup.messageSizeMax)
      (outside : outcome.Outside) :
      Move setup permits c (sendOwn setup outcome
        (ownMessage (replyStream dispatch.requestId body) (0 < dispatch.compress)) (retire index c))
  | finish {c : ConnectionI} (closed : c.state = .closed)
      (unwritten : FrontWritten c → permits .unmarked)
      (outstanding : RepliedEarly c → permits .early) : Move setup permits c (finish setup c)

variable {setup : Setup} {permits : Fault → Prop} {c d e : ConnectionI}

theorem Onward.refl (c : ConnectionI) : Onward c c :=
  ⟨le_rfl, fun _ isSet => isSet, fun finished => finished⟩

theorem Onward.of_same (state : d.state = c.state) (exception : d.exception = c.exception) :
    Onward c d :=
  ⟨by rw [state], fun _ isSet => by rw [exception, isSet], fun finished => by rw [← state, finished]⟩

theorem Onward.trans (first : Onward c d) (second : Onward d e) : Onward c e where
  forward := le_trans first.forward second.forward
  exception := fun ex isSet => second.exception ex (first.exception ex isSet)
  unfinished := fun finished => first.unfinished (second.unfinished finished)

theorem Onward.finished_iff (onward : Onward c d) :
    d.state = .finished ↔ c.state = .finished := by
  constructor
  · exact onward.unfinished
  · intro finished
    have forward := onward.forward
    rw [finished] at forward
    generalize d.state = after at forward
    cases after <;> simp_all [State.stage]

variable {requested : State} {initializing validating : Progress} {index : Nat}
  {holds : ConnectionI → Prop}

theorem switch_go {current target : State} (go : switch setup current requested = .go target) :
    current.stage ≤ target.stage ∧ (target = .finished → requested = .finished) := by
  cases datagram : setup.datagram <;> cases requested <;> cases current <;>
    simp [switch, aim, datagram, State.le_def, State.index] at go <;> subst go <;> decide

theorem shift_onward (other : requested ≠ .finished) : Onward c (shift setup requested c) := by
  unfold shift
  split
  · exact .refl c
  · exact .of_same rfl rfl
  · next target go =>
      refine ⟨(switch_go go).1, fun _ isSet => isSet, ?_⟩
      intro finished
      exact absurd ((switch_go go).2 finished) other

theorem record_exception_onward (ex : LocalException) : Onward c (recordException ex c) := by
  unfold recordException
  split
  · exact .refl c
  · next unset =>
      refine ⟨le_rfl, ?_, fun finished => finished⟩
      intro first isSet
      rw [unset] at isSet
      cases isSet

theorem fail_onward (ex : LocalException) : Onward c (fail setup ex c) := by
  unfold fail
  split
  · exact .refl c
  · exact (record_exception_onward ex).trans (shift_onward (by decide))

variable {ex : LocalException} {outcome : WriteOutcome} {status : Except LocalException Bool}
  {ready : Ready}

theorem fail_received (outside : ex ≠ .closeConnection true) : Received c (fail setup ex c) := by
  intro isReceived
  have recorded : (recordException ex c).exception = some (.closeConnection true) →
      c.exception = some (.closeConnection true) := by
    unfold recordException
    split
    · exact id
    · intro same
      exact absurd (Option.some.inj same) outside
  have shifted : (shift setup .closed (recordException ex c)).exception =
      (recordException ex c).exception := by
    unfold shift
    split <;> rfl
  unfold fail at isReceived
  split at isReceived
  · exact isReceived
  · exact recorded (shifted ▸ isReceived)

theorem fail_moves (outside : ex ≠ .closeConnection true) :
    Move setup permits c (fail setup ex c) :=
  .life (still_of_quiet (fail_quiet ex)) (fail_onward ex) (fail_received outside)

theorem rethrow_moves (isSet : c.exception = some ex) : Move setup permits c (fail setup ex c) := by
  refine .life (still_of_quiet (fail_quiet ex)) (fail_onward ex) ?_
  intro received
  have kept : (fail setup ex c).exception = some ex := (fail_onward ex).exception ex isSet
  rw [isSet, ← kept]
  exact received

theorem shift_exception (requested : State) :
    (shift setup requested c).exception = c.exception := by
  unfold shift
  split <;> rfl

theorem set_state_moves (outcome : WriteOutcome) (target : requested ≠ .closing)
    (other : requested ≠ .finished) :
    Move setup permits c (setState setup outcome requested c) := by
  rw [set_state_shift outcome target]
  refine .life (still_of_quiet (shift_quiet requested)) (shift_onward other) ?_
  intro received
  rw [← shift_exception requested]
  exact received

theorem flag_moves (same : d.still = c.still) (state : d.state = c.state)
    (exception : d.exception = c.exception) : Move setup permits c d :=
  .life same (.of_same state exception) (fun received => by rw [← exception, received])

abbrev Moves (setup : Setup) (permits : Fault → Prop) : ConnectionI → ConnectionI → Prop :=
  ReflTransGen (Move setup permits)

theorem validate_moves (progress : Progress) (early : c.state ≤ .notValidated) :
    Moves setup permits c (validate setup progress c).2 := by
  have fresh : Moves setup permits c { c with readStream := .fresh } := .single (.validated early)
  unfold validate
  dsimp only
  split
  · exact fresh
  · cases progress with
    | fails ex => exact .refl
    | pending => exact .refl
    | done => exact fresh.tail (flag_moves rfl rfl rfl)

theorem establish_moves (initializing validating : Progress) (first : c.state = .notInitialized) :
    Moves setup permits c (establish setup initializing validating c).2 := by
  unfold establish initializeTransceiver
  cases initializing with
  | fails ex => exact .refl
  | pending => exact .refl
  | done =>
      have entered : setState setup noWrite .notValidated c = enter setup .notValidated c := by
        rw [set_state_shift noWrite (by decide), shift, first]
        rfl
      have moved : Moves setup permits c (setState setup noWrite .notValidated c) :=
        .single (set_state_moves noWrite (by decide) (by decide))
      dsimp only
      apply moved.trans
      apply validate_moves validating
      rw [entered]
      exact Nat.le_refl _

theorem validate_error {progress : Progress} (failed : (validate setup progress c).1 = .error ex) :
    ex ∈ progress.exceptions := by
  unfold validate at failed
  dsimp only at failed
  split at failed
  · cases failed
  · cases progress with
    | done => cases failed
    | pending => cases failed
    | fails raised =>
        cases failed
        exact List.mem_singleton_self _

theorem establish_error (failed : (establish setup initializing validating c).1 = .error ex) :
    ex ∈ initializing.exceptions ++ validating.exceptions := by
  unfold establish initializeTransceiver at failed
  cases initializing with
  | done => exact List.mem_append_right _ (validate_error failed)
  | pending => cases failed
  | fails raised =>
      cases failed
      exact List.mem_append_left _ (List.mem_singleton_self _)

def Outside (exceptions : List LocalException) : Prop :=
  ∀ ex ∈ exceptions, ex ≠ .closeConnection true

theorem outside_of_foreign {exceptions : List LocalException}
    (foreign : ∀ ex ∈ exceptions, ex.foreign setup = true) : Outside exceptions := by
  intro ex inside received
  have isForeign := foreign ex inside
  simp [LocalException.foreign, received] at isForeign

theorem start_moves (cycle : LifeCycle setup c) (fresh : c.started = false) (callback : Bool)
    (outside : Outside (initializing.exceptions ++ validating.exceptions)) :
    Moves setup permits c (start setup callback initializing validating c) := by
  have marked : Moves setup permits c { c with started := true } :=
    .single (flag_moves rfl rfl rfl)
  unfold start
  dsimp only
  split
  · split
    · next isSet => exact marked.tail (rethrow_moves isSet)
    · exact marked
  · next open_ =>
      have first : c.state = .notInitialized := by
        obtain first | closed := cycle.unstarted fresh
        · exact first
        · exact absurd closed open_
      have established : Moves setup permits { c with started := true }
          (establish setup initializing validating { c with started := true }).2 :=
        establish_moves initializing validating first
      have failed (ex : LocalException)
          (raised : (establish setup initializing validating { c with started := true }).1 =
            .error ex) : ex ∈ initializing.exceptions ++ validating.exceptions :=
        establish_error raised
      rcases result : establish setup initializing validating { c with started := true } with
        ⟨status, after⟩
      rw [result] at established failed
      replace established := marked.trans established
      cases status with
      | error ex => exact established.tail (fail_moves (outside ex (failed ex rfl)))
      | ok done =>
          cases done with
          | true => exact established.tail (set_state_moves noWrite (by decide) (by decide))
          | false =>
              dsimp only
              split
              · exact established.tail (flag_moves rfl rfl rfl)
              · exact established.tail (flag_moves rfl rfl rfl)

theorem resume_moves : Moves setup permits c (resumeStart setup c) := by
  have marked : Moves setup permits c { c with startWaiting := false } :=
    .single (flag_moves rfl rfl rfl)
  unfold resumeStart
  dsimp only
  split
  · split
    · next isSet => exact marked.tail (rethrow_moves isSet)
    · exact marked
  · exact marked.tail (set_state_moves noWrite (by decide) (by decide))

theorem activate_moves : Moves setup permits c (activate setup c) := by
  unfold activate
  split
  · exact .refl
  · exact .single (set_state_moves noWrite (by decide) (by decide))

theorem hold_moves : Moves setup permits c (hold setup c) := by
  unfold hold
  split
  · exact .refl
  · exact .single (set_state_moves noWrite (by decide) (by decide))

theorem timed_out_moves : Moves setup permits c (timedOut setup c) := by
  unfold timedOut
  split
  · exact .single (fail_moves (by decide))
  · split
    · exact .single (fail_moves (by decide))
    · split
      · exact .single (fail_moves (by decide))
      · exact .refl

theorem enter_moves {target : State} (forward : c.state.stage ≤ target.stage)
    (other : target ≠ .finished) (outside : ex ≠ .closeConnection true) :
    Move setup permits c (enter setup target { c with exception := some (c.exception.getD ex) }) := by
  refine .life rfl ⟨forward, ?_, fun finished => absurd finished other⟩ ?_
  · intro first isSet
    change some (c.exception.getD ex) = _
    rw [isSet, Option.getD_some]
  · intro received
    change some (c.exception.getD ex) = _ at received
    cases isSet : c.exception with
    | some first =>
        rw [isSet, Option.getD_some] at received
        exact received
    | none =>
        rw [isSet, Option.getD_none, Option.some.injEq] at received
        exact absurd received outside

section

variable (cycle : LifeCycle setup c)

include cycle

theorem closing_moves (outside : ex ≠ .closeConnection true) (writes : outcome.Outside) :
    Moves setup permits c (setStateWith setup outcome .closing ex c) := by
  have settled : .closed ≤ c.state → c.exception.isSome := by
    intro closed
    exact cycle.exception.mpr (Nat.le_trans (by decide) closed)
  rw [set_closing_eq outcome ex settled]
  split
  · exact .refl
  · next before =>
      have early : c.state.stage ≤ State.closing.stage := by
        cases state : c.state <;> simp_all [State.le_def, State.index, State.stage]
      have entered : Moves setup permits c
          (enter setup .closing { c with exception := some (c.exception.getD ex) }) :=
        .single (enter_moves early (by decide) outside)
      split
      · exact .single (enter_moves (le_trans early (by decide)) (by decide) outside)
      · split
        · next idle =>
            apply entered.tail (.shutdown rfl idle _ writes)
            intro initiated
            exact absurd (cycle.initiated initiated) before
        · exact entered

theorem destroy_moves (reason : DestructionReason) (outside : outcome.Outside) :
    Moves setup permits c (destroy setup reason outcome c) := by
  unfold destroy
  cases reason with
  | objectAdapterDeactivated => exact closing_moves cycle (by decide) outside
  | communicatorDestroyed => exact closing_moves cycle (by decide) outside

theorem close_moves {force : Bool} (outside : outcome.Outside)
    (closed : close setup force outcome c = some d) : Moves setup permits c d := by
  unfold close at closed
  split at closed
  · rw [Option.some.injEq] at closed
    rw [← closed]
    exact .single (fail_moves (by decide))
  · split at closed
    · cases closed
    · rw [Option.some.injEq] at closed
      rw [← closed]
      exact closing_moves cycle (by decide) outside

theorem monitor_moves (expired : Bool) (outside : outcome.Outside) :
    Moves setup permits c (monitor setup expired outcome c) := by
  unfold monitor
  split
  · exact .refl
  · split
    · exact .refl
    · split
      · exact closing_moves cycle (by decide) outside
      · exact .refl

end

theorem reap_state : (reapWhenIdle c).state = c.state := by
  unfold reapWhenIdle
  split <;> rfl

theorem reap_exception : (reapWhenIdle c).exception = c.exception := by
  unfold reapWhenIdle
  split <;> rfl

theorem reap_initiated : (reapWhenIdle c).shutdownInitiated = c.shutdownInitiated := by
  unfold reapWhenIdle
  split <;> rfl

theorem reap_eq (busy : c.state ≠ .finished ∨ c.dispatchCount ≠ 0) : reapWhenIdle c = c := by
  unfold reapWhenIdle
  rw [if_neg]
  rintro ⟨idle, finished⟩
  obtain other | counted := busy
  · exact other finished
  · exact counted idle

theorem shutdown_when_idle_moves (first : c.shutdownInitiated = true → permits .late)
    (outside : outcome.Outside) : Moves setup permits c (shutdownWhenIdle setup outcome c) := by
  unfold shutdownWhenIdle
  split
  · next idle => exact .single (.shutdown idle.1 idle.2 first outside)
  · exact .refl

theorem rethrown_moves :
    Moves setup permits c (match c.exception with
      | some ex => fail setup ex c
      | none => c) := by
  split
  · next isSet => exact .single (rethrow_moves isSet)
  · exact .refl

theorem answer_moves {dispatch : Dispatch} {body : List Byte} {closing : WriteOutcome}
    (found : c.dispatches[index]? = some dispatch)
    (bounded : (replyStream dispatch.requestId body).length ≤ setup.messageSizeMax)
    (late : c.shutdownInitiated = true → permits .late) (outside : outcome.Outside)
    (closingOutside : closing.Outside) :
    Moves setup permits c (answer setup index dispatch body outcome closing c) := by
  have sameState : (retire index c).state = c.state := reap_state
  have sameInitiated : (retire index c).shutdownInitiated = c.shutdownInitiated := reap_initiated
  unfold answer
  dsimp only
  split
  · next response =>
      change Moves setup permits c (if .closed ≤ (retire index c).state then
        match (retire index c).exception with
          | some ex => fail setup ex (retire index c)
          | none => retire index c
        else _)
      split
      · next closed =>
          rw [sameState] at closed
          have retired : Moves setup permits c (retire index c) :=
            .single (.answered found (Or.inr closed))
          exact retired.trans rethrown_moves
      · next open_ =>
          rw [sameState] at open_
          have replied : Move setup permits c (sendOwn setup outcome
              (ownMessage (replyStream dispatch.requestId body) (0 < dispatch.compress))
              (retire index c)) :=
            .replied found response (not_le_iff_lt.mp open_) bounded outside
          have mute : (sendMessage setup outcome
              (ownMessage (replyStream dispatch.requestId body) (0 < dispatch.compress))
              (retire index c)).2.mute = (retire index c).mute := send_message_mute outcome _
          have initiated := congrArg ConnectionI.shutdownInitiated mute
          unfold sendOwn at replied
          change Moves setup permits c (match sendMessage setup outcome
              (ownMessage (replyStream dispatch.requestId body) (0 < dispatch.compress))
              (retire index c) with
            | (.failed ex _, c) => fail setup ex c
            | (_, c) => shutdownWhenIdle setup closing c)
          rcases sent : sendMessage setup outcome
            (ownMessage (replyStream dispatch.requestId body) (0 < dispatch.compress))
            (retire index c) with ⟨status, after⟩
          rw [sent] at replied initiated
          have first : after.shutdownInitiated = true → permits .late := by
            intro shut
            apply late
            rw [← sameInitiated]
            exact initiated.symm.trans shut
          cases status with
          | failed ex os => exact .single replied
          | sent callback =>
              exact (ReflTransGen.single replied).trans
                (shutdown_when_idle_moves first closingOutside)
          | queued =>
              exact (ReflTransGen.single replied).trans
                (shutdown_when_idle_moves first closingOutside)
  · next oneway =>
      have retired : Moves setup permits c (retire index c) :=
        .single (.answered found (Or.inl (Bool.eq_false_iff.mpr oneway)))
      apply retired.trans
      change Moves setup permits (retire index c) (if .closed ≤ (retire index c).state then
        match (retire index c).exception with
          | some ex => fail setup ex (retire index c)
          | none => retire index c
        else shutdownWhenIdle setup closing (retire index c))
      split
      · exact rethrown_moves
      · apply shutdown_when_idle_moves _ closingOutside
        rw [sameInitiated]
        exact late

theorem done_moves {upcall : Upcall} (found : c.upcalls[index]? = some upcall)
    (called : upcall.called = true) (nothing : upcall.invokeNum ≤ 0) (outside : outcome.Outside) :
    Moves setup permits c (dispatchDone setup outcome upcall (removeUpcall index c)) := by
  have done : Move setup permits c (retireUpcall index upcall c) := .done found called nothing
  unfold retireUpcall at done
  unfold dispatchDone
  split at done
  · next callbacks =>
      rw [if_pos callbacks]
      change Moves setup permits c (if (uncount (removeUpcall index c)).dispatchCount = 0 then
          if (uncount (removeUpcall index c)).state = .closing ∧
              (uncount (removeUpcall index c)).shutdownInitiated = false then
            shutdown setup .initiateShutdown outcome (uncount (removeUpcall index c))
          else reapWhenIdle (uncount (removeUpcall index c))
        else uncount (removeUpcall index c))
      generalize uncount (removeUpcall index c) = removed at done ⊢
      split
      · next idle =>
          split
          · next closing =>
              have other : removed.state ≠ .finished := by
                rw [closing.1]
                decide
              rw [reap_eq (Or.inl other)] at done
              apply (ReflTransGen.single done).tail
              apply Move.shutdown closing.1 idle _ outside
              intro initiated
              rw [closing.2] at initiated
              cases initiated
          · exact .single done
      · next busy =>
          rw [reap_eq (Or.inr busy)] at done
          exact .single done
  · next silent =>
      rw [if_neg silent]
      exact .single done

theorem invoke_moves {upcall : Upcall} {fatal : Option LocalException}
    (found : c.upcalls[index]? = some upcall) (called : upcall.called = true)
    (more : 0 < upcall.invokeNum) (outside : Outside fatal.toList) :
    Moves setup permits c (invoke setup index upcall fatal c) := by
  cases fatal with
  | none => exact .single (.invoke found called more)
  | some ex =>
      have failed : Move setup permits c (fail setup ex c) :=
        fail_moves (outside ex (by simp))
      have kept : (fail setup ex c).upcalls = c.upcalls :=
        congrArg Tally.upcalls (tally_of_bare (bare_of_quiet (fail_quiet ex)))
      have forgotten : Move setup permits (fail setup ex c) (forget index upcall (fail setup ex c)) :=
        .forget (by rw [kept, found]) called more (fail_closed ex)
      have same : invoke setup index upcall (some ex) c = forget index upcall (fail setup ex c) := by
        simp only [invoke, invokeException, forget, more, if_true]
      rw [same]
      exact (ReflTransGen.single failed).tail forgotten

def advance (buffer : Buffer) (delivered : List Byte) (c : ConnectionI) : ConnectionI :=
  { c with writeStream := buffer, delivered := delivered }

theorem write_message_advances (outcome : WriteOutcome) :
    ∃ buffer delivered, (writeMessage outcome c).2 = advance buffer delivered c := by
  unfold writeMessage
  split
  · exact ⟨c.writeStream, c.delivered, rfl⟩
  · exact ⟨_, _, rfl⟩

theorem advanced_of_write (wrote : writeMessage outcome c = (status, d)) :
    ∃ buffer delivered, d = advance buffer delivered c := by
  obtain ⟨buffer, delivered, advanced⟩ : ∃ buffer delivered, (writeMessage outcome c).2 =
    advance buffer delivered c := write_message_advances outcome
  rw [wrote] at advanced
  exact ⟨buffer, delivered, advanced⟩

theorem write_part_advances (ready : Ready) :
    ∃ buffer delivered, (writePart ready c).2 = advance buffer delivered c := by
  unfold writePart
  split
  · exact write_message_advances _
  · exact ⟨c.writeStream, c.delivered, rfl⟩

theorem fill_advanced (supply : Supply) (buffer : Buffer) (delivered : List Byte) :
    fill supply (advance buffer delivered c) =
      ((fill supply c).1, (fill supply c).2.1, advance buffer delivered (fill supply c).2.2) := by
  unfold fill
  dsimp only [advance]
  split
  · rfl
  · split <;> rfl

theorem read_body_advanced (supply : Supply) (buffer : Buffer) (delivered : List Byte) :
    readBody setup supply (advance buffer delivered c) =
      ((readBody setup supply c).1, advance buffer delivered (readBody setup supply c).2) := by
  unfold readBody
  rw [fill_advanced]
  change (if c.readStream.bytes.length = c.readStream.size then _ else _) = _
  split
  · rfl
  · split <;> rfl

theorem read_header_advanced (supply : Supply) (buffer : Buffer) (delivered : List Byte) :
    readHeader setup supply (advance buffer delivered c) =
      ((readHeader setup supply c).1, (readHeader setup supply c).2.1,
        advance buffer delivered (readHeader setup supply c).2.2) := by
  unfold readHeader
  split
  · split <;> rfl
  · exact fill_advanced supply buffer delivered

theorem read_message_advanced (supply : Supply) (buffer : Buffer) (delivered : List Byte) :
    readMessage setup supply (advance buffer delivered c) =
      ((readMessage setup supply c).1,
        advance buffer delivered (readMessage setup supply c).2) := by
  unfold readMessage
  rw [read_header_advanced, read_body_advanced]
  change (if c.readStream.size = 0 then _ else if c.readStream.header = true then _ else _) = _
  split
  · rfl
  · split
    · rcases readHeader setup supply c with ⟨status, left, after⟩
      cases status with
      | error ex => rfl
      | ok done =>
          cases done with
          | false => rfl
          | true =>
              have same : (advance buffer delivered after).readStream.bytes =
                  after.readStream.bytes := rfl
              dsimp only
              rw [same]
              cases checkHeader setup after.readStream.bytes with
              | error ex => rfl
              | ok size =>
                  exact @read_body_advanced setup { after with
                    readStream := { after.readStream with
                      header := false, size := max size after.readStream.size } }
                    left buffer delivered
    · rfl

theorem read_part_advanced (ready : Ready) (buffer : Buffer) (delivered : List Byte) :
    readPart setup ready (advance buffer delivered c) =
      ((readPart setup ready c).1, advance buffer delivered (readPart setup ready c).2) := by
  unfold readPart
  split
  · exact read_message_advanced ready.supply buffer delivered
  · rfl

variable {supply : Supply}

theorem fill_error (failed : (fill supply c).1 = .error ex) : supply.failure = some ex := by
  unfold fill at failed
  dsimp only at failed
  split at failed
  · cases failed
  · cases failure : supply.failure with
    | none => simp [failure] at failed
    | some raised =>
        simp only [failure, Except.error.injEq] at failed
        rw [failed]

theorem fill_failure (supply : Supply) : (fill supply c).2.1.failure = supply.failure := by
  unfold fill
  dsimp only
  split
  · rfl
  · split
    · next isSet => exact isSet ▸ rfl
    · next isSet => exact isSet ▸ rfl

theorem check_header_error {bytes : List Byte} (failed : checkHeader setup bytes = .error ex) :
    ex.foreign setup = true := by
  unfold checkHeader at failed
  repeat' split at failed
  all_goals cases failed
  all_goals simp [LocalException.foreign]

theorem read_body_error (foreign : ∀ raised ∈ supply.failure.toList, raised.foreign setup = true)
    (failed : (readBody setup supply c).1 = .error ex) : ex.foreign setup = true := by
  unfold readBody at failed
  split at failed
  · cases failed
  · split at failed
    · next datagram =>
        cases failed
        simp [LocalException.foreign, datagram]
    · exact foreign ex (by rw [fill_error failed]; simp)

theorem read_header_error (failed : (readHeader setup supply c).1 = .error ex) :
    supply.failure = some ex := by
  unfold readHeader at failed
  split at failed
  · split at failed
    · next failure =>
        cases failed
        exact failure
    · cases failed
  · exact fill_error failed

theorem read_header_failure (supply : Supply) :
    (readHeader setup supply c).2.1.failure = supply.failure := by
  unfold readHeader
  split
  · split
    · rfl
    · rfl
  · exact fill_failure supply

theorem read_message_error (foreign : ∀ raised ∈ supply.failure.toList, raised.foreign setup = true)
    (failed : (readMessage setup supply c).1 = .error ex) : ex.foreign setup = true := by
  have headerError (raised : LocalException)
      (isRaised : (readHeader setup supply c).1 = .error raised) :
      raised.foreign setup = true :=
    foreign raised (by rw [read_header_error isRaised]; simp)
  have sameFailure : (readHeader setup supply c).2.1.failure = supply.failure :=
    read_header_failure supply
  unfold readMessage at failed
  split at failed
  · cases failed
  · split at failed
    · rcases result : readHeader setup supply c with ⟨status, left, after⟩
      rw [result] at failed headerError sameFailure
      cases status with
      | error raised =>
          cases failed
          exact headerError ex rfl
      | ok done =>
          cases done with
          | false => cases failed
          | true =>
              dsimp only at failed sameFailure
              rw [← sameFailure] at foreign
              split at failed
              · next bad =>
                  cases failed
                  exact check_header_error bad
              · exact read_body_error foreign failed
    · exact read_body_error foreign failed

theorem caught_moves (foreign : ex.foreign setup = true) :
    Moves setup permits c (caught setup ex c) := by
  simp only [LocalException.foreign, Bool.and_eq_true, Bool.or_eq_true, decide_eq_true_eq]
    at foreign
  obtain ⟨outside, datagram⟩ := foreign
  unfold caught
  split
  · next limit =>
      refine .single (.dropped ?_)
      obtain datagram | other := datagram
      · exact datagram
      · exact absurd limit other
  · split
    · exact .single (fail_moves outside)
    · split
      · next datagram => exact .single (.dropped datagram)
      · exact .single (fail_moves outside)

theorem establishing_moves (early : c.state ≤ .notValidated)
    (foreign : ∀ ex ∈ ready.exceptions, ex.foreign setup = true) :
    Moves setup permits c (establishing setup ready c) := by
  have initializing (ex : LocalException) (inside : ex ∈ ready.initializing.exceptions ++
      ready.validating.exceptions) : ex.foreign setup = true :=
    foreign ex (List.mem_append_left _ (List.mem_append_left _ (List.mem_append_left _ inside)))
  generalize isResult : (if c.state = .notInitialized then
    establish setup ready.initializing ready.validating c
    else validate setup ready.validating c) = result
  have moved : Moves setup permits c result.2 := by
    rw [← isResult]
    split
    · next first => exact establish_moves _ _ first
    · exact validate_moves _ early
  have failed (ex : LocalException) (raised : result.1 = .error ex) : ex.foreign setup = true := by
    apply initializing
    rw [← isResult] at raised
    split at raised
    · exact establish_error raised
    · exact List.mem_append_right _ (validate_error raised)
  unfold establishing
  dsimp only
  rw [isResult]
  rcases result with ⟨status, after⟩
  cases status with
  | error ex => exact moved.trans (caught_moves (failed ex rfl))
  | ok done =>
      cases done with
      | false => exact moved
      | true =>
          have held : Moves setup permits c (setState setup noWrite .holding after) :=
            moved.tail (set_state_moves noWrite (by decide) (by decide))
          have cleared : Moves setup permits c
              { setState setup noWrite .holding after with startCallback := false } :=
            held.tail (flag_moves rfl rfl rfl)
          exact cleared.tail (.upcall rfl rfl rfl rfl)

theorem write_message_error (failed : (writeMessage outcome c).1 = .error ex) :
    outcome.failure = some ex := by
  unfold writeMessage at failed
  split at failed
  · cases failed
  · dsimp only [writeBuffer] at failed
    split at failed
    · cases failed
    · cases failure : outcome.failure with
      | none => simp [failure] at failed
      | some raised =>
          simp only [failure, Except.error.injEq] at failed
          rw [failed]

theorem head_outcome {writes : List WriteOutcome}
    (failed : (writes.headD noWrite).failure = some ex) :
    ex ∈ writes.flatMap WriteOutcome.exceptions := by
  cases writes with
  | nil => cases failed
  | cons outcome rest =>
      apply List.mem_flatMap.mpr
      exact ⟨outcome, List.mem_cons_self, by simpa [WriteOutcome.exceptions] using failed⟩

theorem write_part_error (foreign : ∀ raised ∈ ready.exceptions, raised.foreign setup = true)
    (failed : (writePart ready c).1 = .error ex) : ex.foreign setup = true := by
  unfold writePart at failed
  split at failed
  · apply foreign
    apply List.mem_append_left
    exact List.mem_append_right _ (head_outcome (write_message_error failed))
  · cases failed

theorem read_part_error (foreign : ∀ raised ∈ ready.exceptions, raised.foreign setup = true)
    (failed : (readPart setup ready c).1 = .error ex) : ex.foreign setup = true := by
  unfold readPart at failed
  split at failed
  · apply read_message_error _ failed
    intro raised inside
    apply foreign
    apply List.mem_append_left
    apply List.mem_append_left
    exact List.mem_append_right _ inside
  · cases failed

theorem write_part_moves {w : ConnectionI} (open_ : c.state < .closed)
    (busy : ready.write = true → c.sendStreams ≠ []) (wrote : writePart ready c = (status, w))
    (incomplete : status ≠ .ok true) : Move setup permits c w := by
  unfold writePart at wrote
  split at wrote
  · next writes => exact .write open_ (busy writes) wrote incomplete
  · cases wrote
    exact absurd rfl incomplete

theorem abandon_moves {w : ConnectionI} (validated : .notValidated < c.state)
    (open_ : c.state < .closed) (busy : ready.write = true → c.sendStreams ≠ [])
    (wrote : writePart ready c = (.ok true, w)) (incomplete : (readPart setup ready c).1 ≠ .ok true)
    (abandons : Abandons setup ready c → permits .abandon) : Moves setup permits c w := by
  by_cases writes : ready.write = true
  · have permitted := abandons ⟨validated, open_, writes, by rw [wrote], incomplete⟩
    rw [writePart, if_pos writes] at wrote
    exact .single (.abandon open_ (busy writes) wrote permitted)
  · rw [writePart, if_neg writes] at wrote
    cases wrote
    exact .refl

theorem read_part_moves {r : ConnectionI} (open_ : c.state < .closed)
    (took : readPart setup ready c = (status, r)) (incomplete : status ≠ .ok true) :
    Move setup permits c r := by
  unfold readPart at took
  split at took
  · exact .read open_ took incomplete
  · cases took
    exact absurd rfl incomplete

theorem exchange_moves (validated : .notValidated < c.state) (open_ : c.state < .closed)
    (busy : ready.write = true → c.sendStreams ≠ [])
    (foreign : ∀ ex ∈ ready.exceptions, ex.foreign setup = true)
    (abandons : Abandons setup ready c → permits .abandon)
    (counted : Overflows setup ready c → permits .overflow) :
    Moves setup permits c (exchange setup ready c) := by
  obtain ⟨buffer, delivered, advanced⟩ := write_part_advances (c := c) ready
  have processes (wrote : (writePart ready c).1 = .ok true)
      (took : (readPart setup ready c).1 = .ok true) :
      Moves setup permits c (processed setup ready c) :=
    .single (.process validated open_ busy wrote took (outside_of_foreign foreign) counted)
  unfold processed at processes
  unfold exchange
  rcases wrote : writePart ready c with ⟨status, w⟩
  rw [wrote] at processes advanced
  dsimp only at processes advanced
  cases status with
  | error ex =>
      have moved : Moves setup permits c w :=
        .single (write_part_moves open_ busy wrote (by simp))
      exact moved.trans (caught_moves (write_part_error foreign (by rw [wrote])))
  | ok done =>
      cases done with
      | false => exact .single (write_part_moves open_ busy wrote (by simp))
      | true =>
          have same : (readPart setup ready w).1 = (readPart setup ready c).1 := by
            rw [advanced, read_part_advanced]
          have stillOpen : w.state < .closed := by
            rw [advanced]
            exact open_
          dsimp only
          rcases took : readPart setup ready w with ⟨status, r⟩
          rw [took] at processes same
          dsimp only at processes same
          rw [← same] at processes
          have stopped (incomplete : status ≠ .ok true) : Moves setup permits c r :=
            (abandon_moves validated open_ busy wrote (same ▸ incomplete) abandons).tail
              (read_part_moves stillOpen took incomplete)
          cases status with
          | error ex =>
              exact (stopped (by simp)).trans
                (caught_moves (read_part_error foreign (by rw [took])))
          | ok done =>
              cases done with
              | false => exact stopped (by simp)
              | true => exact processes rfl rfl

theorem message_moves (busy : ready.write = true → .notValidated < c.state → c.sendStreams ≠ [])
    (foreign : ∀ ex ∈ ready.exceptions, ex.foreign setup = true)
    (abandons : Abandons setup ready c → permits .abandon)
    (counted : Overflows setup ready c → permits .overflow) :
    Moves setup permits c (message setup ready c) := by
  unfold message
  split
  · exact .refl
  · next open_ =>
      split
      · next early => exact establishing_moves early foreign
      · next late =>
          have validated := not_le_iff_lt.mp late
          exact exchange_moves validated (not_le_iff_lt.mp open_)
            (fun writes => busy writes validated) foreign abandons counted

theorem write_outside (foreign : ∀ ex ∈ outcome.exceptions, ex.foreign setup = true) :
    outcome.Outside := by
  intro received
  apply outside_of_foreign foreign _ _ rfl
  simp [WriteOutcome.exceptions, received]

section

variable (cycle : LifeCycle setup c)

include cycle

theorem LifeCycle.open_of_free (free : c.exception = none) : c.state < .closing := by
  apply not_le_iff_lt.mp
  intro late
  have isSet := cycle.exception.mpr late
  rw [free] at isSet
  cases isSet

theorem LifeCycle.free_iff : c.exception = none ↔ c.state < .closing := by
  constructor
  · exact cycle.open_of_free
  · intro open_
    cases isSet : c.exception with
    | none => rfl
    | some ex =>
        have late := cycle.exception.mp (by rw [isSet]; rfl)
        exact absurd open_ (Nat.not_lt.mpr late)

theorem call_moves (async notifies compress response : Bool) (os : RequestStream)
    (validated : .notValidated < c.state) (outside : outcome.Outside)
    (fresh : response = true → c.exception = none → checkSendSize setup os.bytes.length = .ok () →
      Reuses c → permits .reuse) :
    Moves setup permits c (sendCall setup async notifies compress response os outcome c).2 := by
  cases isSet : c.exception with
  | none =>
      exact .single (.call validated (cycle.open_of_free isSet) isSet outside
        (fun response => fresh response isSet))
  | some ex =>
      have refused : sendCall setup async notifies compress response os outcome c =
          (.refused ex, c) := by
        simp only [sendCall, isSet]
      rw [refused]

theorem flush_moves {async notifies : Bool} {result : CallResult} (outside : outcome.Outside)
    (flushed : flushBatch setup async notifies outcome c = some (result, d)) :
    Moves setup permits c d := by
  cases isSet : c.exception with
  | none => exact .single (.flush (cycle.open_of_free isSet) isSet outside flushed)
  | some ex =>
      simp only [flushBatch, isSet, reduceCtorEq, and_false, if_false, Option.some.injEq,
        Prod.mk.injEq] at flushed
      rw [← flushed.2]

theorem prepare_batch_moves {result : Except (LocalException × Bool) Unit}
    (prepared : prepareBatchRequest c = some (result, d)) : Moves setup permits c d := by
  cases isSet : c.exception with
  | none =>
      have succeeded : result = .ok () := by
        simp only [prepareBatchRequest, isSet] at prepared
        split at prepared
        · cases prepared
        · simp only [Option.some.injEq, Prod.mk.injEq] at prepared
          exact prepared.1.symm
      subst succeeded
      exact .single (.prepareBatch (cycle.open_of_free isSet) isSet prepared)
  | some ex =>
      simp only [prepareBatchRequest, isSet, reduceCtorEq, and_false, if_false, Option.some.injEq,
        Prod.mk.injEq] at prepared
      rw [← prepared.2]

theorem step_moves {event : Event} (stepped : step setup event c = some d) :
    Moves setup (event.commits setup c) c d := by
  obtain ⟨foreign, performed⟩ := step_some stepped
  unfold perform at performed
  cases event with
  | start callback initializing validating =>
      obtain ⟨fresh, rfl⟩ := guard_and_some performed
      exact start_moves cycle fresh callback (outside_of_foreign foreign)
  | resumeStart =>
      obtain ⟨_, rfl⟩ := guard_and_some performed
      exact resume_moves
  | activate =>
      obtain rfl := Option.some.inj performed
      exact activate_moves
  | hold =>
      obtain rfl := Option.some.inj performed
      exact hold_moves
  | destroy reason outcome =>
      obtain rfl := Option.some.inj performed
      exact destroy_moves cycle reason (write_outside foreign)
  | close force outcome => exact close_moves cycle (write_outside foreign) performed
  | monitor expired outcome =>
      obtain rfl := Option.some.inj performed
      exact monitor_moves cycle expired (write_outside foreign)
  | timedOut =>
      obtain rfl := Option.some.inj performed
      exact timed_out_moves
  | exception ex =>
      obtain rfl := Option.some.inj performed
      exact .single (fail_moves (outside_of_foreign foreign ex (List.mem_singleton_self ex)))
  | sendRequest compress response os outcome =>
      obtain ⟨validated, rfl⟩ := guard_and_some performed
      apply call_moves cycle false false compress response os validated (write_outside foreign)
      rintro rfl free fits reused
      exact ⟨reused, free, Or.inl ⟨compress, os, outcome, rfl, fits⟩⟩
  | sendAsyncRequest notifies compress response os outcome =>
      obtain ⟨validated, rfl⟩ := guard_and_some performed
      apply call_moves cycle true notifies compress response os validated (write_outside foreign)
      rintro rfl free fits reused
      exact ⟨reused, free, Or.inr ⟨notifies, compress, os, outcome, rfl, fits⟩⟩
  | prepareBatchRequest =>
      dsimp only at performed
      split at performed
      · obtain ⟨⟨result, after⟩, prepared, rfl⟩ := Option.map_eq_some_iff.mp performed
        exact prepare_batch_moves cycle prepared
      · cases performed
  | finishBatchRequest written compress outcome =>
      obtain ⟨⟨inUse, nonempty, bounded⟩, rfl⟩ := guard_and_some performed
      exact .single
        (.finishBatch inUse nonempty bounded cycle.free_iff (write_outside foreign))
  | abortBatchRequest =>
      obtain ⟨inUse, rfl⟩ := guard_and_some performed
      exact .single (.abort inUse rfl)
  | flushBatchRequests outcome =>
      dsimp only at performed
      split at performed
      · obtain ⟨⟨result, after⟩, flushed, rfl⟩ := Option.map_eq_some_iff.mp performed
        exact flush_moves cycle (write_outside foreign) flushed
      · cases performed
  | flushAsyncBatchRequests notifies outcome =>
      dsimp only at performed
      split at performed
      · obtain ⟨⟨result, after⟩, flushed, rfl⟩ := Option.map_eq_some_iff.mp performed
        exact flush_moves cycle (write_outside foreign) flushed
      · cases performed
  | message ready =>
      obtain ⟨⟨_, busy⟩, rfl⟩ := guard_and_some performed
      apply message_moves busy foreign
      · intro abandons
        exact ⟨ready, rfl, abandons⟩
      · intro overflows
        exact ⟨ready, rfl, overflows⟩
  | dispatcherThrows index =>
      dsimp only at performed
      split at performed
      · cases performed
      · next found =>
          obtain ⟨uncalled, rfl⟩ := guard_and_some performed
          exact .single (.throws found uncalled.2
            (fun counted => ⟨index, _, rfl, found, counted⟩)
            (fun replied => ⟨index, _, rfl, found, replied⟩))
  | callbacks index =>
      dsimp only at performed
      split at performed
      · cases performed
      · next found =>
          obtain ⟨uncalled, rfl⟩ := guard_and_some performed
          exact .single (.callbacks found uncalled)
  | invoke index fatal =>
      dsimp only at performed
      split at performed
      · cases performed
      · next found =>
          obtain ⟨⟨called, more⟩, rfl⟩ := guard_and_some performed
          exact invoke_moves found called more (outside_of_foreign foreign)
  | dispatchDone index outcome =>
      dsimp only at performed
      split at performed
      · cases performed
      · next found =>
          obtain ⟨⟨called, nothing⟩, rfl⟩ := guard_and_some performed
          exact done_moves found called nothing (write_outside foreign)
  | answer index body outcome closing =>
      dsimp only at performed
      split at performed
      · cases performed
      · next found =>
          obtain ⟨bounded, rfl⟩ := guard_and_some performed
          apply answer_moves found bounded
          · intro initiated
            exact ⟨initiated, index, body, outcome, closing, rfl⟩
          · apply write_outside
            intro ex inside
            exact foreign ex (List.mem_append_left _ inside)
          · apply write_outside
            intro ex inside
            exact foreign ex (List.mem_append_right _ inside)
  | finish =>
      obtain ⟨closed, rfl⟩ := guard_and_some performed
      exact .single (.finish closed (fun wrote => ⟨rfl, wrote⟩) (fun replied => ⟨rfl, replied⟩))

end

/-- A move that is neither an exception of a user Dispatcher nor the end of the connection depends
on the other faults only. -/
theorem Move.narrow {others : Fault → Prop}
    (implies : ∀ fault, fault ∉ [.throws, .loses, .unmarked, .early] → permits fault →
      others fault) (move : Move setup permits c d) :
    Move setup others c d ∨
      (∃ index upcall, c.upcalls[index]? = some upcall ∧ upcall.called = false ∧
        (upcall.invokeNum ≠ 0 ∨ upcall.hasCallbacks = true → permits .throws) ∧
        (upcall.outAsync ≠ none → permits .loses) ∧ d = removeUpcall index c) ∨
      c.state = .closed ∧ (FrontWritten c → permits .unmarked) ∧
        (RepliedEarly c → permits .early) ∧ d = Connection.finish setup c := by
  cases move with
  | throws found uncalled counted replied =>
      exact .inr (.inl ⟨_, _, found, uncalled, counted, replied, rfl⟩)
  | finish closed unwritten outstanding =>
      exact .inr (.inr ⟨closed, unwritten, outstanding, rfl⟩)
  | life same onward received => exact .inl (.life same onward received)
  | validated early => exact .inl (.validated early)
  | dropped datagram => exact .inl (.dropped datagram)
  | shutdown closing idle first outside =>
      exact .inl (.shutdown closing idle (fun shut => implies _ (by decide) (first shut)) outside)
  | call validated open_ free outside fresh =>
      exact .inl (.call validated open_ free outside
        (fun response fits reused => implies _ (by decide) (fresh response fits reused)))
  | prepareBatch open_ free prepared => exact .inl (.prepareBatch open_ free prepared)
  | finishBatch inUse nonempty bounded free outside =>
      exact .inl (.finishBatch inUse nonempty bounded free outside)
  | abort inUse permitted => exact .inl (.abort inUse (implies _ (by decide) permitted))
  | flush open_ free outside flushed => exact .inl (.flush open_ free outside flushed)
  | write open_ busy wrote incomplete => exact .inl (.write open_ busy wrote incomplete)
  | abandon open_ busy wrote permitted =>
      exact .inl (.abandon open_ busy wrote (implies _ (by decide) permitted))
  | read open_ took incomplete => exact .inl (.read open_ took incomplete)
  | process validated open_ busy wrote took outside counted =>
      exact .inl (.process validated open_ busy wrote took outside
        (fun exceeds => implies _ (by decide) (counted exceeds)))
  | upcall nothing silent unreplied uncalled =>
      exact .inl (.upcall nothing silent unreplied uncalled)
  | callbacks found uncalled => exact .inl (.callbacks found uncalled)
  | invoke found called more => exact .inl (.invoke found called more)
  | forget found called more closed => exact .inl (.forget found called more closed)
  | done found called nothing => exact .inl (.done found called nothing)
  | answered found quiet => exact .inl (.answered found quiet)
  | replied found response open_ bounded outside =>
      exact .inl (.replied found response open_ bounded outside)

theorem Move.mono {others : Fault → Prop} (implies : ∀ fault, permits fault → others fault)
    (move : Move setup permits c d) : Move setup others c d := by
  obtain narrowed | ⟨index, upcall, found, uncalled, counted, replied, rfl⟩ |
    ⟨closed, unwritten, outstanding, rfl⟩ := move.narrow fun fault _ => implies fault
  · exact narrowed
  · exact .throws found uncalled (fun counts => implies _ (counted counts))
      (fun reply => implies _ (replied reply))
  · exact .finish closed (fun wrote => implies _ (unwritten wrote))
      (fun early => implies _ (outstanding early))

def Avoids (setup : Setup) (faults : List Fault) (event : Event) (c : ConnectionI) : Prop :=
  ∀ fault ∈ faults, ¬ event.commits setup c fault

def Event.sound (setup : Setup) (event : Event) (c : ConnectionI) : Bool :=
  match event with
  | .message ready => !decide (Abandons setup ready c) && !decide (Overflows setup ready c)
  | .sendRequest _ response _ _ => !response || !decide (Reuses c)
  | .sendAsyncRequest _ _ response _ _ => !response || !decide (Reuses c)
  | .finish => !decide (FrontWritten c) && !decide (RepliedEarly c)
  | .dispatcherThrows _ => false
  | .abortBatchRequest => false
  | .answer _ _ _ _ => !c.shutdownInitiated
  | _ => true

theorem avoids_of_sound (faults : List Fault) (event : Event) (c : ConnectionI)
    (sound : event.sound setup c = true) : Avoids setup faults event c := by
  intro fault _ committed
  cases fault with
  | abandon =>
      obtain ⟨ready, rfl, abandons⟩ := committed
      simp [Event.sound, abandons] at sound
  | reuse =>
      obtain ⟨reuses, _, ⟨_, _, _, rfl, _⟩ | ⟨_, _, _, _, rfl, _⟩⟩ := committed <;>
        simp [Event.sound, reuses] at sound
  | unmarked =>
      obtain ⟨rfl, wrote⟩ := committed
      simp [Event.sound, wrote] at sound
  | early =>
      obtain ⟨rfl, replied⟩ := committed
      simp [Event.sound, replied] at sound
  | throws =>
      obtain ⟨_, _, rfl, _⟩ := committed
      cases sound
  | loses =>
      obtain ⟨_, _, rfl, _⟩ := committed
      cases sound
  | overflow =>
      obtain ⟨ready, rfl, overflows⟩ := committed
      simp [Event.sound, overflows] at sound
  | abort =>
      obtain rfl : event = .abortBatchRequest := committed
      cases sound
  | late =>
      obtain ⟨initiated, _, _, _, _, rfl⟩ := committed
      simp [Event.sound, initiated] at sound

theorem Moves.invariant (moves : Moves setup permits c d)
    (preserved : ∀ before after, holds before → Move setup permits before after → holds after)
    (initially : holds c) : holds d := by
  induction moves with
  | refl => exact initially
  | tail _ move ih => exact preserved _ _ ih move

theorem moves_of_step {faults : List Fault} {event : Event} (cycle : LifeCycle setup c)
    (avoids : Avoids setup faults event c) (stepped : step setup event c = some d) :
    Moves setup (fun fault => fault ∉ faults) c d := by
  refine ReflTransGen.mono ?_ _ _ (step_moves cycle stepped)
  intro before after move
  apply move.mono
  intro fault committed inside
  exact avoids fault inside committed

theorem invariant_of_moves {faults : List Fault}
    (reached : Reach (step setup) (Avoids setup faults) .initial c) (initially : holds .initial)
    (preserved : ∀ before after, holds before →
      Move setup (fun fault => fault ∉ faults) before after → holds after) : holds c := by
  have both : LifeCycle setup c ∧ holds c := by
    apply reached.invariant ⟨life_cycle_initial, initially⟩
    rintro event before after ⟨cycle, held⟩ avoids stepped
    exact ⟨(cycle.after_step stepped).cycle,
      (moves_of_step cycle avoids stepped).invariant preserved held⟩
  exact both.2

end IceTouch.Connection

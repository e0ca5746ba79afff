import IceTouch.Connection.Traffic

/-!
# The messages that are handed over

Which messages a move hands to `sendMessage`, whatever becomes of them.
-/

namespace IceTouch.Connection

open Bytes Machine

/-- The messages that a move can hand over: the close message, a request, a reply, and a batch,
as a whole or without its last request. -/
inductive Hand (setup : Setup) (c : ConnectionI) : OutgoingMessage → Prop
  | close : Hand setup c closeMessage
  | request {async notifies compress response : Bool} {os : RequestStream}
      (fits : checkSendSize setup os.bytes.length = .ok ()) :
      Hand setup c (requestMessage async notifies compress response os c)
  | reply {dispatch : Dispatch} {body : List Byte}
      (bounded : (replyStream dispatch.requestId body).length ≤ setup.messageSizeMax) :
      Hand setup c
        (ownMessage (replyStream dispatch.requestId body) (0 < dispatch.compress))
  | flush {call : Option Call} (open_ : c.state < .closing) (unused : c.batch.inUse = false)
      (some_ : c.batch.requestNum ≠ 0) : Hand setup c (batchMessage call c.batch)
  | split {request : List Byte} (open_ : c.state < .closing) (inUse : c.batch.inUse = true)
      (some_ : 0 < c.batch.requestNum) :
      Hand setup c (batchMessage none (frontBatch (returnBatch request c)))

variable {setup : Setup} {permits : Fault → Prop} {c d e : ConnectionI}

theorem send_message_handed (outcome : WriteOutcome) (message : OutgoingMessage) :
    (sendMessage setup outcome message c).2.handed = c.handed ++ [message] := by
  unfold sendMessage
  dsimp only
  split
  · rfl
  · split
    · rfl
    · split
      · rfl
      · rw [notify_sent_eq]
      · rfl

theorem fail_handed (ex : LocalException) : (fail setup ex c).handed = c.handed :=
  congrArg Pipe.handed (fail_pipe ex)

theorem send_own_handed (outcome : WriteOutcome) (message : OutgoingMessage) :
    (sendOwn setup outcome message c).handed = c.handed ++ [message] := by
  have handed : (sendMessage setup outcome message c).2.handed = c.handed ++ [message] :=
    send_message_handed outcome message
  unfold sendOwn
  generalize sendMessage setup outcome message c = result at handed ⊢
  rcases result with ⟨status, after⟩
  cases status with
  | failed ex os => exact (fail_handed ex).trans handed
  | sent callback => exact handed
  | queued => exact handed

theorem shutdown_handed (site : Assertion) (outcome : WriteOutcome) :
    ∃ added, (shutdown setup site outcome c).handed = c.handed ++ added ∧
      (added = [] ∨ added = [closeMessage]) := by
  rw [shutdown_eq]
  dsimp only
  split
  · exact ⟨[], (List.append_nil _).symm, Or.inl rfl⟩
  · exact ⟨[closeMessage], send_own_handed outcome closeMessage, Or.inr rfl⟩

theorem send_for_call_handed (outcome : WriteOutcome) (message : OutgoingMessage)
    (response : Bool) :
    (sendForCall setup outcome message response c).2.handed = c.handed ++ [message] := by
  have handed : (sendMessage setup outcome message c).2.handed = c.handed ++ [message] :=
    send_message_handed outcome message
  unfold sendForCall
  generalize sendMessage setup outcome message c = result at handed ⊢
  rcases result with ⟨status, after⟩
  cases status with
  | failed ex os => exact (fail_handed ex).trans handed
  | sent callback => exact handed
  | queued => exact handed

variable {outcome : WriteOutcome}

theorem send_call_handed {async notifies compress response : Bool} {os : RequestStream}
    (free : c.exception = none) (fits : checkSendSize setup os.bytes.length = .ok ()) :
    (sendCall setup async notifies compress response os outcome c).2.handed =
      c.handed ++ [requestMessage async notifies compress response os c] := by
  have issued : (issue response c).handed = c.handed :=
    congrArg Pipe.handed (issue_pipe response)
  have enrolled (requestId : Int) (call : Call) (e : ConnectionI) :
      (enroll response requestId call e).handed = e.handed :=
    congrArg Pipe.handed (enroll_pipe response requestId call)
  have handed : (sendForCall setup outcome
      (requestMessage async notifies compress response os c) response
      (issue response c)).2.handed = _ := send_for_call_handed outcome _ response
  rw [issued] at handed
  rw [send_call_eq free fits]
  generalize sendForCall setup outcome (requestMessage async notifies compress response os c)
    response (issue response c) = result at handed ⊢
  rcases result with ⟨status, after⟩
  cases status with
  | thrown ex os => exact handed
  | sent callback => exact (enrolled _ _ _).trans handed
  | queued => exact (enrolled _ _ _).trans handed
  | refused ex => exact (enrolled _ _ _).trans handed

theorem auto_flush_handed (outcome : WriteOutcome) :
    (autoFlush setup outcome c).2.handed =
      c.handed ++ [batchMessage none (frontBatch c)] := by
  have handed : (sendMessage setup outcome (batchMessage none (frontBatch c))
      { c with batch := frontBatch c }).2.handed = _ := send_message_handed outcome _
  have restarted (e : ConnectionI) (lastRequest : List Byte) :
      (restartBatch setup lastRequest e).2.handed = e.handed := by
    obtain ⟨batch, same⟩ : ∃ batch, (restartBatch setup lastRequest e).2 =
      { e with batch := batch } := restart_batch_same lastRequest
    rw [same]
  rw [auto_flush_eq]
  generalize sendMessage setup outcome (batchMessage none (frontBatch c))
    { c with batch := frontBatch c } = result at handed ⊢
  rcases result with ⟨status, after⟩
  cases status with
  | failed ex os => exact (fail_handed ex).trans handed
  | sent callback => exact (restarted _ _).trans handed
  | queued => exact (restarted _ _).trans handed

theorem finish_batch_handed (request : List Byte) (compress : Bool) (outcome : WriteOutcome) :
    ∃ added, (finishBatchRequest setup request compress outcome c).2.handed = c.handed ++ added ∧
      (added = [] ∨ added = [batchMessage none (frontBatch (returnBatch request c))] ∧
        c.exception = none ∧ 0 < c.batch.requestNum) := by
  have nothing : c.handed = c.handed ++ [] := (List.append_nil _).symm
  rw [finish_batch_eq]
  dsimp only
  split
  · exact ⟨[], nothing, Or.inl rfl⟩
  · next isFree =>
      split
      · exact ⟨[], nothing, Or.inl rfl⟩
      · split
        · next some_ =>
            have handed : (autoFlush setup outcome (returnBatch request c)).2.handed = _ :=
              auto_flush_handed outcome
            refine ⟨_, ?_, Or.inr ⟨rfl, isFree, some_⟩⟩
            generalize autoFlush setup outcome (returnBatch request c) = result at handed ⊢
            rcases result with ⟨status, after⟩
            cases status with
            | error ex => exact handed
            | ok done => exact handed
        · exact ⟨[], nothing, Or.inl rfl⟩

theorem flush_handed {async notifies : Bool} {result : CallResult} (free : c.exception = none)
    (flushed : flushBatch setup async notifies outcome c = some (result, d)) :
    c.batch.inUse = false ∧ (c.batch.requestNum = 0 ∧ d.handed = c.handed ∨
      c.batch.requestNum ≠ 0 ∧ d.handed =
        c.handed ++ [batchMessage (some ⟨c.calls.length, async, notifies⟩) c.batch]) := by
  obtain ⟨unused, ⟨nothing, rfl⟩ | ⟨some_, sent, isSent, rest⟩⟩ := flush_batch_cases free flushed
  · exact ⟨unused, Or.inl ⟨nothing, rfl⟩⟩
  · have handed : (sendForCall setup outcome
        (batchMessage (some ⟨c.calls.length, async, notifies⟩) c.batch) false
        (swapBatch c)).2.handed = _ := send_for_call_handed outcome _ false
    rw [isSent] at handed
    refine ⟨unused, Or.inr ⟨some_, ?_⟩⟩
    obtain ⟨rfl, _⟩ | ⟨rfl, _⟩ := rest
    · exact handed
    · exact handed

theorem send_next_loop_handed (rest : List OutgoingMessage) (current : OutgoingMessage)
    (writes : List WriteOutcome) (callbacks : List Call) :
    (sendNextLoop setup rest current writes callbacks c).connection.handed = c.handed := by
  induction rest generalizing current writes callbacks c with
  | nil =>
      unfold sendNextLoop
      dsimp only
      split <;> rw [notify_sent_eq]
  | cons next later ih =>
      have popped : (popped (next :: later) current c).handed = c.handed :=
        congrArg Pipe.handed popped_pipe
      rw [send_next_loop_cons]
      dsimp only
      split
      · exact popped
      · split
        · exact popped
        · split
          · exact popped
          · exact popped
          · rw [ih]
            exact popped

theorem processed_handed (ready : Ready) : (processed setup ready c).handed = c.handed := by
  obtain ⟨buffer, delivered, advanced⟩ : ∃ buffer delivered, (writePart ready c).2 =
    advance buffer delivered c := write_part_advances ready
  have parsed : (parsedState setup ready c).handed = c.handed := by
    have pipe : (parsedState setup ready c).pipe = (writePart ready c).2.pipe := parsed_pipe ready
    rw [advanced] at pipe
    exact congrArg Pipe.handed pipe
  have sent : (sendPart setup ready (parsedState setup ready c)).2.handed = c.handed := by
    rw [← parsed]
    generalize parsedState setup ready c = p
    unfold sendPart
    split
    · unfold sendNextMessage
      split
      · rfl
      · next current rest _ =>
          have looped : (sendNextLoop setup rest current ready.writes.tail [] p).connection.handed =
              p.handed := send_next_loop_handed rest current ready.writes.tail []
          generalize sendNextLoop setup rest current ready.writes.tail [] p = result at looped ⊢
          rcases result with ⟨callbacks, failure, after⟩
          cases failure with
          | none => exact looped
          | some ex => exact (fail_handed ex).trans looped
    · rfl
  have counted (callbacks : List Call) (parsed : Parsed) (e : ConnectionI) :
      (countCallbacks callbacks parsed e).handed = e.handed :=
    congrArg Pipe.handed (count_callbacks_pipe callbacks parsed)
  exact (counted _ _ _).trans sent

theorem Move.hands (move : Move setup permits c d) :
    ∃ added, d.handed = c.handed ++ added ∧ ∀ message ∈ added, Hand setup c message := by
  have nothing (same : d.handed = c.handed) :
      ∃ added, d.handed = c.handed ++ added ∧ ∀ message ∈ added, Hand setup c message :=
    ⟨[], by rw [same, List.append_nil], by simp⟩
  have one {message : OutgoingMessage} (handed : d.handed = c.handed ++ [message])
      (hand : Hand setup c message) :
      ∃ added, d.handed = c.handed ++ added ∧ ∀ message ∈ added, Hand setup c message := by
    refine ⟨[message], handed, ?_⟩
    intro other inside
    rw [List.mem_singleton.mp inside]
    exact hand
  cases move with
  | life same => exact nothing (congrArg Pipe.handed (pipe_of_still same))
  | validated | dropped | abort | upcall | throws | callbacks | invoke => exact nothing rfl
  | @shutdown site outcome =>
      obtain ⟨added, handed, cases_⟩ :
          ∃ added, (Connection.shutdown setup site outcome c).handed = c.handed ++ added ∧
            (added = [] ∨ added = [closeMessage]) := shutdown_handed site outcome
      refine ⟨added, handed, ?_⟩
      intro message inside
      obtain rfl | rfl := cases_
      · cases inside
      · rw [List.mem_singleton.mp inside]
        exact .close
  | @call async notifies compress response os outcome _ open_ free =>
      cases fits : checkSendSize setup os.bytes.length with
      | error ex =>
          apply nothing
          rw [send_call_refused free fits]
      | ok done => exact one (send_call_handed free fits) (.request fits)
  | prepareBatch open_ free prepared =>
      obtain ⟨_, rfl⟩ := prepare_batch_eq free prepared
      exact nothing rfl
  | @finishBatch request compress outcome inUse _ _ free =>
      obtain ⟨added, handed, cases_⟩ :
          ∃ added, (finishBatchRequest setup request compress outcome c).2.handed =
            c.handed ++ added ∧
          (added = [] ∨ added = [batchMessage none (frontBatch (returnBatch request c))] ∧
            c.exception = none ∧ 0 < c.batch.requestNum) :=
        finish_batch_handed request compress outcome
      refine ⟨added, handed, ?_⟩
      intro message inside
      obtain rfl | ⟨rfl, isFree, some_⟩ := cases_
      · cases inside
      · rw [List.mem_singleton.mp inside]
        exact .split (free.mp isFree) inUse some_
  | flush open_ free outside flushed =>
      obtain ⟨unused, ⟨_, same⟩ | ⟨some_, handed⟩⟩ := flush_handed free flushed
      · exact nothing same
      · exact one handed (.flush open_ unused some_)
  | write _ _ wrote =>
      obtain ⟨buffer, delivered, rfl⟩ := advanced_of_write wrote
      exact nothing rfl
  | abandon _ _ wrote =>
      obtain ⟨buffer, delivered, rfl⟩ := advanced_of_write wrote
      exact nothing rfl
  | read _ took =>
      obtain ⟨stream, consumed, rfl⟩ := left_by_read took
      exact nothing rfl
  | process => exact nothing (processed_handed _)
  | forget => exact nothing (congrArg Pipe.handed reap_pipe)
  | done =>
      apply nothing
      unfold retireUpcall
      split
      · exact congrArg Pipe.handed reap_pipe
      · rfl
  | answered => exact nothing (congrArg Pipe.handed reap_pipe)
  | @replied index dispatch body outcome found response open_ bounded =>
      have retired : (retire index c).handed = c.handed := congrArg Pipe.handed reap_pipe
      apply one _ (.reply bounded)
      rw [send_own_handed, retired]
  | finish closed => exact nothing (finish_handed closed)

end IceTouch.Connection
